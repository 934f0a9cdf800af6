import ShadowLend.Relief
import ShadowLend.Provenance

/-! One health for every way of presenting it. The totals a handler forms depend on
which positions it counts, not on which of them are its main accounts, nor on the
order of the list, nor on what the list adds that counts for nothing. -/

namespace ShadowLend

open Outcome Devnet

def ownerTotals (rt : Runtime) (s : State) (user mint : Pubkey) (position : Position)
    (price : Price) (remaining : List Pubkey) : Except ProgramError Totals := do
  let totals ← accumulatePosition position.supplied position.borrowed price position.decimals
    position.maxLtvBps .zero
  accumulateRemaining rt (remaining.map s.accountInfo) user (.position user mint) s.clock totals

def liquidationTotals (rt : Runtime) (s : State) (accounts : LiquidateAccounts)
    (debtPosition : Position) (debtPrice : Price) (collateralPosition : Position)
    (collatPrice : Price) (remaining : List Pubkey) : Except ProgramError Totals := do
  let totals ← accumulatePosition debtPosition.supplied debtPosition.borrowed debtPrice
    debtPosition.decimals debtPosition.maxLtvBps .zero
  let totals ← accumulatePosition collateralPosition.supplied collateralPosition.borrowed
    collatPrice collateralPosition.decimals collateralPosition.maxLtvBps totals
  accumulateRemainingSkip rt (remaining.map s.accountInfo) accounts.borrower accounts.skipKeys
    s.clock totals

section Handlers

variable {rt : Runtime} {s : State} {user : Signer} {mint priceUpdate : Pubkey}
variable {remaining : List Pubkey} {amount : U64}

/-- The withdrawal with its health check as one call. -/
theorem withdraw_eq :
    withdraw rt s user mint priceUpdate remaining amount = (do
      let ctx ← ModifyPositionWithPrice.load rt s user mint priceUpdate
      require (0 < amount.val) (.market .zeroAmount)
      let market := accrueMarket ctx.market s.clock
      let position := accruePosition ctx.position market
      let newSupplied ← okOr (position.supplied.checkedSub amount)
        (.market .insufficientCollateral)
      let curPrice ← okOr
        (rt.getPriceNoOlderThan ctx.priceUpdate s.clock maxPriceAgeSec market.feedId)
        (.market .stalePrice)
      let totals ← ownerTotals rt s user.pubkey mint { position with supplied := newSupplied }
        curPrice remaining
      require (totals.debt.val ≤ totals.collatAtLtv.val) (.market .wouldBeUnhealthy)
      let tokens ← transferTokens ctx.tokens (.vault mint) (.associatedToken user.pubkey mint)
        (.authority mint) amount
      let totalSupplied ← okOr (market.totalSupplied.checkedSub amount) (.market .overflow)
      pure (s.writeBack user.pubkey mint { market with totalSupplied := totalSupplied }
        { position with supplied := newSupplied } tokens
        (.marketAction user.pubkey market.mint .withdraw newSupplied position.borrowed))) := by
  simp only [withdraw, ownerTotals, bind_assoc]

theorem borrow_eq :
    borrow rt s user mint priceUpdate remaining amount = (do
      let ctx ← ModifyPositionWithPrice.load rt s user mint priceUpdate
      require (0 < amount.val) (.market .zeroAmount)
      let market := accrueMarket ctx.market s.clock
      let position := accruePosition ctx.position market
      require (position.supplied.val = 0) (.market .sameMintBorrow)
      let newBorrowed ← okOr (position.borrowed.checkedAdd amount) (.market .overflow)
      require (amount.val ≤ ctx.vault.amount.val) (.market .insufficientLiquidity)
      let curPrice ← okOr
        (rt.getPriceNoOlderThan ctx.priceUpdate s.clock maxPriceAgeSec market.feedId)
        (.market .stalePrice)
      let totals ← ownerTotals rt s user.pubkey mint { position with borrowed := newBorrowed }
        curPrice remaining
      require (totals.debt.val ≤ totals.collatAtLtv.val) (.market .exceedsLtv)
      let tokens ← transferTokens ctx.tokens (.vault mint) (.associatedToken user.pubkey mint)
        (.authority mint) amount
      let totalBorrowed ← okOr (market.totalBorrowed.checkedAdd amount) (.market .overflow)
      pure (s.writeBack user.pubkey mint { market with totalBorrowed := totalBorrowed }
        { position with borrowed := newBorrowed } tokens
        (.marketAction user.pubkey market.mint .borrow position.supplied newBorrowed))) := by
  simp only [borrow, ownerTotals, bind_assoc]

theorem liquidate_eq {accounts : LiquidateAccounts} {repayAmount : U64} :
    liquidate rt s accounts remaining repayAmount = (do
      let ctx ← Liquidate.load rt s accounts
      require (0 < repayAmount.val) (.market .zeroAmount)
      let debtMarket := accrueMarket ctx.debtMarket s.clock
      let collateralMarket := accrueMarket ctx.collateralMarket s.clock
      let debtPosition := accruePosition ctx.debtPosition debtMarket
      let collateralPosition := accruePosition ctx.collateralPosition collateralMarket
      require (accounts.liquidator.pubkey ≠ accounts.borrower) (.market .selfLiquidation)
      require (debtPosition.user = accounts.borrower) (.market .badPositionAccount)
      require (collateralPosition.user = accounts.borrower) (.market .badPositionAccount)
      require (0 < debtPosition.borrowed.val) (.market .nothingToLiquidate)
      require (0 < collateralPosition.supplied.val) (.market .nothingToLiquidate)
      let debtPrice ← okOr
        (rt.getPriceNoOlderThan ctx.debtPriceUpdate s.clock maxPriceAgeSec debtMarket.feedId)
        (.market .stalePrice)
      let collatPrice ← okOr
        (rt.getPriceNoOlderThan ctx.collateralPriceUpdate s.clock maxPriceAgeSec
          collateralMarket.feedId)
        (.market .stalePrice)
      let totals ← liquidationTotals rt s accounts debtPosition debtPrice collateralPosition
        collatPrice remaining
      require (totals.collatAtLtv.val < totals.debt.val) (.market .positionHealthy)
      let actualRepay := repayAmount.least debtPosition.borrowed
      let seize ← seizeAmount actualRepay debtPrice collatPrice debtPosition.decimals
        collateralPosition.decimals collateralPosition.supplied
      require (0 < seize.val) (.market .nothingToLiquidate)
      require (seize.val ≤ ctx.collateralVault.amount.val) (.market .insufficientLiquidity)
      let tokens ← transferTokens s.tokens accounts.liquidatorDebtAta (.vault accounts.debtMint)
        accounts.liquidator.pubkey actualRepay
      let tokens ← transferTokens tokens (.vault accounts.collateralMint)
        accounts.liquidatorCollateralAta (.authority accounts.collateralMint) seize
      pure (s.writeBackLiquidation accounts
        { debtMarket with totalBorrowed := debtMarket.totalBorrowed.saturatingSub actualRepay }
        { debtPosition with borrowed := debtPosition.borrowed.saturatingSub actualRepay }
        { collateralMarket with
          totalSupplied := collateralMarket.totalSupplied.saturatingSub seize }
        { collateralPosition with supplied := collateralPosition.supplied.saturatingSub seize }
        tokens
        (.liquidation accounts.liquidator.pubkey accounts.borrower debtMarket.mint
          collateralMarket.mint actualRepay seize))) := by
  simp only [liquidate, liquidationTotals, bind_assoc]

end Handlers

/-- `remaining_accounts` as the pairs it is read in. -/
def flat (places : List (Pubkey × Pubkey)) : List Pubkey :=
  places.flatMap fun place => [place.1, place.2]

theorem pairs_flat (places : List (Pubkey × Pubkey)) : pairs (flat places) = places := by
  induction places with
  | nil => rfl
  | cons head tail ih => exact congrArg (head :: ·) ih

theorem length_flat (places : List (Pubkey × Pubkey)) :
    (flat places).length = 2 * places.length := by
  induction places with
  | nil => rfl
  | cons head tail ih =>
      simp only [flat, List.flatMap_cons, List.length_append, List.length_cons] at ih ⊢
      rw [ih]
      simp only [List.length_nil]
      omega

theorem listedPositions_flat (places : List (Pubkey × Pubkey)) :
    listedPositions (flat places) = places.map Prod.fst := by
  rw [listedPositions, pairs_flat]

/-- A Pyth account at which the program reads this price for the feed. -/
def Quotes (rt : Runtime) (s : State) (address : Pubkey) (feedId : FeedId) (price : Price) : Prop :=
  ∃ update, (s.accountInfo address).owner = .pythReceiver ∧
    (s.accountInfo address).data.asPriceUpdate = some update ∧
    rt.getPriceNoOlderThan update s.clock maxPriceAgeSec feedId = some price

theorem Quotes.price_eq {rt : Runtime} {s : State} {address : Pubkey} {update : PriceUpdateV2}
    {feedId : FeedId} {price read : Price} (quotes : Quotes rt s address feedId price)
    (loaded : loadPriceUpdate s address = .ok update)
    (priced : rt.getPriceNoOlderThan update s.clock maxPriceAgeSec feedId = some read) :
    read = price := by
  simp only [loadPriceUpdate, bind_ok, require_ok, okOr_ok] at loaded
  rcases loaded with ⟨_, _, data⟩
  rcases quotes with ⟨quoted, _, data', priced'⟩
  rw [data, Option.some.injEq] at data'
  subst quoted
  rw [priced, Option.some.injEq] at priced'
  exact priced'

theorem quotes_of_read {rt : Runtime} {s : State} {address : Pubkey} {feedId : FeedId}
    {price : Price}
    (computed : ((s.accountInfo address).data.asPriceUpdate.any fun update =>
      (s.accountInfo address).owner = .pythReceiver ∧
        rt.getPriceNoOlderThan update s.clock maxPriceAgeSec feedId = some price) = true) :
    Quotes rt s address feedId price := by
  rcases some_where computed with ⟨update, data, owned, priced⟩
  exact ⟨update, owned, data, priced⟩

/-- A list which goes with some main positions: each other position of the set
once, and beyond these only pairs which name a main position or an empty one. -/
structure Presents (rt : Runtime) (s : State) (prices : FeedId → Price) (user : Pubkey)
    (keys : Finset Pubkey) (mains : List Pubkey) (places : List (Pubkey × Pubkey)) : Prop where
  each : ∀ place ∈ places, (∃ mint ∈ mains, place.1 = .position user mint) ∨
    ∃ mint position, place.1 = .position user mint ∧
      s.positions.lookup (user, mint) = some position ∧
      (position.isEmpty ∨
        mint ∈ keys ∧ Quotes rt s place.2 position.feedId (prices position.feedId))
  once : ∀ mint ∈ keys, mint ∉ mains → ∀ position,
    s.positions.lookup (user, mint) = some position → ¬ position.isEmpty →
    (places.map Prod.fst).count (.position user mint) = 1

def storedDebtValue (prices : FeedId → Price) (_ : Pubkey × Pubkey) (position : Position) : ℕ :=
  usdValue position.borrowed (prices position.feedId) position.decimals

def State.heldTotals (s : State) (prices : FeedId → Price) (user : Pubkey)
    (keys : Finset Pubkey) : Totals where
  collatAtLtv :=
    Uint.clamp 128 (∑ mint ∈ keys, s.positions.share (weightedValue prices) (user, mint))
  debt := Uint.clamp 128 (∑ mint ∈ keys, s.positions.share (storedDebtValue prices) (user, mint))

def storedEntry (prices : FeedId → Price) (user mint : Pubkey) (position : Position) :
    Contribution :=
  position.contribution (.position user mint) (prices position.feedId) position.feedId

def IsEntry (s : State) (prices : FeedId → Price) (user mint : Pubkey) (e : Contribution) : Prop :=
  ∃ position, s.positions.lookup (user, mint) = some position ∧
    e = storedEntry prices user mint position

section Sums

variable {s : State} {prices : FeedId → Price} {user : Pubkey} {keys : Finset Pubkey}
variable {log : List Contribution}

/-- A list that has each nonempty position of a set once sums over the set. -/
theorem sum_of_entries {g : Contribution → ℕ} {worth : Pubkey × Pubkey → Position → ℕ}
    (valued : ∀ mint position,
      g (storedEntry prices user mint position) = worth (user, mint) position)
    (hollow : ∀ key position, position.isEmpty → worth key position = 0)
    (entries : ∀ e ∈ log, ∃ mint ∈ keys, IsEntry s prices user mint e)
    (covered : ∀ mint ∈ keys, ∀ position, s.positions.lookup (user, mint) = some position →
      ¬ position.isEmpty → ∃ e ∈ log, e.account = .position user mint)
    (once : (log.map Contribution.account).Nodup) :
    (log.map g).sum = ∑ mint ∈ keys, s.positions.share worth (user, mint) := by
  apply le_antisymm
  · apply Coverage.sum_le_of_distinct (fun mint => Pubkey.position user mint) Contribution.account
    · intro e member _
      rcases entries e member with ⟨mint, inside, position, found, rfl⟩
      refine ⟨mint, inside, rfl, ?_⟩
      rw [valued, Table.share_of_lookup found]
    · apply (List.pairwise_map.mp once).imp
      intro e e' distinct _ _
      exact distinct
  · apply Coverage.sum_le_of_covered (fun mint => Pubkey.position user mint) Contribution.account
    · intro mint mint' same
      exact (Pubkey.position.inj same).2
    · intro mint inside nonzero
      cases found : s.positions.lookup (user, mint) with
      | none => exact absurd (Table.share_of_absent found) nonzero
      | some position =>
          rw [Table.share_of_lookup found] at nonzero
          exact covered mint inside position found fun empty => nonzero (hollow _ _ empty)
    · intro e member mint _ named
      rcases entries e member with ⟨mint', _, position, found, rfl⟩
      have here : mint' = mint := (Pubkey.position.inj named).2
      subst mint'
      rw [valued, Table.share_of_lookup found]

theorem heldTotals_of_entries {totals : Totals}
    (entries : ∀ e ∈ log, ∃ mint ∈ keys, IsEntry s prices user mint e)
    (covered : ∀ mint ∈ keys, ∀ position, s.positions.lookup (user, mint) = some position →
      ¬ position.isEmpty → ∃ e ∈ log, e.account = .position user mint)
    (once : (log.map Contribution.account).Nodup)
    (summed : accumulateAll log .zero = .ok totals) : totals = s.heldTotals prices user keys := by
  have collateral : (log.map Contribution.collateral).sum =
      ∑ mint ∈ keys, s.positions.share (weightedValue prices) (user, mint) := by
    apply sum_of_entries (fun _ _ => rfl) ?_ entries covered once
    intro key position empty
    exact collateralValue_zero _ _ _ empty.1
  have debt : (log.map Contribution.debt).sum =
      ∑ mint ∈ keys, s.positions.share (storedDebtValue prices) (user, mint) := by
    apply sum_of_entries (fun _ _ => rfl) ?_ entries covered once
    intro key position empty
    exact usdValue_zero _ _ empty.2
  have sums := accumulateAll_zero summed
  rw [collateral, debt] at sums
  have first : totals.collatAtLtv = (s.heldTotals prices user keys).collatAtLtv := Fin.ext sums.1
  have second : totals.debt = (s.heldTotals prices user keys).debt := Fin.ext sums.2
  calc
    totals = ⟨totals.collatAtLtv, totals.debt⟩ := rfl
    _ = s.heldTotals prices user keys := by rw [first, second]

end Sums

section Walks

variable {rt : Runtime} {s : State} {prices : FeedId → Price} {user : Pubkey}
variable {keys : Finset Pubkey} {mains : List Pubkey} {places : List (Pubkey × Pubkey)}
variable {skip : Pubkey → Bool}

/-- A pair of the list is skipped, passed over or read at the price of its feed. -/
theorem Presents.reads (linked : Linked rt s)
    (presents : Presents rt s prices user keys mains places)
    (skips : ∀ mint, skip (.position user mint) = true ↔ mint ∈ mains)
    {place : Pubkey × Pubkey} (member : place ∈ places) :
    s.readKeys rt skip user place = .ok none ∨
      ∃ mint ∈ keys, ∃ position, s.positions.lookup (user, mint) = some position ∧
        s.readKeys rt skip user place = .ok (some (storedEntry prices user mint position)) := by
  rcases presents.each place member with ⟨mint, main, named⟩ |
    ⟨mint, position, named, found, kind⟩
  · left
    simp only [State.readKeys, readPair, Prod.map, accountInfo_key, named]
    rw [if_pos ((skips mint).mpr main)]
    rfl
  · rcases Bool.eq_false_or_eq_true (skip place.1) with skipped | unskipped
    · left
      simp only [State.readKeys, readPair, Prod.map, accountInfo_key, skipped, if_true]
      rfl
    · have info : s.accountInfo place.1 = ⟨place.1, .shadowLend, .position position⟩ := by
        rw [named]
        simp only [State.accountInfo, found]
      have mine : position.user = user := linked.position_user found
      by_cases empty : position.isEmpty
      · left
        simp only [State.readKeys, readPair, Prod.map, info, unskipped, AccountData.asPosition,
          require, okOr, mine, empty, if_true, bind, Except.bind]
        rfl
      · right
        rcases kind with hollow | ⟨inside, update, owned, data, priced⟩
        · exact absurd hollow empty
        · refine ⟨mint, inside, position, found, ?_⟩
          simp only [State.readKeys, readPair, Prod.map, info, unskipped, AccountData.asPosition,
            require, okOr, mine, empty, owned, data, priced, if_true, if_false, bind, Except.bind]
          rw [storedEntry, ← named]
          rfl

theorem Presents.accepted (linked : Linked rt s)
    (presents : Presents rt s prices user keys mains places)
    (skips : ∀ mint, skip (.position user mint) = true ↔ mint ∈ mains) :
    ∃ listed,
      contributions rt ((flat places).map s.accountInfo) user skip s.clock = .ok listed := by
  have each : ∀ place ∈ places, ∃ read, s.readKeys rt skip user place = .ok read := by
    intro place member
    rcases presents.reads linked skips member with nothing | ⟨_, _, _, _, read⟩
    · exact ⟨_, nothing⟩
    · exact ⟨_, read⟩
  rcases mapM_total each with ⟨reads, ran⟩
  refine ⟨reads.reduceOption, ?_⟩
  simp only [contributions, bind_ok, require_ok, List.length_map, length_flat, pairs_map,
    pairs_flat, List.mapM_map, pure_ok]
  exact ⟨(), by omega, reads, ran, rfl⟩

theorem Presents.listed_entry (linked : Linked rt s)
    (presents : Presents rt s prices user keys mains places)
    (skips : ∀ mint, skip (.position user mint) = true ↔ mint ∈ mains)
    {listed : List Contribution}
    (walked : contributions rt ((flat places).map s.accountInfo) user skip s.clock = .ok listed)
    {e : Contribution} (member : e ∈ listed) :
    ∃ mint ∈ keys, mint ∉ mains ∧ ¬ skip e.account = true ∧ IsEntry s prices user mint e := by
  rcases contributions_mem walked member with ⟨place, inside, ran⟩
  rw [pairs_flat] at inside
  rcases presents.reads linked skips inside with nothing | ⟨mint, key, position, found, read⟩
  · rw [nothing] at ran
    cases ran
  · rw [read, Except.ok.injEq, Option.some.injEq] at ran
    subst e
    rcases ShadowLend.listed_entry walked member with ⟨unskipped, _⟩
    have unmarked : ¬ skip (.position user mint) = true := by
      intro marked
      rw [show (storedEntry prices user mint position).account = .position user mint from rfl,
        marked] at unskipped
      cases unskipped
    exact ⟨mint, key, fun main => unmarked ((skips mint).mpr main), unmarked, position, found, rfl⟩

theorem Presents.totals (linked : Linked rt s)
    (presents : Presents rt s prices user keys mains places) (distinct : mains.Nodup)
    (skips : ∀ mint, skip (.position user mint) = true ↔ mint ∈ mains)
    {heads listed : List Contribution}
    (counted : List.Forall₂ (fun mint e => mint ∈ keys ∧ IsEntry s prices user mint e) mains heads)
    (walked : contributions rt ((flat places).map s.accountInfo) user skip s.clock = .ok listed)
    {totals : Totals} (summed : accumulateAll (heads ++ listed) .zero = .ok totals) :
    totals = s.heldTotals prices user keys := by
  have accounts : heads.map Contribution.account = mains.map (Pubkey.position user) := by
    clear distinct skips summed presents
    induction counted with
    | nil => rfl
    | cons head _ ih =>
        rcases head with ⟨_, position, _, rfl⟩
        exact congrArg _ ih
  apply heldTotals_of_entries ?_ ?_ ?_ summed
  · intro e member
    rcases List.mem_append.mp member with head | tail
    · rcases exists_source counted head with ⟨mint, _, inside, entry⟩
      exact ⟨mint, inside, entry⟩
    · rcases presents.listed_entry linked skips walked tail with ⟨mint, inside, _, _, entry⟩
      exact ⟨mint, inside, entry⟩
  · intro mint inside position found holds
    by_cases main : mint ∈ mains
    · rcases exists_image counted main with ⟨e, head, _, _, _, rfl⟩
      exact ⟨_, List.mem_append_left _ head, rfl⟩
    · have once := presents.once mint inside main position found holds
      have present : .position user mint ∈ listedPositions (flat places) := by
        rw [listedPositions_flat]
        exact List.count_pos_iff.mp (by omega)
      have unskipped : skip (.position user mint) = false := by
        rw [← Bool.not_eq_true]
        exact fun skipped => main ((skips mint).mp skipped)
      rcases listed_counted walked found holds present unskipped with ⟨e, tail, named⟩
      exact ⟨e, List.mem_append_right _ tail, named⟩
  · rw [List.map_append, accounts, List.nodup_append]
    refine ⟨?_, ?_, ?_⟩
    · apply distinct.map
      intro mint mint' same
      exact (Pubkey.position.inj same).2
    · have apart : listed.Pairwise fun e e' =>
          (1 : ℕ) ≠ 0 → (1 : ℕ) ≠ 0 → e.account ≠ e'.account := by
        apply listed_once walked (g := fun _ => 1)
        intro e member _
        rcases presents.listed_entry linked skips walked member with
          ⟨mint, inside, other, _, position, found, rfl⟩
        rcases ShadowLend.listed_entry walked member with
          ⟨_, _, owner, mint', position', _, named, found', _, holds, _⟩
        have same := Pubkey.position.inj named
        rw [← same.1, ← same.2] at found'
        rw [Table.lookup_unique found' found] at holds
        rw [listedPositions_flat]
        exact (presents.once mint inside other position found holds).le
      exact List.pairwise_map.mpr (apart.imp fun differ => differ (by decide) (by decide))
    · intro account head account' tail same
      subst account'
      rcases List.mem_map.mp head with ⟨mint, main, rfl⟩
      rcases List.mem_map.mp tail with ⟨e, member, named⟩
      rcases presents.listed_entry linked skips walked member with ⟨_, _, _, unskipped, _⟩
      rw [named] at unskipped
      exact unskipped ((skips mint).mpr main)

end Walks

section Orders

variable {rt : Runtime} {s : State} {user : Pubkey} {skip : Pubkey → Bool}
variable {places places' : List (Pubkey × Pubkey)}

/-- A walk in another order accepts the same pairs and counts the same entries. -/
theorem walk_perm (order : places.Perm places') {totals after : Totals}
    (ran : walkRemaining rt ((flat places).map s.accountInfo) user skip s.clock totals = .ok after) :
    walkRemaining rt ((flat places').map s.accountInfo) user skip s.clock totals = .ok after := by
  rcases walkRemaining_ok.mp ran with ⟨log, walked, summed⟩
  simp only [contributions, bind_ok, require_ok, List.length_map, length_flat, pairs_map,
    pairs_flat, pure_ok] at walked
  rcases walked with ⟨_, _, reads, read, rfl⟩
  rcases mapM_perm (order.symm.map _) read with ⟨reads', read', same⟩
  apply walkRemaining_ok.mpr
  refine ⟨reads'.reduceOption, ?_, accumulateAll_perm (same.symm.filterMap id) summed⟩
  simp only [contributions, bind_ok, require_ok, List.length_map, length_flat, pairs_map,
    pairs_flat, pure_ok]
  exact ⟨(), by omega, reads', read', rfl⟩

theorem ownerTotals_perm (order : places.Perm places') {mint : Pubkey} {position : Position}
    {price : Price} {totals : Totals}
    (ran : ownerTotals rt s user mint position price (flat places) = .ok totals) :
    ownerTotals rt s user mint position price (flat places') = .ok totals := by
  simp only [ownerTotals, bind_ok] at ran ⊢
  rcases ran with ⟨first, counted, walked⟩
  exact ⟨first, counted, walk_perm order walked⟩

theorem liquidationTotals_perm (order : places.Perm places') {accounts : LiquidateAccounts}
    {debtPosition collateralPosition : Position} {debtPrice collatPrice : Price} {totals : Totals}
    (ran : liquidationTotals rt s accounts debtPosition debtPrice collateralPosition collatPrice
      (flat places) = .ok totals) :
    liquidationTotals rt s accounts debtPosition debtPrice collateralPosition collatPrice
      (flat places') = .ok totals := by
  simp only [liquidationTotals, bind_ok] at ran ⊢
  rcases ran with ⟨first, counted, second, next, walked⟩
  exact ⟨first, counted, second, next, walk_perm order walked⟩

end Orders

/-- What a computation of the health of a set of positions has to come to: the
totals of the set whenever it comes to any, and that unless a price panics. -/
def Agrees (s : State) (prices : FeedId → Price) (user : Pubkey) (keys : Finset Pubkey)
    (computed : Except ProgramError Totals) : Prop :=
  (∀ totals, computed = .ok totals → totals = s.heldTotals prices user keys) ∧
    ((∀ mint ∈ keys, ∀ position, s.positions.lookup (user, mint) = some position →
        (prices position.feedId).converts position.decimals) →
      computed = .ok (s.heldTotals prices user keys))

section Presentations

variable {rt : Runtime} {s : State} {prices : FeedId → Price} {user : Pubkey}
variable {keys : Finset Pubkey}

theorem main_entry (linked : Linked rt s) {mint : Pubkey} {market : Market} {position : Position}
    (found : s.markets.lookup mint = some market)
    (stored : s.positions.lookup (user, mint) = some position)
    (current : s.debtNow (user, mint) position = position.borrowed) :
    (accruePosition position (accrueMarket market s.clock)).contribution (.position user mint)
        (prices (accrueMarket market s.clock).feedId) (accrueMarket market s.clock).feedId =
      storedEntry prices user mint position := by
  have now : s.debtNow (user, mint) position =
      (accruePosition position (accrueMarket market s.clock)).borrowed :=
    debtNow_of_lookup found position
  have debt := now.symm.trans current
  have feed := (stored_terms linked stored found).1
  simp only [Position.contribution, storedEntry, accruePosition_supplied, accruePosition_decimals,
    accruePosition_maxLtvBps, accrueMarket_feedId, debt, feed]

/-- One lemma for both paths: a computation which accumulates its main entries and
then walks the list agrees with the set. -/
theorem agrees_of_walk (linked : Linked rt s) {mains : List Pubkey} (skip : Pubkey → Bool)
    {places : List (Pubkey × Pubkey)} (heads : List Contribution)
    {computed : Except ProgramError Totals}
    (presents : Presents rt s prices user keys mains places) (distinct : mains.Nodup)
    (skips : ∀ mint, skip (.position user mint) = true ↔ mint ∈ mains)
    (counted : List.Forall₂ (fun mint e => mint ∈ keys ∧ IsEntry s prices user mint e) mains heads)
    (computes : ∀ totals, computed = .ok totals ↔ ∃ listed,
      contributions rt ((flat places).map s.accountInfo) user skip s.clock = .ok listed ∧
        accumulateAll (heads ++ listed) .zero = .ok totals) :
    Agrees s prices user keys computed := by
  constructor
  · intro totals ran
    rcases (computes totals).mp ran with ⟨listed, walked, summed⟩
    exact presents.totals linked distinct skips counted walked summed
  · intro converts
    rcases presents.accepted linked skips with ⟨listed, walked⟩
    have converting {mint : Pubkey} {e : Contribution} (inside : mint ∈ keys)
        (entry : IsEntry s prices user mint e) : e.price.converts e.decimals := by
      rcases entry with ⟨position, found, rfl⟩
      exact converts mint inside position found
    have each : ∀ e ∈ heads ++ listed, e.price.converts e.decimals := by
      intro e member
      rcases List.mem_append.mp member with head | tail
      · rcases exists_source counted head with ⟨mint, _, inside, entry⟩
        exact converting inside entry
      · rcases presents.listed_entry linked skips walked tail with ⟨mint, inside, _, _, entry⟩
        exact converting inside entry
    rcases accumulateAll_ok_iff.mpr each with ⟨totals, summed⟩
    rw [← presents.totals linked distinct skips counted walked summed]
    exact (computes totals).mpr ⟨listed, walked, summed⟩

theorem ownerTotals_agrees (linked : Linked rt s) {mint : Pubkey} (inside : mint ∈ keys)
    {market : Market} {position : Position} {places : List (Pubkey × Pubkey)}
    (found : s.markets.lookup mint = some market)
    (stored : s.positions.lookup (user, mint) = some position)
    (current : s.debtNow (user, mint) position = position.borrowed)
    (presents : Presents rt s prices user keys [mint] places) :
    Agrees s prices user keys
      (ownerTotals rt s user mint (accruePosition position (accrueMarket market s.clock))
        (prices (accrueMarket market s.clock).feedId) (flat places)) := by
  have entry : IsEntry s prices user mint
      ((accruePosition position (accrueMarket market s.clock)).contribution (.position user mint)
        (prices (accrueMarket market s.clock).feedId) (accrueMarket market s.clock).feedId) :=
    ⟨position, stored, main_entry linked found stored current⟩
  apply agrees_of_walk linked (fun key => key = .position user mint) [_] presents
    (List.nodup_singleton mint) ?_ (.cons ⟨inside, entry⟩ .nil)
  · intro totals
    simp only [ownerTotals, accumulateRemaining, bind_ok, walkRemaining_ok, List.cons_append,
      List.nil_append, accumulateAll_cons]
    constructor
    · rintro ⟨first, counted, listed, walked, summed⟩
      exact ⟨listed, walked, first, counted, summed⟩
    · rintro ⟨listed, walked, first, counted, summed⟩
      exact ⟨first, counted, listed, walked, summed⟩
  · intro other
    simp

theorem liquidationTotals_agrees (linked : Linked rt s) {accounts : LiquidateAccounts}
    {debtMarket collateralMarket : Market} {debtPosition collateralPosition : Position}
    {places : List (Pubkey × Pubkey)} (borrower : accounts.borrower = user)
    (distinct : accounts.debtMint ≠ accounts.collateralMint)
    (debtInside : accounts.debtMint ∈ keys) (collateralInside : accounts.collateralMint ∈ keys)
    (debtFound : s.markets.lookup accounts.debtMint = some debtMarket)
    (debtStored : s.positions.lookup (user, accounts.debtMint) = some debtPosition)
    (debtCurrent : s.debtNow (user, accounts.debtMint) debtPosition = debtPosition.borrowed)
    (collateralFound : s.markets.lookup accounts.collateralMint = some collateralMarket)
    (collateralStored :
      s.positions.lookup (user, accounts.collateralMint) = some collateralPosition)
    (collateralCurrent :
      s.debtNow (user, accounts.collateralMint) collateralPosition = collateralPosition.borrowed)
    (presents : Presents rt s prices user keys [accounts.debtMint, accounts.collateralMint] places) :
    Agrees s prices user keys
      (liquidationTotals rt s accounts
        (accruePosition debtPosition (accrueMarket debtMarket s.clock))
        (prices (accrueMarket debtMarket s.clock).feedId)
        (accruePosition collateralPosition (accrueMarket collateralMarket s.clock))
        (prices (accrueMarket collateralMarket s.clock).feedId) (flat places)) := by
  have debtEntry : IsEntry s prices user accounts.debtMint
      ((accruePosition debtPosition (accrueMarket debtMarket s.clock)).contribution
        (.position user accounts.debtMint) (prices (accrueMarket debtMarket s.clock).feedId)
        (accrueMarket debtMarket s.clock).feedId) :=
    ⟨debtPosition, debtStored, main_entry linked debtFound debtStored debtCurrent⟩
  have collateralEntry : IsEntry s prices user accounts.collateralMint
      ((accruePosition collateralPosition (accrueMarket collateralMarket s.clock)).contribution
        (.position user accounts.collateralMint)
        (prices (accrueMarket collateralMarket s.clock).feedId)
        (accrueMarket collateralMarket s.clock).feedId) :=
    ⟨collateralPosition, collateralStored,
      main_entry linked collateralFound collateralStored collateralCurrent⟩
  apply agrees_of_walk linked (fun key => accounts.skipKeys.any (· = key)) [_, _] presents
    (by simpa using distinct) ?_
    (.cons ⟨debtInside, debtEntry⟩ (.cons ⟨collateralInside, collateralEntry⟩ .nil))
  · intro totals
    simp only [liquidationTotals, accumulateRemainingSkip, bind_ok, walkRemaining_ok,
      List.cons_append, List.nil_append, accumulateAll_cons, borrower]
    constructor
    · rintro ⟨first, counted, second, next, listed, walked, summed⟩
      exact ⟨listed, walked, first, counted, second, next, summed⟩
    · rintro ⟨listed, walked, first, counted, second, next, summed⟩
      exact ⟨first, counted, second, next, listed, walked, summed⟩
  · intro other
    simp only [LiquidateAccounts.skipKeys, borrower, List.any_cons, List.any_nil, Bool.or_false,
      Bool.or_eq_true, decide_eq_true_eq, Pubkey.position.injEq, true_and, List.mem_cons,
      List.not_mem_nil, or_false]
    exact or_congr eq_comm eq_comm

end Presentations

def AllCurrent (s : State) (user : Pubkey) (keys : Finset Pubkey) : Prop :=
  ∀ mint ∈ keys, ∃ position, s.positions.lookup (user, mint) = some position ∧
    s.debtNow (user, mint) position = position.borrowed

theorem health_agrees {rt : Runtime} {s : State} (reached : Reachable rt s)
    (prices : FeedId → Price) {user : Pubkey} {keys : Finset Pubkey}
    (current : AllCurrent s user keys) :
    (∀ mint ∈ keys, ∀ market position places, s.markets.lookup mint = some market →
      s.positions.lookup (user, mint) = some position →
      Presents rt s prices user keys [mint] places →
      Agrees s prices user keys
        (ownerTotals rt s user mint (accruePosition position (accrueMarket market s.clock))
          (prices (accrueMarket market s.clock).feedId) (flat places))) ∧
    (∀ (accounts : LiquidateAccounts) debtMarket debtPosition collateralMarket collateralPosition
        places,
      accounts.borrower = user → accounts.debtMint ≠ accounts.collateralMint →
      accounts.debtMint ∈ keys → accounts.collateralMint ∈ keys →
      s.markets.lookup accounts.debtMint = some debtMarket →
      s.positions.lookup (user, accounts.debtMint) = some debtPosition →
      s.markets.lookup accounts.collateralMint = some collateralMarket →
      s.positions.lookup (user, accounts.collateralMint) = some collateralPosition →
      Presents rt s prices user keys [accounts.debtMint, accounts.collateralMint] places →
      Agrees s prices user keys
        (liquidationTotals rt s accounts
          (accruePosition debtPosition (accrueMarket debtMarket s.clock))
          (prices (accrueMarket debtMarket s.clock).feedId)
          (accruePosition collateralPosition (accrueMarket collateralMarket s.clock))
          (prices (accrueMarket collateralMarket s.clock).feedId) (flat places))) ∧
    ∀ places places' : List (Pubkey × Pubkey), places.Perm places' →
      (∀ mint position price totals,
        ownerTotals rt s user mint position price (flat places) = .ok totals ↔
          ownerTotals rt s user mint position price (flat places') = .ok totals) ∧
      ∀ accounts debtPosition debtPrice collateralPosition collatPrice totals,
        liquidationTotals rt s accounts debtPosition debtPrice collateralPosition collatPrice
            (flat places) = .ok totals ↔
          liquidationTotals rt s accounts debtPosition debtPrice collateralPosition collatPrice
            (flat places') = .ok totals := by
  have linked := reached.linked
  have currentAt {mint : Pubkey} (inside : mint ∈ keys) {position : Position}
      (stored : s.positions.lookup (user, mint) = some position) :
      s.debtNow (user, mint) position = position.borrowed := by
    rcases current mint inside with ⟨held, found, same⟩
    rw [Table.lookup_unique stored found]
    exact same
  refine ⟨?_, ?_, ?_⟩
  · intro mint inside market position places found stored presents
    exact ownerTotals_agrees linked inside found stored (currentAt inside stored) presents
  · intro accounts debtMarket debtPosition collateralMarket collateralPosition places borrower
      distinct debtInside collateralInside debtFound debtStored collateralFound collateralStored
      presents
    exact liquidationTotals_agrees linked borrower distinct debtInside collateralInside debtFound
      debtStored (currentAt debtInside debtStored) collateralFound collateralStored
      (currentAt collateralInside collateralStored) presents
  · intro places places' order
    exact ⟨fun _ _ _ _ => ⟨ownerTotals_perm order, ownerTotals_perm order.symm⟩,
      fun _ _ _ _ _ _ => ⟨liquidationTotals_perm order, liquidationTotals_perm order.symm⟩⟩

def aliceKeys : Finset Pubkey := {sol.pubkey, usdc.pubkey}

def alicePlaces : List (Pubkey × Pubkey) :=
  [(.position alice.pubkey usdc.pubkey, usdcPrice), (.position alice.pubkey sol.pubkey, solPrice)]

theorem health_agrees_loan :
    ∃ market position,
      (ledger (indebted 4000000000000)).markets.lookup usdc.pubkey = some market ∧
      (ledger (indebted 4000000000000)).positions.lookup (alice.pubkey, usdc.pubkey) =
        some position ∧
      ownerTotals devnet (ledger (indebted 4000000000000)) alice.pubkey usdc.pubkey
          (accruePosition position (accrueMarket market (ledger (indebted 4000000000000)).clock))
          (quoted 10000000000 market.feedId) (flat alicePlaces) =
        .ok ((ledger (indebted 4000000000000)).heldTotals (quoted 10000000000) alice.pubkey
          aliceKeys) := by
  have stored (mint : Pubkey) (inside : mint ∈ aliceKeys) :
      ∃ position, (ledger (indebted 4000000000000)).positions.lookup (alice.pubkey, mint) =
          some position ∧
        (ledger (indebted 4000000000000)).debtNow (alice.pubkey, mint) position =
          position.borrowed ∧ (position.feedId = solFeed ∨ position.feedId = usdcFeed) ∧
        position.decimals = mintDecimals := by
    rcases Finset.mem_insert.mp inside with rfl | last
    · exact some_where (by decide +kernel)
    · rw [Finset.mem_singleton] at last
      subst mint
      exact some_where (by decide +kernel)
  have market : ∃ market,
      (ledger (indebted 4000000000000)).markets.lookup usdc.pubkey = some market ∧
        market.feedId = usdcFeed := some_where (by decide +kernel)
  have collateral : ∃ position,
      (ledger (indebted 4000000000000)).positions.lookup (alice.pubkey, sol.pubkey) =
        some position ∧ position.feedId = solFeed := some_where (by decide +kernel)
  have quote : Quotes devnet (ledger (indebted 4000000000000)) solPrice solFeed
      (quoted 10000000000 solFeed) := quotes_of_read (by decide +kernel)
  rcases market with ⟨market, found, _⟩
  rcases collateral with ⟨held, heldFound, feed⟩
  rcases stored usdc.pubkey (by decide) with ⟨position, positionFound, _⟩
  refine ⟨market, position, found, positionFound, ?_⟩
  have agrees := (health_agrees (ledger_reachable (indebted 4000000000000)) (quoted 10000000000)
    (fun mint inside => (stored mint inside).imp fun _ facts => ⟨facts.1, facts.2.1⟩)).1
    usdc.pubkey (by decide) market position alicePlaces found positionFound
  have presents : Presents devnet (ledger (indebted 4000000000000)) (quoted 10000000000)
      alice.pubkey aliceKeys [usdc.pubkey] alicePlaces := by
    constructor
    · intro place member
      rcases List.mem_cons.mp member with rfl | member
      · exact Or.inl ⟨usdc.pubkey, List.mem_singleton_self _, rfl⟩
      · rw [List.mem_singleton] at member
        subst place
        right
        refine ⟨sol.pubkey, held, rfl, heldFound, Or.inr ⟨by decide, ?_⟩⟩
        rw [feed]
        exact quote
    · intro mint inside other _ _ _
      rcases Finset.mem_insert.mp inside with rfl | last
      · decide
      · exact absurd (List.mem_singleton.mpr (Finset.mem_singleton.mp last)) other
  have converted := (agrees presents).2
  rw [accrueMarket_feedId] at converted
  apply converted
  intro mint inside position found
  rcases stored mint inside with ⟨position', found', _, feeds, decimals⟩
  rw [Table.lookup_unique found found', decimals]
  rcases feeds with same | same <;>
    · rw [same]
      exact ⟨-9, by decide +kernel, by decide⟩

end ShadowLend
