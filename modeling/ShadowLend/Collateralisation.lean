import ShadowLend.Devnet
import ShadowLend.Indices
import ShadowLend.Listing
import Mathlib.Algebra.Group.Action.Defs

/-! What the two health checks do establish about a whole account, and what the
caller's list must be for that. -/

namespace ShadowLend

open Outcome Devnet

/-- The two totals are exact sums as long as the collateral cannot reach the
ceiling, which ten thousand positions are too few to do. -/
theorem sums_le_of_healthy {log : List Contribution} {totals : Totals}
    (summed : accumulateAll log .zero = .ok totals)
    (healthy : totals.debt.val ≤ totals.collatAtLtv.val) :
    min (log.map Contribution.debt).sum (2 ^ 128 - 1) ≤
        min (log.map Contribution.collateral).sum (2 ^ 128 - 1) ∧
      (log.length ≤ 10000 →
        (log.map Contribution.debt).sum ≤ (log.map Contribution.collateral).sum) := by
  rcases accumulateAll_zero summed with ⟨collateral, debt⟩
  rw [collateral, debt] at healthy
  refine ⟨healthy, ?_⟩
  intro few
  have each : ∀ value ∈ log.map Contribution.collateral, value ≤ (2 ^ 128 - 1) / 10000 := by
    intro value member
    rcases List.mem_map.mp member with ⟨e, _, rfl⟩
    have bound := collateralValue_le e.supplied e.price e.decimals e.maxLtvBps
    exact (Nat.le_div_iff_mul_le (by decide)).mpr bound
  have below := List.sum_le_card_nsmul _ _ each
  rw [List.length_map, smul_eq_mul] at below
  have ceiling := below.trans (Nat.mul_le_mul_right _ few)
  omega

theorem sums_lt_of_unhealthy {log : List Contribution} {totals : Totals}
    (summed : accumulateAll log .zero = .ok totals)
    (unhealthy : totals.collatAtLtv.val < totals.debt.val) :
    (log.map Contribution.collateral).sum < (log.map Contribution.debt).sum := by
  rcases accumulateAll_zero summed with ⟨collateral, debt⟩
  omega

/-- What the list an owner passes must be for its check to cover every debt. -/
structure ListsDebts (s : State) (user mint : Pubkey) (remaining : List Pubkey) : Prop where
  complete : ∀ key position, s.positions.lookup key = some position → key.1 = user →
    key.2 ≠ mint → position.borrowed.val ≠ 0 →
    .position key.1 key.2 ∈ listedPositions remaining
  once : ∀ key position, s.positions.lookup key = some position → key.1 = user →
    key.2 ≠ mint → position.supplied.val ≠ 0 →
    (listedPositions remaining).count (.position key.1 key.2) ≤ 1
  current : ∀ key position, s.positions.lookup key = some position → key.1 = user →
    key.2 ≠ mint → (s.debtNow key position).val ≤ position.borrowed.val

set_option synthInstance.maxSize 1000 in
instance (s : State) (user mint : Pubkey) (remaining : List Pubkey) :
    Decidable (ListsDebts s user mint remaining) :=
  decidable_of_iff (_ ∧ _ ∧ _)
    ⟨fun ⟨complete, once, current⟩ => ⟨complete, once, current⟩,
      fun ⟨complete, once, current⟩ => ⟨complete, once, current⟩⟩

/-- A user's collateral covers the user's debt, as far as 128 bits tell, and with
less than 20000 accounts in the list they tell all. -/
structure Covers (s : State) (prices : FeedId → Price) (user : Pubkey) (remaining : List Pubkey) :
    Prop where
  clamped : min (s.userDebt prices user) (2 ^ 128 - 1) ≤
    min (s.userCollateral prices user) (2 ^ 128 - 1)
  exact : remaining.length < 20000 → s.userDebt prices user ≤ s.userCollateral prices user

section Owners

variable {rt : Runtime} {s s' : State} {user : Signer} {mint : Pubkey} {remaining : List Pubkey}
variable {log : List Contribution}

theorem OwnerCheck.lookup_other (check : OwnerCheck rt s user mint remaining log s')
    {other : Pubkey} (distinct : other ≠ mint) :
    s'.positions.lookup (user.pubkey, other) = s.positions.lookup (user.pubkey, other) := by
  rw [check.positions, Finmap.lookup_insert_of_ne _ (by simpa using distinct)]

theorem OwnerCheck.debtNow_other (check : OwnerCheck rt s user mint remaining log s')
    {owner other : Pubkey} (distinct : other ≠ mint) (position : Position) :
    s'.debtNow (owner, other) position = s.debtNow (owner, other) position := by
  simp only [State.debtNow, check.clock, check.markets, Finmap.lookup_insert_of_ne _ distinct]

theorem OwnerCheck.debtNow_main (check : OwnerCheck rt s user mint remaining log s') :
    s'.debtNow (user.pubkey, mint) (check.position.rebalance check.balances) =
      check.balances.borrowed := by
  rcases check.accrued.ofMarket with ⟨stored, _, accrued⟩
  have current : s.clock.slot.val ≤ (check.market.rebalance check.balances).lastUpdateSlot.val := by
    have := accrueMarket_slot_le stored s.clock
    rw [← accrued] at this
    exact this
  have restated := check.accrued.restated
  rw [State.debtNow, check.clock, check.markets, Finmap.lookup_insert]
  simp only [accrueMarket_current _ _ current]
  exact accruePosition_fresh _ _ (congrArg Fin.val restated)

theorem OwnerCheck.length_le (check : OwnerCheck rt s user mint remaining log s')
    (few : remaining.length < 20000) : log.length ≤ 10000 := by
  have length := listed_length check.walked
  rw [check.log_eq, List.length_cons]
  omega

theorem OwnerCheck.lookup_main (check : OwnerCheck rt s user mint remaining log s') :
    s'.positions.lookup (user.pubkey, mint) =
      some (check.position.rebalance check.balances) := by
  rw [check.positions, Finmap.lookup_insert]

theorem OwnerCheck.feed_main (check : OwnerCheck rt s user mint remaining log s')
    (linked' : Linked rt s') : check.position.feedId = check.market.feedId := by
  obtain ⟨_, opening, present, shape⟩ :=
    linked'.position _ _ _ (positionTerms_of_lookup check.lookup_main)
  have stored : s'.marketTerms mint = some (check.market.rebalance check.balances).terms :=
    marketTerms_of_lookup (by rw [check.markets, Finmap.lookup_insert])
  rw [stored, Option.some.injEq] at present
  rw [← present] at shape
  exact congrArg PositionTerms.feedId shape

/-- Every entry of the list is a position the instruction leaves in the store,
with the amounts it leaves there. -/
theorem OwnerCheck.entry (check : OwnerCheck rt s user mint remaining log s')
    (linked : Linked rt s) (linked' : Linked rt s') {e : Contribution} (member : e ∈ log) :
    ∃ other position price, e.account = .position user.pubkey other ∧
      s'.positions.lookup (user.pubkey, other) = some position ∧
      e = position.contribution (.position user.pubkey other) price position.feedId := by
  rw [check.log_eq, List.mem_cons] at member
  rcases member with rfl | member
  · refine ⟨mint, _, check.price, rfl, check.lookup_main, ?_⟩
    rw [← check.feed_main linked']
    rfl
  · obtain ⟨unskipped, _, other, position, price, named, found, shape⟩ :=
      listed_stored linked check.walked member
    have distinct : other ≠ mint := by
      rintro rfl
      simp [named] at unskipped
    exact ⟨other, position, price, named, (check.lookup_other distinct).trans found, shape⟩

theorem OwnerCheck.userDebt_le (check : OwnerCheck rt s user mint remaining log s')
    (linked : Linked rt s) (linked' : Linked rt s') {prices : FeedId → Price}
    (priced : ∀ e ∈ log, e.price = prices e.feedId)
    (lists : ListsDebts s user.pubkey mint remaining) :
    s'.userDebt prices user.pubkey ≤ (log.map Contribution.debt).sum := by
  apply total_le_of_listed
  · intro e member other position named found
    obtain ⟨other', position', price, named', found', shape⟩ :=
      check.entry linked linked' member
    obtain rfl : other = other' := by simpa [named] using named'
    rcases Table.lookup_unique found found' with rfl
    have quoted := priced e member
    rw [shape] at quoted ⊢
    change price = prices position.feedId at quoted
    subst price
    apply usdValue_mono
    by_cases here : other = mint
    · subst other
      rw [check.lookup_main, Option.some.injEq] at found
      subst position
      rw [check.debtNow_main]
      exact le_rfl
    · rw [check.debtNow_other here]
      exact lists.current (_, other) position ((check.lookup_other here).symm.trans found) rfl here
  · intro other position found nonzero
    by_cases here : other = mint
    · subst other
      exact ⟨_, by rw [check.log_eq]; exact List.mem_cons_self, rfl⟩
    · have stored := (check.lookup_other here).symm.trans found
      have owes : position.borrowed.val ≠ 0 := by
        intro nothing
        have current := lists.current (_, other) position stored rfl here
        rw [check.debtNow_other here] at nonzero
        exact nonzero (usdValue_zero _ _ (by omega))
      obtain ⟨e, member, named⟩ := listed_counted check.walked stored
        (fun empty => owes empty.2) (lists.complete (_, other) position stored rfl here owes)
        (by simpa using here)
      exact ⟨e, by rw [check.log_eq]; exact List.mem_cons_of_mem _ member, named⟩

theorem OwnerCheck.le_userCollateral_of_once
    (check : OwnerCheck rt s user mint remaining log s')
    (linked : Linked rt s) (linked' : Linked rt s') {prices : FeedId → Price}
    (priced : ∀ e ∈ log, e.price = prices e.feedId)
    (once : ∀ other position, s.positions.lookup (user.pubkey, other) = some position →
      other ≠ mint → position.supplied.val ≠ 0 →
      (listedPositions remaining).count (.position user.pubkey other) ≤ 1) :
    (log.map Contribution.collateral).sum ≤ s'.userCollateral prices user.pubkey := by
  apply le_total_of_once
  · intro e member
    rcases check.entry linked linked' member with ⟨other, position, price, named, found, shape⟩
    have quoted := priced e member
    rw [shape] at quoted
    change price = prices position.feedId at quoted
    refine ⟨other, position, named, found, ?_⟩
    rw [shape, quoted]
    exact le_rfl
  · rw [check.log_eq, List.pairwise_cons]
    constructor
    · intro e member _ _ same
      rcases listed_stored linked check.walked member with ⟨unskipped, _⟩
      rw [← same] at unskipped
      simp [Position.contribution] at unskipped
    · apply listed_once check.walked
      intro e member worth
      obtain ⟨unskipped, _, other, position, price, named, found, shape⟩ :=
        listed_stored linked check.walked member
      have distinct : other ≠ mint := by
        rintro rfl
        simp [named] at unskipped
      rw [named]
      apply once other position found distinct
      intro nothing
      rw [shape] at worth
      exact worth (collateralValue_zero _ _ _ nothing)

theorem OwnerCheck.le_userCollateral (check : OwnerCheck rt s user mint remaining log s')
    (linked : Linked rt s) (linked' : Linked rt s') {prices : FeedId → Price}
    (priced : ∀ e ∈ log, e.price = prices e.feedId)
    (lists : ListsDebts s user.pubkey mint remaining) :
    (log.map Contribution.collateral).sum ≤ s'.userCollateral prices user.pubkey :=
  check.le_userCollateral_of_once linked linked' priced fun other position found =>
    lists.once (user.pubkey, other) position found rfl

/-- A borrow or a withdrawal leaves its user covered when the list it was given
reaches every other debt, repeats no other collateral and is not behind on
interest. -/
theorem owner_covered (reached : Reachable rt s) {a : Action} {kind : MarketActionKind}
    (acts : a.touch = some (kind, user, mint)) (checked : kind = .withdraw ∨ kind = .borrow)
    (step : Step rt s a s') (lists : ListsDebts s user.pubkey mint a.remaining) :
    ∃ log, a.counted rt s = .ok log ∧
      ∀ prices : FeedId → Price, (∀ e ∈ log, e.price = prices e.feedId) →
        Covers s' prices user.pubkey a.remaining := by
  rcases owner_check acts checked step with ⟨log, counted, ⟨check⟩⟩
  refine ⟨log, counted, ?_⟩
  intro prices priced
  have linked := Reachable.linked reached
  have linked' := linked.step step
  have debt := check.userDebt_le linked linked' priced lists
  have collateral := check.le_userCollateral linked linked' priced lists
  rcases sums_le_of_healthy check.summed check.healthy with ⟨clamped, exact_sums⟩
  constructor
  · calc
      min (s'.userDebt prices user.pubkey) (2 ^ 128 - 1)
        ≤ min (log.map Contribution.debt).sum (2 ^ 128 - 1) := min_le_min_right _ debt
      _ ≤ min (log.map Contribution.collateral).sum (2 ^ 128 - 1) := clamped
      _ ≤ min (s'.userCollateral prices user.pubkey) (2 ^ 128 - 1) :=
        min_le_min_right _ collateral
  · intro few
    calc
      s'.userDebt prices user.pubkey ≤ (log.map Contribution.debt).sum := debt
      _ ≤ (log.map Contribution.collateral).sum := exact_sums (check.length_le few)
      _ ≤ s'.userCollateral prices user.pubkey := collateral

end Owners

def oneLoan (amount : U64) : State :=
  ledger (indebted amount ++ openPosition alice btc btcPrice)

def secondLoan (remaining : List Pubkey) (amount : U64) : Action :=
  .borrow alice btc.pubkey btcPrice remaining amount

def bothListed : List Pubkey := listed alice sol solPrice ++ listed alice usdc usdcPrice

theorem owner_covered_listed :
    ∃ s', Step devnet (oneLoan 4000000000000) (secondLoan bothListed 50000000) s' ∧
      s'.userDebt (quoted 10000000000) alice.pubkey = 650000000000 ∧
      ∃ log, (secondLoan bothListed 50000000).counted devnet (oneLoan 4000000000000) = .ok log ∧
        ∀ prices : FeedId → Price, (∀ e ∈ log, e.price = prices e.feedId) →
          Covers s' prices alice.pubkey bothListed := by
  have ran : ∃ s', Step devnet (oneLoan 4000000000000) (secondLoan bothListed 50000000) s' ∧
      s'.userDebt (quoted 10000000000) alice.pubkey = 650000000000 := ok_where (by decide +kernel)
  rcases ran with ⟨s', ran, owes⟩
  exact ⟨s', ran, owes,
    owner_covered (ledger_reachable _) rfl (Or.inr rfl) ran (by decide +kernel)⟩

/-- A second loan with the position of the first one left out. -/
theorem owner_uncovered_unlisted :
    ∃ log s', Reachable devnet (oneLoan 8000000000000) ∧
      Step devnet (oneLoan 8000000000000) (secondLoan (listed alice sol solPrice) 100000000) s' ∧
      (secondLoan (listed alice sol solPrice) 100000000).counted devnet
        (oneLoan 8000000000000) = .ok log ∧
      (∀ e ∈ log, e.price = quoted 10000000000 e.feedId) ∧
      s'.userCollateral (quoted 10000000000) alice.pubkey = 800000000000 ∧
      s'.userDebt (quoted 10000000000) alice.pubkey = 1300000000000 := by
  have counted : ∃ log, (secondLoan (listed alice sol solPrice) 100000000).counted devnet
      (oneLoan 8000000000000) = .ok log ∧
      ∀ e ∈ log, e.price = quoted 10000000000 e.feedId := ok_where (by decide +kernel)
  have ran : ∃ s', Step devnet (oneLoan 8000000000000)
      (secondLoan (listed alice sol solPrice) 100000000) s' ∧
      s'.userCollateral (quoted 10000000000) alice.pubkey = 800000000000 ∧
      s'.userDebt (quoted 10000000000) alice.pubkey = 1300000000000 := ok_where (by decide +kernel)
  rcases counted with ⟨log, counted, priced⟩
  rcases ran with ⟨s', ran, sums⟩
  exact ⟨log, s', ledger_reachable _, ran, counted, priced, sums⟩

/-- What the list a liquidator passes must be for its check to see everything the
borrower holds and nothing twice. -/
structure ListsCollateral (s : State) (accounts : LiquidateAccounts) (remaining : List Pubkey) :
    Prop where
  distinct : accounts.debtMint ≠ accounts.collateralMint
  complete : ∀ key position, s.positions.lookup key = some position → key.1 = accounts.borrower →
    key.2 ≠ accounts.debtMint → key.2 ≠ accounts.collateralMint → position.supplied.val ≠ 0 →
    .position key.1 key.2 ∈ listedPositions remaining
  once : ∀ key position, s.positions.lookup key = some position → key.1 = accounts.borrower →
    key.2 ≠ accounts.debtMint → key.2 ≠ accounts.collateralMint → position.borrowed.val ≠ 0 →
    (listedPositions remaining).count (.position key.1 key.2) ≤ 1
  current : ∀ key position, s.positions.lookup key = some position → key.1 = accounts.borrower →
    key.2 ≠ accounts.debtMint → key.2 ≠ accounts.collateralMint →
    .position key.1 key.2 ∈ listedPositions remaining →
    position.borrowed.val ≤ (s.debtNow key position).val

set_option synthInstance.maxSize 1000 in
instance (s : State) (accounts : LiquidateAccounts) (remaining : List Pubkey) :
    Decidable (ListsCollateral s accounts remaining) :=
  decidable_of_iff (_ ∧ _ ∧ _ ∧ _)
    ⟨fun ⟨distinct, complete, once, current⟩ => ⟨distinct, complete, once, current⟩,
      fun ⟨distinct, complete, once, current⟩ => ⟨distinct, complete, once, current⟩⟩

section Liquidations

variable {rt : Runtime} {s s' : State} {accounts : LiquidateAccounts}
variable {remaining : List Pubkey} {repayAmount : U64}

/-- An entry of the list which stands for a stored position of the user: the same
collateral, and no more debt than the position has by now. -/
structure StandsFor (s : State) (user mint : Pubkey) (e : Contribution) (position : Position) :
    Prop where
  named : e.account = .position user mint
  stored : s.positions.lookup (user, mint) = some position
  feed : e.feedId = position.feedId
  debt : e.debt ≤ usdValue (s.debtNow (user, mint) position) e.price position.decimals
  collateral : e.collateral =
    collateralValue position.supplied e.price position.decimals position.maxLtvBps

theorem standsFor_of_accrued (linked : Linked rt s) {user mint : Pubkey} {market stored : Market}
    {position : Position} (found : s.markets.lookup mint = some stored)
    (accrued : market = accrueMarket stored s.clock)
    (held : s.positions.lookup (user, mint) = some position) (price : Price) :
    StandsFor s user mint ((accruePosition position market).contribution (.position user mint)
      price market.feedId) position := by
  refine ⟨rfl, held, ?_, ?_, ?_⟩
  · rcases linked.position _ _ _ (positionTerms_of_lookup held) with ⟨_, opening, present, shape⟩
    rw [marketTerms_of_lookup found, Option.some.injEq] at present
    rw [← present] at shape
    have feed : position.feedId = stored.feedId := congrArg PositionTerms.feedId shape
    rw [feed, accrued]
    exact accrueMarket_feedId stored s.clock
  · simp only [State.debtNow, found, accrued, Contribution.debt, Position.contribution,
      accruePosition_decimals, le_refl]
  · simp only [Contribution.collateral, Position.contribution, accruePosition_supplied,
      accruePosition_decimals, accruePosition_maxLtvBps]

variable (run : LiquidateRun rt s accounts remaining repayAmount s')
include run

theorem LiquidateRun.entry (linked : Linked rt s) (lists : ListsCollateral s accounts remaining)
    {e : Contribution} (member : e ∈ run.entries) :
    ∃ mint position, StandsFor s accounts.borrower mint e position := by
  have loaded := Liquidate.load_ok run.loaded
  rw [LiquidateRun.entries, List.mem_cons, List.mem_cons] at member
  rcases member with rfl | rfl | member
  · rw [run.accruedDebtPosition]
    exact ⟨_, _, standsFor_of_accrued linked loaded.debtMarket run.accruedDebtMarket
      loaded.debtPosition _⟩
  · rw [run.accruedCollateralPosition]
    exact ⟨_, _, standsFor_of_accrued linked loaded.collateralMarket run.accruedCollateralMarket
      loaded.collateralPosition _⟩
  · obtain ⟨unskipped, present, mint, position, price, named, stored, rfl⟩ :=
      listed_stored linked run.counted member
    simp only [LiquidateAccounts.skipKeys, Position.contribution, List.any_cons, List.any_nil,
      Pubkey.position.injEq, true_and, Bool.or_false, Bool.or_eq_false_iff,
      decide_eq_false_iff_not] at unskipped
    exact ⟨mint, position, rfl, stored, rfl,
      usdValue_mono _ _ (lists.current (_, mint) position stored rfl (Ne.symm unskipped.1)
        (Ne.symm unskipped.2) present), rfl⟩

theorem LiquidateRun.userCollateral_le (linked : Linked rt s) {prices : FeedId → Price}
    (priced : ∀ e ∈ run.entries, e.price = prices e.feedId)
    (lists : ListsCollateral s accounts remaining) :
    s.userCollateral prices accounts.borrower ≤ (run.entries.map Contribution.collateral).sum := by
  apply total_le_of_listed
  · intro e member mint position named found
    rcases run.entry linked lists member with ⟨mint', position', stands⟩
    obtain rfl : mint = mint' := by simpa [named] using stands.named
    rcases Table.lookup_unique found stands.stored with rfl
    rw [stands.collateral, priced e member, stands.feed]
  · intro mint position found nonzero
    by_cases atDebt : mint = accounts.debtMint
    · exact ⟨_, List.mem_cons_self, by rw [atDebt]; rfl⟩
    · by_cases atCollateral : mint = accounts.collateralMint
      · exact ⟨_, List.mem_cons_of_mem _ List.mem_cons_self, by rw [atCollateral]; rfl⟩
      · have supplies : position.supplied.val ≠ 0 :=
          fun nothing => nonzero (collateralValue_zero _ _ _ nothing)
        obtain ⟨e, member, named⟩ := listed_counted run.counted found
          (fun empty => supplies empty.1)
          (lists.complete (_, mint) position found rfl atDebt atCollateral supplies)
          (by simp [LiquidateAccounts.skipKeys, Ne.symm atDebt, Ne.symm atCollateral])
        exact ⟨e, List.mem_cons_of_mem _ (List.mem_cons_of_mem _ member), named⟩

theorem LiquidateRun.le_userDebt (linked : Linked rt s) {prices : FeedId → Price}
    (priced : ∀ e ∈ run.entries, e.price = prices e.feedId)
    (lists : ListsCollateral s accounts remaining) :
    (run.entries.map Contribution.debt).sum ≤ s.userDebt prices accounts.borrower := by
  apply le_total_of_once
  · intro e member
    rcases run.entry linked lists member with ⟨mint, position, stands⟩
    refine ⟨mint, position, stands.named, stands.stored, ?_⟩
    have bound := stands.debt
    rwa [priced e member, stands.feed] at bound
  · have apart : ∀ e ∈ run.listed, e.account ∉ accounts.skipKeys := by
      intro e member listed
      rcases listed_stored linked run.counted member with ⟨unskipped, _⟩
      rw [List.any_eq_false] at unskipped
      exact unskipped _ listed (by simp)
    rw [LiquidateRun.entries, List.pairwise_cons, List.pairwise_cons]
    refine ⟨?_, ?_, ?_⟩
    · intro e member _ _ same
      rcases List.mem_cons.mp member with rfl | member
      · exact lists.distinct (by simpa [Position.contribution] using same)
      · exact apart e member (by rw [← same]; exact List.mem_cons_self)
    · intro e member _ _ same
      exact apart e member (by rw [← same]; exact List.mem_cons_of_mem _ List.mem_cons_self)
    · apply listed_once run.counted
      intro e member worth
      obtain ⟨_, _, mint, position, price, named, found, rfl⟩ :=
        listed_stored linked run.counted member
      have outside := apart _ member
      simp only [LiquidateAccounts.skipKeys, named, List.mem_cons, Pubkey.position.injEq,
        true_and, List.not_mem_nil, or_false, not_or] at outside
      rw [named]
      apply lists.once (_, mint) position found rfl outside.1 outside.2
      intro nothing
      exact worth (usdValue_zero _ _ nothing)

omit run in
/-- A liquidated borrower really was short when the list the liquidator passed
reaches all other collateral, repeats no other debt and is not ahead on interest. -/
theorem liquidated_short (reached : Reachable rt s)
    (ran : liquidate rt s accounts remaining repayAmount = .ok s')
    (lists : ListsCollateral s accounts remaining) :
    ∃ log, (Action.liquidate accounts remaining repayAmount).counted rt s = .ok log ∧
      ∀ prices : FeedId → Price, (∀ e ∈ log, e.price = prices e.feedId) →
        s.userCollateral prices accounts.borrower < s.userDebt prices accounts.borrower := by
  rcases liquidate_ok ran with ⟨run⟩
  refine ⟨run.entries, run.log, ?_⟩
  intro prices priced
  have linked := Reachable.linked reached
  calc
    s.userCollateral prices accounts.borrower
      ≤ (run.entries.map Contribution.collateral).sum :=
        run.userCollateral_le linked priced lists
    _ < (run.entries.map Contribution.debt).sum := sums_lt_of_unhealthy run.summed run.unhealthy
    _ ≤ s.userDebt prices accounts.borrower := run.le_userDebt linked priced lists

end Liquidations

def diversified (solUsd : Int64) : State :=
  ledger (indebted 8000000000000 ++ [.claimFaucet alice btc.pubkey,
    .supply alice btc.pubkey 100000000, reach 100 solUsd])

def seizeSol (remaining : List Pubkey) : Action :=
  .liquidate (bobSeizes sol solPrice) remaining 1000000000000

theorem liquidated_short_listed :
    ∃ s', Step devnet (diversified 5000000000) (seizeSol (listed alice btc btcPrice)) s' ∧
      ∃ log, (seizeSol (listed alice btc btcPrice)).counted devnet (diversified 5000000000) =
          .ok log ∧
        ∀ prices : FeedId → Price, (∀ e ∈ log, e.price = prices e.feedId) →
          (diversified 5000000000).userCollateral prices alice.pubkey <
            (diversified 5000000000).userDebt prices alice.pubkey := by
  have ran : ∃ s', Step devnet (diversified 5000000000)
      (seizeSol (listed alice btc btcPrice)) s' ∧
      s'.userDebt (quoted 5000000000) alice.pubkey = 700000000000 := ok_where (by decide +kernel)
  rcases ran with ⟨s', ran, _⟩
  exact ⟨s', ran, liquidated_short (ledger_reachable _) ran (by decide +kernel)⟩

/-- The BTC that keeps Alice healthy is not listed, and her SOL is seized. -/
theorem healthy_liquidated_unlisted :
    ∃ log s', Reachable devnet (diversified 9900000000) ∧
      Step devnet (diversified 9900000000) (seizeSol []) s' ∧
      (seizeSol []).counted devnet (diversified 9900000000) = .ok log ∧
      (∀ e ∈ log, e.price = quoted 9900000000 e.feedId) ∧
      (diversified 9900000000).userCollateral (quoted 9900000000) alice.pubkey =
        1167000000000 ∧
      (diversified 9900000000).userDebt (quoted 9900000000) alice.pubkey = 800000000000 := by
  have counted : ∃ log, (seizeSol []).counted devnet (diversified 9900000000) = .ok log ∧
      ∀ e ∈ log, e.price = quoted 9900000000 e.feedId := ok_where (by decide +kernel)
  have ran : ∃ s', Step devnet (diversified 9900000000) (seizeSol []) s' ∧
      (diversified 9900000000).userCollateral (quoted 9900000000) alice.pubkey =
        1167000000000 ∧
      (diversified 9900000000).userDebt (quoted 9900000000) alice.pubkey = 800000000000 :=
    ok_where (by decide +kernel)
  rcases counted with ⟨log, counted, priced⟩
  rcases ran with ⟨s', ran, sums⟩
  exact ⟨log, s', ledger_reachable _, ran, counted, priced, sums⟩

end ShadowLend
