import ShadowLend.Holdings
import ShadowLend.Relief

/-! A draw on a vault in two parts. What the first part writes is all the second
finds changed, so taking an amount at once or in two instructions of one slot is
the same draw. -/

namespace ShadowLend

open Outcome Devnet

section Transfers

variable {tokens after : Tokens} {source destination authority : Pubkey} {amount : U64}

theorem transferTokens_ok (distinct : source ≠ destination) :
    transferTokens tokens source destination authority amount = .ok after ↔
      ∃ (from_ to_ : TokenAccount) (debited credited : U64),
        tokens.lookup source = some from_ ∧ tokens.lookup destination = some to_ ∧
        from_.mint = to_.mint ∧ from_.owner = authority ∧
        debited.val + amount.val = from_.amount.val ∧
        credited.val = to_.amount.val + amount.val ∧
        after = (tokens.insert source { from_ with amount := debited }).insert destination
          { to_ with amount := credited } := by
  simp only [transferTokens, bind_ok, okOr_ok, require_ok, if_neg distinct, pure_ok,
    Uint.checkedSub_eq_some, Uint.checkedAdd_eq_some]
  constructor
  · intro ran
    rcases ran with ⟨from_, found, to_, reached, _, _, _, mints, _, owned, debited, left, credited,
      grown, same⟩
    exact ⟨from_, to_, debited, credited, found, reached, mints, owned, left, grown, same.symm⟩
  · intro moved
    rcases moved with ⟨from_, to_, debited, credited, found, reached, mints, owned, left, grown,
      same⟩
    exact ⟨from_, found, to_, reached, (), by omega, (), mints, (), owned, debited, left, credited,
      grown, same.symm⟩

theorem insert_pair_twice (distinct : source ≠ destination)
    (first second third fourth : TokenAccount) :
    (((tokens.insert source first).insert destination second).insert source third).insert
        destination fourth =
      (tokens.insert source third).insert destination fourth := by
  rw [Finmap.insert_insert_of_ne (tokens.insert source first) distinct.symm, Finmap.insert_insert,
    Finmap.insert_insert]

theorem transferTokens_split {a b total : U64} (distinct : source ≠ destination)
    (sum : total.val = a.val + b.val) :
    transferTokens tokens source destination authority total = .ok after ↔
      ∃ mid, transferTokens tokens source destination authority a = .ok mid ∧
        transferTokens mid source destination authority b = .ok after := by
  constructor
  · intro ran
    rcases (transferTokens_ok distinct).mp ran with ⟨from_, to_, debited, credited, found, reached,
      mints, owned, left, grown, rfl⟩
    have between : from_.amount.val - a.val < 2 ^ 64 := (Nat.sub_le _ _).trans_lt from_.amount.isLt
    have room : to_.amount.val + a.val < 2 ^ 64 := by
      have := credited.isLt
      omega
    refine ⟨_, (transferTokens_ok distinct).mpr ⟨from_, to_, ⟨_, between⟩, ⟨_, room⟩, found,
      reached, mints, owned, ?_, rfl, rfl⟩, (transferTokens_ok distinct).mpr
        ⟨{ from_ with amount := ⟨_, between⟩ }, { to_ with amount := ⟨_, room⟩ }, debited, credited,
          ?_, Finmap.lookup_insert _, mints, owned, ?_, ?_, ?_⟩⟩
    · show from_.amount.val - a.val + a.val = from_.amount.val
      omega
    · rw [Finmap.lookup_insert_of_ne _ distinct, Finmap.lookup_insert]
    · show debited.val + b.val = from_.amount.val - a.val
      omega
    · show credited.val = to_.amount.val + a.val + b.val
      omega
    · exact (insert_pair_twice distinct _ _ _ _).symm
  · intro ran
    rcases ran with ⟨mid, first, second⟩
    rcases (transferTokens_ok distinct).mp first with ⟨from_, to_, debited, credited, found,
      reached, mints, owned, left, grown, rfl⟩
    rcases (transferTokens_ok distinct).mp second with ⟨from', to', debited', credited', found',
      reached', _, _, left', grown', rfl⟩
    rw [Finmap.lookup_insert_of_ne _ distinct, Finmap.lookup_insert, Option.some.injEq] at found'
    rw [Finmap.lookup_insert, Option.some.injEq] at reached'
    subst found' reached'
    refine (transferTokens_ok distinct).mpr ⟨from_, to_, debited', credited', found, reached,
      mints, owned, ?_, ?_, insert_pair_twice distinct _ _ _ _⟩
    · show debited'.val + total.val = from_.amount.val
      simp only at left'
      omega
    · show credited'.val = to_.amount.val + total.val
      simp only at grown'
      omega

end Transfers

/-- A draw by `withdraw` or `borrow`: what either has checked and what it writes. -/
structure Draw (rt : Runtime) (s : State) (kind : MarketActionKind) (user : Signer)
    (mint priceUpdate : Pubkey) (remaining : List Pubkey) (amount : U64) (s' : State) where
  ctx : ModifyPositionWithPrice
  market : Market
  position : Position
  balances : Balances
  price : Price
  tokens : Tokens
  loaded : ModifyPositionWithPrice.load rt s user mint priceUpdate = .ok ctx
  positive : 0 < amount.val
  accruedMarket : market = accrueMarket ctx.market s.clock
  accruedPosition : position = accruePosition ctx.position market
  books : Books kind amount.val market position ctx.vault.amount.val balances
    (tokens.amountAt (.vault mint))
  priced : rt.getPriceNoOlderThan ctx.priceUpdate s.clock maxPriceAgeSec market.feedId = some price
  health : HealthRun rt s user mint remaining
    ((position.rebalance balances).contribution (.position user.pubkey mint) price market.feedId)
  paid : transferTokens ctx.tokens (.vault mint) (.associatedToken user.pubkey mint)
    (.authority mint) amount = .ok tokens
  result : s' = s.writeBack user.pubkey mint (market.rebalance balances)
    (position.rebalance balances) tokens
    (.marketAction user.pubkey market.mint kind balances.supplied balances.borrowed)

section Draws

variable {rt : Runtime} {s s' : State} {user : Signer} {mint priceUpdate : Pubkey}
variable {remaining : List Pubkey} {amount : U64}

theorem paidOut_vault {ctx : ModifyPositionWithPrice} {tokens : Tokens}
    (loaded : ModifyPositionWithPrice.load rt s user mint priceUpdate = .ok ctx)
    (paid : transferTokens ctx.tokens (.vault mint) (.associatedToken user.pubkey mint)
      (.authority mint) amount = .ok tokens) :
    tokens.amountAt (.vault mint) + amount.val = ctx.vault.amount.val := by
  have stored := ModifyPositionWithPrice.load_ok loaded
  have cash := paidOut_cash stored.ready paid mint
  rw [if_pos rfl] at cash
  rw [cash, State.cash, amountAt_of_lookup stored.vault]

/-- The check of a draw, back as the calls its handler makes. -/
theorem totals_of_healthRun {main : Contribution}
    (health : HealthRun rt s user mint remaining main) :
    ∃ first, main.accumulate .zero = .ok first ∧
      accumulateRemaining rt (remaining.map s.accountInfo) user.pubkey
        (.position user.pubkey mint) s.clock first = .ok health.totals := by
  rcases accumulateAll_cons.mp health.summed with ⟨first, start, rest⟩
  exact ⟨first, start, walkRemaining_ok.mpr ⟨health.listed, health.counted, rest⟩⟩

theorem borrow_draw :
    borrow rt s user mint priceUpdate remaining amount = .ok s' ↔
      Nonempty (Draw rt s .borrow user mint priceUpdate remaining amount s') := by
  constructor
  · intro ran
    rcases borrow_ok ran with ⟨run⟩
    have cash := paidOut_vault run.loaded run.paid
    exact ⟨⟨run.ctx, run.market, run.position,
      ⟨run.position.supplied, run.newBorrowed, run.market.totalSupplied, run.totalBorrowed⟩,
      run.price, run.tokens, run.loaded, run.positive, run.accruedMarket, run.accruedPosition,
      ⟨run.unsupplied, rfl, run.grown, rfl, run.booked, cash⟩, run.priced, run.health, run.paid,
      run.result⟩⟩
  · intro drawn
    rcases drawn with ⟨ctx, _, _, ⟨supplied, borrowed, totalSupplied, totalBorrowed⟩, price, tokens,
      loaded, positive, rfl, rfl, ⟨unsupplied, rfl, grown, rfl, booked, cash⟩, priced, health, paid,
      rfl⟩
    rcases totals_of_healthRun health with ⟨first, start, walked⟩
    simp only [borrow, bind_ok, require_ok, okOr_ok, pure_ok, Uint.checkedAdd_eq_some]
    exact ⟨ctx, loaded, (), positive, (), unsupplied, borrowed, grown, (),
      (Nat.le_add_left _ _).trans_eq cash, price, priced, first, start, health.totals, walked, (),
      health.healthy, tokens, paid, totalBorrowed, booked, rfl⟩

theorem withdraw_draw :
    withdraw rt s user mint priceUpdate remaining amount = .ok s' ↔
      Nonempty (Draw rt s .withdraw user mint priceUpdate remaining amount s') := by
  constructor
  · intro ran
    rcases withdraw_ok ran with ⟨run⟩
    have cash := paidOut_vault run.loaded run.paid
    exact ⟨⟨run.ctx, run.market, run.position,
      ⟨run.newSupplied, run.position.borrowed, run.totalSupplied, run.market.totalBorrowed⟩,
      run.price, run.tokens, run.loaded, run.positive, run.accruedMarket, run.accruedPosition,
      ⟨run.taken, rfl, run.booked, rfl, cash⟩, run.priced, run.health, run.paid, run.result⟩⟩
  · intro drawn
    rcases drawn with ⟨ctx, _, _, ⟨supplied, borrowed, totalSupplied, totalBorrowed⟩, price, tokens,
      loaded, positive, rfl, rfl, ⟨taken, rfl, booked, rfl, _⟩, priced, health, paid, rfl⟩
    rcases totals_of_healthRun health with ⟨first, start, walked⟩
    simp only [withdraw, bind_ok, require_ok, okOr_ok, pure_ok, Uint.checkedSub_eq_some]
    exact ⟨ctx, loaded, (), positive, supplied, taken, price, priced, first, start, health.totals,
      walked, (), health.healthy, tokens, paid, totalSupplied, booked, rfl⟩

end Draws

section Books

variable {kind : MarketActionKind} {a b cash middle cash' : ℕ} {market : Market}
variable {position : Position} {balances mid : Balances}

/-- The books of a sum are the books of its parts, one after the other. -/
theorem Books.split (draws : kind.relieves = false)
    (books : Books kind (a + b) market position cash balances cash') (first : middle + a = cash)
    (second : cash' + b = middle) :
    ∃ mid, Books kind a market position cash mid middle ∧
      Books kind b (market.rebalance mid) (position.rebalance mid) middle balances cash' := by
  cases kind with
  | supply => cases draws
  | repay => cases draws
  | withdraw =>
      rcases books with ⟨taken, owes, booked, lent, _⟩
      have left : balances.supplied.val + b < 2 ^ 64 := by
        have := position.supplied.isLt
        omega
      have kept : balances.totalSupplied.val + b < 2 ^ 64 := by
        have := market.totalSupplied.isLt
        omega
      refine ⟨⟨⟨_, left⟩, position.borrowed, ⟨_, kept⟩, market.totalBorrowed⟩,
        ⟨?_, rfl, ?_, rfl, first⟩, ⟨rfl, owes, rfl, lent, second⟩⟩
      · show balances.supplied.val + b + a = position.supplied.val
        omega
      · show balances.totalSupplied.val + b + a = market.totalSupplied.val
        omega
  | borrow =>
      rcases books with ⟨unsupplied, supplied, owes, held, lent, _⟩
      have debt : position.borrowed.val + a < 2 ^ 64 := by
        have := balances.borrowed.isLt
        omega
      have total : market.totalBorrowed.val + a < 2 ^ 64 := by
        have := balances.totalBorrowed.isLt
        omega
      refine ⟨⟨position.supplied, ⟨_, debt⟩, market.totalSupplied, ⟨_, total⟩⟩,
        ⟨unsupplied, rfl, rfl, rfl, rfl, first⟩, ⟨unsupplied, supplied, ?_, held, ?_, second⟩⟩
      · show balances.borrowed.val = position.borrowed.val + a + b
        omega
      · show balances.totalBorrowed.val = market.totalBorrowed.val + a + b
        omega

theorem Books.join (draws : kind.relieves = false)
    (first : Books kind a market position cash mid middle)
    (second : Books kind b (market.rebalance mid) (position.rebalance mid) middle balances cash') :
    Books kind (a + b) market position cash balances cash' := by
  cases kind with
  | supply => cases draws
  | repay => cases draws
  | withdraw =>
      rcases first with ⟨taken, owes, booked, lent, left⟩
      rcases second with ⟨taken', owes', booked', lent', left'⟩
      simp only [Position.rebalance, Market.rebalance] at taken' owes' booked' lent'
      exact ⟨by omega, owes'.trans owes, by omega, lent'.trans lent, by omega⟩
  | borrow =>
      rcases first with ⟨unsupplied, supplied, owes, held, lent, left⟩
      rcases second with ⟨_, supplied', owes', held', lent', left'⟩
      simp only [Position.rebalance, Market.rebalance] at supplied' owes' held' lent'
      exact ⟨unsupplied, supplied'.trans supplied, by omega, held'.trans held, by omega, by omega⟩

theorem Books.heavier (draws : kind.relieves = false)
    (books : Books kind a market position cash balances cash') :
    balances.supplied.val ≤ position.supplied.val ∧
      position.borrowed.val ≤ balances.borrowed.val := by
  cases kind with
  | supply => cases draws
  | repay => cases draws
  | withdraw =>
      rcases books with ⟨taken, owes, _⟩
      exact ⟨by omega, by rw [owes]⟩
  | borrow =>
      rcases books with ⟨_, supplied, owes, _⟩
      exact ⟨by rw [supplied], by omega⟩

theorem accrueMarket_rebalance (market : Market) (clock : Clock) (b : Balances) :
    accrueMarket ((accrueMarket market clock).rebalance b) clock =
      (accrueMarket market clock).rebalance b :=
  accrueMarket_current _ _ (accrueMarket_slot_le market clock)

theorem accruePosition_rebalance (position : Position) (market : Market) (b b' : Balances) :
    accruePosition ((accruePosition position market).rebalance b) (market.rebalance b') =
      (accruePosition position market).rebalance b := by
  rw [accruePosition_fields, accruePosition_fresh _ _ (by
    simp only [Position.rebalance, Market.rebalance, accruePosition_snapshot])]
  simp [Position.rebalance, Market.rebalance]

end Books

section Frames

/-- What is behind an address is the same, or belongs to another program both times. -/
def AlikeFor (program : ProgramId) (info info' : AccountInfo) : Prop :=
  info' = info ∨ info.owner ≠ program ∧ info'.owner ≠ program

theorem readPair_alike {rt : Runtime} {skip : Pubkey → Bool} {user : Pubkey} {clock : Clock}
    {pair pair' : AccountInfo × AccountInfo} (key : pair'.1.key = pair.1.key)
    (first : skip pair.1.key = false → AlikeFor .shadowLend pair.1 pair'.1)
    (second : AlikeFor .pythReceiver pair.2 pair'.2) :
    readPair rt skip user clock pair' = readPair rt skip user clock pair := by
  unfold readPair
  simp only [key]
  cases skipped : skip pair.1.key with
  | true => rfl
  | false =>
      simp only [Bool.false_eq_true, if_false]
      rcases first skipped with same | ⟨foreign, foreign'⟩
      · rw [same]
        rcases second with same | ⟨foreign, foreign'⟩
        · rw [same]
        · have aborts (e : ProgramError) (f : Unit → Except ProgramError (Option Contribution)) :
              (Except.error e >>= f) = .error e := rfl
          simp only [require, if_neg foreign, if_neg foreign', aborts]
      · simp only [require, if_neg foreign, if_neg foreign']
        rfl

/-- What a draw leaves alone of a ledger: all but one market, one position, and what
the vault and the account of the user hold. -/
structure Redrawn (s s' : State) (user mint : Pubkey) : Prop where
  clock : s'.clock = s.clock
  foreign : s'.foreign = s.foreign
  mints : s'.mints = s.mints
  receipts : s'.receipts = s.receipts
  stats : s'.stats = s.stats
  market : (s'.markets.lookup mint).isSome = (s.markets.lookup mint).isSome
  vault : (s'.tokens.lookup (.vault mint)).isSome = (s.tokens.lookup (.vault mint)).isSome
  markets : ∀ other, other ≠ mint → s'.markets.lookup other = s.markets.lookup other
  positions : ∀ key, key ≠ (user, mint) → s'.positions.lookup key = s.positions.lookup key
  tokens : ∀ key, key ≠ .vault mint → key ≠ .associatedToken user mint →
    s'.tokens.lookup key = s.tokens.lookup key

variable {rt : Runtime} {s s' : State} {user mint : Pubkey}

theorem Redrawn.accountInfo (redrawn : Redrawn s s' user mint) {key : Pubkey}
    (other : key ≠ .position user mint) (program : ProgramId) (system : program ≠ .system)
    (spl : program ≠ .splToken) : AlikeFor program (s.accountInfo key) (s'.accountInfo key) := by
  cases key with
  | default => exact Or.inl rfl
  | authority => exact Or.inl rfl
  | key id =>
      left
      simp only [State.accountInfo, redrawn.mints, redrawn.foreign,
        redrawn.tokens (.key id) (by simp) (by simp)]
  | market kind =>
      left
      simp only [State.accountInfo]
      by_cases here : kind = mint
      · rw [here, redrawn.market]
      · rw [redrawn.markets kind here]
  | vault kind =>
      left
      simp only [State.accountInfo]
      by_cases here : kind = mint
      · rw [here, redrawn.vault]
      · rw [redrawn.tokens (.vault kind) (by simpa using here) (by simp)]
  | claim owner kind =>
      left
      simp only [State.accountInfo, redrawn.receipts]
  | position owner kind =>
      left
      simp only [State.accountInfo]
      rw [redrawn.positions (owner, kind) (by simpa using other)]
  | stats owner =>
      left
      simp only [State.accountInfo, redrawn.stats]
  | associatedToken owner kind =>
      have apart (present : Bool) :
          (if present then ProgramId.splToken else ProgramId.system) ≠ program := by
        cases present with
        | true => exact spl.symm
        | false => exact system.symm
      exact Or.inr ⟨apart _, apart _⟩

theorem Redrawn.readKeys (redrawn : Redrawn s s' user mint) (keys : Pubkey × Pubkey) :
    s'.readKeys rt (fun key => key = .position user mint) user keys =
      s.readKeys rt (fun key => key = .position user mint) user keys := by
  rw [State.readKeys, State.readKeys, redrawn.clock]
  apply readPair_alike
  · simp only [Prod.map, accountInfo_key]
  · intro unskipped
    simp only [Prod.map, accountInfo_key, decide_eq_false_iff_not] at unskipped ⊢
    exact redrawn.accountInfo unskipped _ (by decide) (by decide)
  · by_cases main : keys.2 = .position user mint
    · have mine (t : State) : (t.accountInfo (.position user mint)).owner ≠ .pythReceiver := by
        simp only [State.accountInfo]
        split
        · simp
        · simp
      simp only [Prod.map, main]
      exact Or.inr ⟨mine s, mine s'⟩
    · exact redrawn.accountInfo main _ (by decide) (by decide)

/-- The walk of the second draw counts what that of the first did. -/
theorem Redrawn.contributions (redrawn : Redrawn s s' user mint) (rt : Runtime)
    (remaining : List Pubkey) :
    contributions rt (remaining.map s'.accountInfo) user (fun key => key = .position user mint)
        s'.clock =
      contributions rt (remaining.map s.accountInfo) user (fun key => key = .position user mint)
        s.clock := by
  have reads : (pairs (remaining.map s'.accountInfo)).mapM
        (readPair rt (fun key => key = .position user mint) user s'.clock) =
      (pairs (remaining.map s.accountInfo)).mapM
        (readPair rt (fun key => key = .position user mint) user s.clock) := by
    rw [pairs_map, pairs_map, List.mapM_map, List.mapM_map]
    exact congrArg (fun read => List.mapM read (pairs remaining)) (funext redrawn.readKeys)
  simp only [ShadowLend.contributions, reads, List.length_map]

theorem Redrawn.health (redrawn : Redrawn s s' user mint) {signer : Signer}
    (mine : signer.pubkey = user) {remaining : List Pubkey} {main : Contribution} :
    Nonempty (HealthRun rt s' signer mint remaining main) ↔
      Nonempty (HealthRun rt s signer mint remaining main) := by
  subst mine
  have counted := redrawn.contributions rt remaining
  constructor
  · intro run
    rcases run with ⟨run⟩
    exact ⟨⟨run.listed, run.totals, counted ▸ run.counted, run.summed, run.healthy⟩⟩
  · intro run
    rcases run with ⟨run⟩
    exact ⟨⟨run.listed, run.totals, counted ▸ run.counted, run.summed, run.healthy⟩⟩

theorem Redrawn.loadPriceUpdate (redrawn : Redrawn s s' user mint) {address : Pubkey}
    {update : PriceUpdateV2} (loaded : loadPriceUpdate s address = .ok update) :
    ShadowLend.loadPriceUpdate s' address = .ok update := by
  simp only [ShadowLend.loadPriceUpdate, bind_ok, require_ok, okOr_ok] at loaded ⊢
  rcases loaded with ⟨_, owned, data⟩
  have other : address ≠ .position user mint := by
    intro same
    rw [same] at owned
    simp only [State.accountInfo] at owned
    split at owned
    · cases owned
    · cases owned
  rcases redrawn.accountInfo other .pythReceiver (by decide) (by decide) with same | ⟨foreign, _⟩
  · rw [same]
    exact ⟨(), owned, data⟩
  · exact absurd owned foreign

end Frames

section Twice

variable {rt : Runtime} {s s' : State} {kind : MarketActionKind} {user : Signer}
variable {mint priceUpdate : Pubkey} {remaining : List Pubkey} {amount : U64}

theorem initAssociatedToken_lookup {tokens after : Tokens} {owner key : Pubkey}
    (ran : initAssociatedToken tokens owner mint = .ok after)
    (elsewhere : key ≠ .associatedToken owner mint) : after.lookup key = tokens.lookup key := by
  unfold initAssociatedToken at ran
  split at ran
  · cases ran
    exact Finmap.lookup_insert_of_ne _ elsewhere
  · simp only [bind_ok, require_ok, pure_ok] at ran
    rcases ran with ⟨_, _, _, _, rfl⟩
    rfl

theorem initAssociatedToken_present {tokens : Tokens} {owner : Pubkey}
    (identity : tokens.identityAt (.associatedToken owner mint) = some (mint, owner)) :
    initAssociatedToken tokens owner mint = .ok tokens := by
  rcases lookup_of_identityAt identity with ⟨account, found, mints, owned⟩
  simp only [initAssociatedToken, found, require, mints, owned, if_true]
  rfl

theorem Draw.redrawn (draw : Draw rt s kind user mint priceUpdate remaining amount s') :
    Redrawn s s' user.pubkey mint := by
  have stored := ModifyPositionWithPrice.load_ok draw.loaded
  rcases (transferTokens_ok (by simp)).mp draw.paid with ⟨from_, to_, debited, credited, found,
    reached, _, _, _, _, moved⟩
  rw [draw.result]
  refine ⟨rfl, rfl, rfl, rfl, rfl, ?_, ?_, ?_, ?_, ?_⟩
  · rw [stored.market, State.writeBack, Finmap.lookup_insert]
    rfl
  · rw [stored.vault]
    show (draw.tokens.lookup (.vault mint)).isSome = true
    rw [moved, Finmap.lookup_insert_of_ne _ (by simp), Finmap.lookup_insert]
    rfl
  · intro other distinct
    exact Finmap.lookup_insert_of_ne _ distinct
  · intro key distinct
    exact Finmap.lookup_insert_of_ne _ distinct
  · intro key vault account
    show draw.tokens.lookup key = s.tokens.lookup key
    rw [moved, Finmap.lookup_insert_of_ne _ account, Finmap.lookup_insert_of_ne _ vault]
    exact initAssociatedToken_lookup stored.ready account

theorem Draw.load_again (draw : Draw rt s kind user mint priceUpdate remaining amount s') :
    ∃ vault, vault.amount.val = draw.tokens.amountAt (.vault mint) ∧
      ModifyPositionWithPrice.load rt s' user mint priceUpdate =
        .ok ⟨draw.market.rebalance draw.balances, draw.position.rebalance draw.balances, vault,
          draw.tokens, draw.ctx.priceUpdate⟩ := by
  have stored := ModifyPositionWithPrice.load_ok draw.loaded
  have update := draw.redrawn.loadPriceUpdate stored.priced
  have ready : draw.tokens.identityAt (.associatedToken user.pubkey mint) =
      some (mint, user.pubkey) := by
    rw [transferTokens_identity draw.paid, initAssociatedToken_own stored.ready]
  have banked : draw.tokens.identityAt (.vault mint) = some (draw.ctx.vault.mint,
      draw.ctx.vault.owner) := by
    rw [transferTokens_identity draw.paid, initAssociatedToken_identity stored.ready (by simp),
      identityAt_of_lookup stored.vault]
  rcases lookup_of_identityAt banked with ⟨vault, held, _, _⟩
  refine ⟨vault, (amountAt_of_lookup held).symm, ?_⟩
  have loaded := draw.loaded
  simp only [ModifyPositionWithPrice.load, loadTokenAccount, bind_ok, loadMarket_ok,
    loadPosition_ok, require_ok, okOr_ok, pure_ok] at loaded
  obtain ⟨market, ⟨_, bump⟩, _, named, minted, mints, position, ⟨_, seeds⟩, _, mine, _, _, _,
    authority, _, _, _, _, same⟩ := loaded
  have market' : market = draw.ctx.market := congrArg ModifyPositionWithPrice.market same
  have position' : position = draw.ctx.position := congrArg ModifyPositionWithPrice.position same
  subst market' position'
  have marketWritten : s'.markets.lookup mint = some (draw.market.rebalance draw.balances) :=
    (congrArg (fun t : State => t.markets.lookup mint) draw.result).trans (Finmap.lookup_insert _)
  have positionWritten : s'.positions.lookup (user.pubkey, mint) =
      some (draw.position.rebalance draw.balances) :=
    (congrArg (fun t : State => t.positions.lookup (user.pubkey, mint)) draw.result).trans
      (Finmap.lookup_insert _)
  have tokens : s'.tokens = draw.tokens := congrArg State.tokens draw.result
  simp only [ModifyPositionWithPrice.load, loadTokenAccount, bind_ok, loadMarket_ok,
    loadPosition_ok, require_ok, okOr_ok, pure_ok, tokens, draw.redrawn.mints]
  refine ⟨_, ⟨marketWritten, ?_⟩, (), ?_, minted, mints, _, ⟨positionWritten, ?_⟩, (), ?_, vault,
    held, (), ?_, draw.tokens, initAssociatedToken_present ready, draw.ctx.priceUpdate, update, rfl⟩
  · rw [draw.accruedMarket]
    simpa [Market.rebalance] using bump
  · rw [draw.accruedMarket]
    simpa [Market.rebalance] using named
  · rw [draw.accruedPosition]
    simpa [Position.rebalance] using seeds
  · rw [draw.accruedPosition]
    simpa [Position.rebalance] using mine
  · rw [draw.accruedMarket]
    simpa [Market.rebalance] using authority

/-- A check that passes still passes with more collateral and less debt in its first entry. -/
theorem HealthRun.lighten {main lighter : Contribution}
    (run : HealthRun rt s user mint remaining main) (price : lighter.price = main.price)
    (decimals : lighter.decimals = main.decimals) (ltv : lighter.maxLtvBps = main.maxLtvBps)
    (supplied : main.supplied.val ≤ lighter.supplied.val)
    (borrowed : lighter.borrowed.val ≤ main.borrowed.val) :
    Nonempty (HealthRun rt s user mint remaining lighter) := by
  have converts : ∀ c ∈ lighter :: run.listed, c.price.converts c.decimals := by
    have before := accumulateAll_ok_iff.mp ⟨_, run.summed⟩
    intro c member
    rcases List.mem_cons.mp member with here | listed
    · rw [here, price, decimals]
      exact before main List.mem_cons_self
    · exact before c (List.mem_cons_of_mem _ listed)
  rcases accumulateAll_ok_iff.mpr converts with ⟨totals, summed⟩
  have collateral : main.collateral ≤ lighter.collateral := by
    rw [Contribution.collateral, Contribution.collateral, price, decimals, ltv]
    exact collateralValue_mono _ _ _ supplied
  have debt : lighter.debt ≤ main.debt := by
    rw [Contribution.debt, Contribution.debt, price, decimals]
    exact usdValue_mono _ _ borrowed
  have sums := accumulateAll_zero run.summed
  have sums' := accumulateAll_zero summed
  have healthy := run.healthy
  simp only [List.map_cons, List.sum_cons] at sums sums'
  exact ⟨⟨run.listed, totals, run.counted, summed, by omega⟩⟩

theorem writeBack_again {user mint : Pubkey} {market : Market} {position : Position}
    {tokens : Tokens} {event : Event}
    (written : s' = s.writeBack user mint market position tokens event) (market' : Market)
    (position' : Position) (tokens' : Tokens) (event' : Event) :
    s'.writeBack user mint market' position' tokens' event' =
      { s.writeBack user mint market' position' tokens' event' with
        events := s'.events ++ [event'] } := by
  subst written
  simp only [State.writeBack, Finmap.insert_insert]

variable {a b total : U64} {s₁ s₂ : State}

theorem Draw.accrued_again (draw : Draw rt s kind user mint priceUpdate remaining a s₁) :
    accrueMarket (draw.market.rebalance draw.balances) s₁.clock =
        draw.market.rebalance draw.balances ∧
      accruePosition (draw.position.rebalance draw.balances)
          (draw.market.rebalance draw.balances) =
        draw.position.rebalance draw.balances := by
  rw [draw.redrawn.clock, draw.accruedPosition, draw.accruedMarket]
  exact ⟨accrueMarket_rebalance _ _ _, accruePosition_rebalance _ _ _ _⟩

/-- A draw can be followed by another within what it left. -/
theorem Draw.follow (draw : Draw rt s kind user mint priceUpdate remaining a s₁)
    (positive : 0 < b.val) {balances : Balances} {tokens : Tokens}
    (books : Books kind b.val (draw.market.rebalance draw.balances)
      (draw.position.rebalance draw.balances) (draw.tokens.amountAt (.vault mint)) balances
      (tokens.amountAt (.vault mint)))
    (health : HealthRun rt s user mint remaining ((draw.position.rebalance balances).contribution
      (.position user.pubkey mint) draw.price draw.market.feedId))
    (paid : transferTokens draw.tokens (.vault mint) (.associatedToken user.pubkey mint)
      (.authority mint) b = .ok tokens) :
    ∃ s₂, Nonempty (Draw rt s₁ kind user mint priceUpdate remaining b s₂) := by
  rcases draw.load_again with ⟨vault, held, loaded⟩
  rcases draw.accrued_again with ⟨market, position⟩
  rcases (draw.redrawn.health rfl).mpr ⟨health⟩ with ⟨health⟩
  have priced := draw.priced
  rw [← draw.redrawn.clock] at priced
  rw [← held] at books
  exact ⟨_, ⟨⟨_, _, _, balances, draw.price, tokens, loaded, positive, market.symm, position.symm,
    books, priced, health, paid, rfl⟩⟩⟩

theorem Draw.split (draws : kind.relieves = false) (first : 0 < a.val) (second : 0 < b.val)
    (sum : total.val = a.val + b.val)
    (draw : Draw rt s kind user mint priceUpdate remaining total s') :
    ∃ s₁ s₂, Nonempty (Draw rt s kind user mint priceUpdate remaining a s₁) ∧
      Nonempty (Draw rt s₁ kind user mint priceUpdate remaining b s₂) := by
  rcases (transferTokens_split (by simp) sum).mp draw.paid with ⟨tokens, paid, paid'⟩
  have cash := paidOut_vault draw.loaded paid
  have cash' : draw.tokens.amountAt (.vault mint) + b.val = tokens.amountAt (.vault mint) :=
    (transferTokens_moves paid' (by simp)).1
  have books := draw.books
  rw [sum] at books
  rcases books.split draws cash cash' with ⟨mid, books, books'⟩
  have heavier := books'.heavier draws
  have health : Nonempty (HealthRun rt s user mint remaining
      ((draw.position.rebalance mid).contribution (.position user.pubkey mint) draw.price
        draw.market.feedId)) :=
    draw.health.lighten rfl rfl rfl heavier.1 heavier.2
  rcases health with ⟨health⟩
  let part : Draw rt s kind user mint priceUpdate remaining a _ :=
    ⟨draw.ctx, draw.market, draw.position, mid, draw.price, tokens, draw.loaded, first,
      draw.accruedMarket, draw.accruedPosition, books, draw.priced, health, paid, rfl⟩
  rcases part.follow second books' draw.health paid' with ⟨s₂, rest⟩
  exact ⟨_, s₂, ⟨part⟩, rest⟩

theorem Draw.join (draws : kind.relieves = false) (sum : total.val = a.val + b.val)
    (first : Draw rt s kind user mint priceUpdate remaining a s₁)
    (second : Draw rt s₁ kind user mint priceUpdate remaining b s₂) :
    ∃ s', Nonempty (Draw rt s kind user mint priceUpdate remaining total s') ∧
      s₂ = { s' with events := s₂.events } := by
  rcases first.load_again with ⟨vault, held, loaded⟩
  rcases first.accrued_again with ⟨market, position⟩
  rcases second with ⟨ctx, _, _, balances, price, tokens, loaded', positive, rfl, rfl, books, priced,
    health, paid, result⟩
  rw [loaded, Except.ok.injEq] at loaded'
  subst ctx
  simp only [market, position] at books priced health result
  have quoted : price = first.price := by
    have earlier := first.priced
    rw [← first.redrawn.clock] at earlier
    exact Option.some.inj (priced.symm.trans earlier)
  subst price
  rw [held] at books
  have books := first.books.join draws books
  rw [← sum] at books
  rcases (first.redrawn.health rfl).mp ⟨health⟩ with ⟨health⟩
  have paid := (transferTokens_split (by simp) sum).mpr ⟨_, first.paid, paid⟩
  have positive' : 0 < total.val := by omega
  refine ⟨_, ⟨⟨first.ctx, first.market, first.position, balances, first.price, tokens, first.loaded,
    positive', first.accruedMarket, first.accruedPosition, books, first.priced, health, paid,
    rfl⟩⟩, ?_⟩
  rw [result.trans (writeBack_again first.result _ _ _ _)]
  rfl

end Twice

/-- Taking a total against taking its two parts one after the other. -/
def Splits (draw : State → U64 → Except ProgramError State) (s : State) (a b total : U64) : Prop :=
  ((∃ s', draw s total = .ok s') ↔ ∃ s₁ s₂, draw s a = .ok s₁ ∧ draw s₁ b = .ok s₂) ∧
    ∀ s' s₁ s₂, draw s total = .ok s' → draw s a = .ok s₁ → draw s₁ b = .ok s₂ →
      s₂ = { s' with events := s₂.events }

theorem splits_of_draw {rt : Runtime} {s : State} {user : Signer} {mint priceUpdate : Pubkey}
    {remaining : List Pubkey} {a b total : U64} {kind : MarketActionKind}
    {draw : State → U64 → Except ProgramError State}
    (drawn : ∀ t amount t', draw t amount = .ok t' ↔
      Nonempty (Draw rt t kind user mint priceUpdate remaining amount t'))
    (draws : kind.relieves = false) (first : 0 < a.val) (second : 0 < b.val)
    (sum : total.val = a.val + b.val) : Splits draw s a b total := by
  simp only [Splits, drawn]
  refine ⟨⟨?_, ?_⟩, ?_⟩
  · intro whole
    rcases whole with ⟨s', ⟨whole⟩⟩
    exact whole.split draws first second sum
  · intro parts
    rcases parts with ⟨s₁, s₂, ⟨left⟩, ⟨right⟩⟩
    rcases left.join draws sum right with ⟨s', whole, _⟩
    exact ⟨s', whole⟩
  · intro s' s₁ s₂ whole left right
    rcases left with ⟨left⟩
    rcases right with ⟨right⟩
    rcases left.join draws sum right with ⟨s'', whole', same⟩
    have agree : s'' = s' :=
      Except.ok.inj (((drawn s total s'').mpr whole').symm.trans ((drawn s total s').mpr whole))
    rw [← agree]
    exact same

/-- Whether an amount is borrowed or withdrawn at once or in two parts of one slot
changes neither what is allowed nor what it leaves, the log of events apart. -/
theorem draws_split (rt : Runtime) (s : State) (user : Signer) (mint priceUpdate : Pubkey)
    (remaining : List Pubkey) {a b total : U64} (first : 0 < a.val) (second : 0 < b.val)
    (sum : total.val = a.val + b.val) :
    Splits (fun t amount => borrow rt t user mint priceUpdate remaining amount) s a b total ∧
      Splits (fun t amount => withdraw rt t user mint priceUpdate remaining amount) s a b total :=
  ⟨splits_of_draw (fun _ _ _ => borrow_draw) rfl first second sum,
    splits_of_draw (fun _ _ _ => withdraw_draw) rfl first second sum⟩

/-- Alice's 3000 dollars in two loans; her 8000 dollars of credit do not split into 5000
and 4000 either. -/
theorem draws_split_loan :
    (∃ s₁ s₂, borrow devnet (ledger lenders) alice usdc.pubkey usdcPrice
        (listed alice sol solPrice) 1000000000000 = .ok s₁ ∧
      borrow devnet s₁ alice usdc.pubkey usdcPrice (listed alice sol solPrice) 2000000000000 =
        .ok s₂) ∧
      ¬ ∃ s₁ s₂, borrow devnet (ledger lenders) alice usdc.pubkey usdcPrice
          (listed alice sol solPrice) 5000000000000 = .ok s₁ ∧
        borrow devnet s₁ alice usdc.pubkey usdcPrice (listed alice sol solPrice) 4000000000000 =
          .ok s₂ := by
  have lent : ∃ s', borrow devnet (ledger lenders) alice usdc.pubkey usdcPrice
      (listed alice sol solPrice) 3000000000000 = .ok s' ∧ True := ok_where (by decide +kernel)
  have refused : (borrow devnet (ledger lenders) alice usdc.pubkey usdcPrice
      (listed alice sol solPrice) 9000000000000).toOption.isSome = false := by decide +kernel
  have thousand : 0 < (1000000000000 : U64).val := by decide
  have twoThousand : 0 < (2000000000000 : U64).val := by decide
  have fiveThousand : 0 < (5000000000000 : U64).val := by decide
  have fourThousand : 0 < (4000000000000 : U64).val := by decide
  have small : (3000000000000 : U64).val =
      (1000000000000 : U64).val + (2000000000000 : U64).val := by decide
  have large : (9000000000000 : U64).val =
      (5000000000000 : U64).val + (4000000000000 : U64).val := by decide
  have allowed := (draws_split devnet (ledger lenders) alice usdc.pubkey usdcPrice
    (listed alice sol solPrice) thousand twoThousand small).1
  have denied := (draws_split devnet (ledger lenders) alice usdc.pubkey usdcPrice
    (listed alice sol solPrice) fiveThousand fourThousand large).1
  constructor
  · rcases lent with ⟨s', lent, _⟩
    exact allowed.1.mp ⟨s', lent⟩
  · intro parts
    rcases denied.1.mpr parts with ⟨s', lent⟩
    simp only [lent] at refused
    cases refused

end ShadowLend
