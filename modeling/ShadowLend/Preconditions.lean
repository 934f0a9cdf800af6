import ShadowLend.Accounting
import ShadowLend.Agreement
import ShadowLend.Splitting

/-! When an instruction goes through. In a reachable ledger the seeds, bumps, mints
and owners a context checks are right by themselves, and the only checks that can
fail are those a user can answer for. -/

namespace ShadowLend

open Outcome Devnet

/-- The user's associated account is not there yet, or is the user's, of the mint. -/
def WalletUsable (s : State) (user : Signer) (mint : Pubkey) : Prop :=
  ∀ identity, s.tokens.identityAt (.associatedToken user.pubkey mint) = some identity →
    identity = (mint, user.pubkey)

/-- What the user's associated account holds, when it is one the user can pay from. -/
structure Funds (s : State) (user : Signer) (mint : Pubkey) (amount : ℕ) : Prop where
  wallet : s.tokens.identityAt (.associatedToken user.pubkey mint) = some (mint, user.pubkey)
  enough : amount ≤ s.tokens.amountAt (.associatedToken user.pubkey mint)

structure CanSupply (s : State) (user : Signer) (mint : Pubkey) (amount : U64) : Prop where
  positive : 0 < amount.val
  listed : (s.markets.lookup mint).isSome
  funds : Funds s user mint amount.val
  room : s.suppliedIn mint + amount.val < 2 ^ 64

structure CanRepay (s : State) (user : Signer) (mint : Pubkey) (amount : U64) : Prop where
  positive : 0 < amount.val
  owes : 0 < s.owed (user.pubkey, mint)
  funds : Funds s user mint (min amount.val (s.owed (user.pubkey, mint)))

/-- The position with these amounts, at the price its feed has, passes the check. -/
def HealthyAt (rt : Runtime) (s : State) (user : Signer) (mint priceUpdate : Pubkey)
    (remaining : List Pubkey) (supplied borrowed : U64) : Prop :=
  ∃ position price totals, s.positions.lookup (user.pubkey, mint) = some position ∧
    Quotes rt s priceUpdate position.feedId price ∧
    ownerTotals rt s user.pubkey mint
      { position with supplied := supplied, borrowed := borrowed } price remaining = .ok totals ∧
    totals.debt.val ≤ totals.collatAtLtv.val

structure CanWithdraw (rt : Runtime) (s : State) (user : Signer) (mint priceUpdate : Pubkey)
    (remaining : List Pubkey) (amount : U64) : Prop where
  positive : 0 < amount.val
  wallet : WalletUsable s user mint
  liquid : amount.val ≤ s.cash mint
  healthy : ∃ supplied borrowed : U64, supplied.val + amount.val = s.deposited (user.pubkey, mint) ∧
    borrowed.val = s.owed (user.pubkey, mint) ∧
    HealthyAt rt s user mint priceUpdate remaining supplied borrowed

structure CanBorrow (rt : Runtime) (s : State) (user : Signer) (mint priceUpdate : Pubkey)
    (remaining : List Pubkey) (amount : U64) : Prop where
  positive : 0 < amount.val
  wallet : WalletUsable s user mint
  liquid : amount.val ≤ s.cash mint
  room : s.totalBorrowed mint + amount.val < 2 ^ 64
  unsupplied : s.deposited (user.pubkey, mint) = 0
  healthy : ∃ borrowed : U64, borrowed.val = s.owed (user.pubkey, mint) + amount.val ∧
    HealthyAt rt s user mint priceUpdate remaining 0 borrowed

section Contexts

variable {rt : Runtime} {s : State} {user : Signer} {mint priceUpdate : Pubkey}

theorem initAssociatedToken_usable :
    (∃ prepared, initAssociatedToken s.tokens user.pubkey mint = .ok prepared) ↔
      WalletUsable s user mint := by
  unfold initAssociatedToken WalletUsable
  cases found : s.tokens.lookup (.associatedToken user.pubkey mint) with
  | none => simp [Tokens.identityAt, found]
  | some account =>
      simp only [identityAt_of_lookup found, Option.some.injEq, forall_eq', bind_ok, require_ok,
        pure_ok, Prod.mk.injEq]
      constructor
      · rintro ⟨_, _, minted, _, owned, _⟩
        exact ⟨minted, owned⟩
      · rintro ⟨minted, owned⟩
        exact ⟨_, (), minted, (), owned, rfl⟩

theorem wallet_of_funded {prepared : Tokens}
    (ready : initAssociatedToken s.tokens user.pubkey mint = .ok prepared)
    (funded : 0 < s.tokens.amountAt (.associatedToken user.pubkey mint)) :
    s.tokens.identityAt (.associatedToken user.pubkey mint) = some (mint, user.pubkey) := by
  have usable := initAssociatedToken_usable.mp ⟨prepared, ready⟩
  cases found : s.tokens.lookup (.associatedToken user.pubkey mint) with
  | none => simp [Tokens.amountAt, found] at funded
  | some account =>
      have held := identityAt_of_lookup found
      rw [held, usable _ held]

theorem deposited_of_lookup {key : Pubkey × Pubkey} {position : Position}
    (held : s.positions.lookup key = some position) : s.deposited key = position.supplied.val := by
  rw [State.deposited, held]
  rfl

theorem owed_of_lookup {key : Pubkey × Pubkey} {market : Market} {position : Position}
    (found : s.markets.lookup key.2 = some market)
    (held : s.positions.lookup key = some position) :
    s.owed key = (accruePosition position (accrueMarket market s.clock)).borrowed.val := by
  rw [State.owed, held]
  exact congrArg Fin.val (debtNow_of_lookup found position)

/-- The seeds, bumps and accounts a context checks, in a reachable ledger. -/
structure Sound (rt : Runtime) (s : State) (mint : Pubkey) (market : Market) : Prop where
  named : market.mint = mint
  bump : market.bump = rt.findBump (.market mint)
  authority : market.authorityBump = rt.findBump (.authority mint)
  minted : ∃ minted, s.mints.lookup mint = some minted
  banked : ∃ vault, s.tokens.lookup (.vault mint) = some vault

theorem Reachable.sound (reached : Reachable rt s) {market : Market}
    (found : s.markets.lookup mint = some market) : Sound rt s mint market := by
  have terms := marketTerms_of_lookup found
  obtain ⟨named, bump, authority, _⟩ := reached.linked.market mint _ terms
  obtain ⟨minted, mints, _⟩ := reached.mint_decimals terms
  obtain ⟨vault, banked, _⟩ := lookup_of_identityAt (reached.linked.vault_identity found)
  exact ⟨named, bump, authority, ⟨minted, mints⟩, ⟨vault, banked⟩⟩

theorem ModifyPosition.load_iff (reached : Reachable rt s) {ctx : ModifyPosition} :
    ModifyPosition.load rt s user mint = .ok ctx ↔ ModifyPosition.Loaded s user mint ctx := by
  constructor
  · exact ModifyPosition.load_ok
  · rintro ⟨found, named, position, ready⟩
    obtain ⟨_, bump, authority, ⟨minted, mints⟩, ⟨vault, banked⟩⟩ := reached.sound found
    simp only [ModifyPosition.load, loadTokenAccount, bind_ok, loadMarket_ok, require_ok, okOr_ok,
      pure_ok]
    refine ⟨ctx.market, ⟨found, bump⟩, (), named, minted, mints, vault, banked, (), authority,
      ctx.tokens, ready, ?_⟩
    rw [← position]

theorem position_bump (linked : Linked rt s) {owner : Pubkey} {position : Position}
    (held : s.positions.lookup (owner, mint) = some position) :
    position.bump = rt.findBump (.position owner mint) := by
  obtain ⟨_, _, _, shape⟩ := linked.position _ _ _ (positionTerms_of_lookup held)
  exact congrArg PositionTerms.bump shape

theorem ModifyPositionWithPrice.load_iff (reached : Reachable rt s)
    {ctx : ModifyPositionWithPrice} :
    ModifyPositionWithPrice.load rt s user mint priceUpdate = .ok ctx ↔
      ModifyPositionWithPrice.Loaded s user mint priceUpdate ctx := by
  constructor
  · exact ModifyPositionWithPrice.load_ok
  · rintro ⟨found, named, held, mine, banked, ready, priced⟩
    obtain ⟨_, bump, authority, ⟨minted, mints⟩, _⟩ := reached.sound found
    simp only [ModifyPositionWithPrice.load, loadTokenAccount, bind_ok, loadMarket_ok,
      loadPosition_ok, require_ok, okOr_ok, pure_ok]
    exact ⟨ctx.market, ⟨found, bump⟩, (), named, minted, mints, ctx.position,
      ⟨held, position_bump reached.linked held⟩, (), mine, ctx.vault, banked, (), authority,
      ctx.tokens, ready, ctx.priceUpdate, priced, rfl⟩

end Contexts

section PayingIn

variable {rt : Runtime} {s : State} {user : Signer} {mint : Pubkey} {amount : U64}

theorem transfer_spends {tokens after : Tokens} {source destination authority : Pubkey}
    {amount : U64} (distinct : source ≠ destination)
    (ran : transferTokens tokens source destination authority amount = .ok after) :
    amount.val ≤ tokens.amountAt source := by
  rw [← (transferTokens_moves ran distinct).1]
  exact Nat.le_add_left _ _

theorem funds_of_paid {prepared after : Tokens}
    (ready : initAssociatedToken s.tokens user.pubkey mint = .ok prepared)
    (paid : transferTokens prepared (.associatedToken user.pubkey mint) (.vault mint)
      user.pubkey amount = .ok after) (positive : 0 < amount.val) :
    Funds s user mint amount.val := by
  have spent := transfer_spends (by simp) paid
  rw [initAssociatedToken_amountAt ready] at spent
  exact ⟨wallet_of_funded ready (positive.trans_le spent), spent⟩

/-- The vault of a listed market has room for whatever is left in a wallet. -/
theorem Funds.pays (reached : Reachable rt s) (funds : Funds s user mint amount.val)
    {market : Market} (found : s.markets.lookup mint = some market) :
    ∃ after, transferTokens s.tokens (.associatedToken user.pubkey mint) (.vault mint)
      user.pubkey amount = .ok after := by
  have vault := reached.linked.vault_identity found
  have room := reached.amounts_fit funds.wallet vault (by simp)
  have enough := funds.enough
  exact transferTokens_exists funds.wallet vault (by simp) enough (by omega)

theorem deposited_le (s : State) (key : Pubkey × Pubkey) : s.deposited key ≤ s.suppliedIn key.2 := by
  rw [State.deposited]
  cases held : s.positions.lookup key with
  | none => exact Nat.zero_le _
  | some position => exact inMarket_le_total (fun p => p.supplied.val) held

theorem openOrAccrue_supplied (rt : Runtime) (user : Signer) (mint : Pubkey) (market : Market)
    (position : Position) :
    (openOrAccrue rt user mint market position).supplied = position.supplied := by
  unfold openOrAccrue
  split
  · rfl
  · exact accruePosition_supplied _ _

theorem getD_supplied (s : State) (key : Pubkey × Pubkey) :
    ((s.positions.lookup key).getD .zeroed).supplied.val = s.deposited key := by
  rw [State.deposited]
  cases s.positions.lookup key <;> rfl

theorem totalSupplied_of_reachable (reached : Reachable rt s) {market : Market}
    (found : s.markets.lookup mint = some market) :
    market.totalSupplied.val = s.suppliedIn mint := by
  rw [← totalSupplied_of_lookup found]
  exact Reachable.balanced reached mint

theorem supply_needs (reached : Reachable rt s) {s' : State}
    (ran : supply rt s user mint amount = .ok s') : CanSupply s user mint amount := by
  obtain ⟨run⟩ := supply_ok ran
  obtain ⟨found, _, _, ready⟩ := ModifyPosition.load_ok run.loaded
  have booked := run.booked
  rw [run.accruedMarket, accrueMarket_totalSupplied, totalSupplied_of_reachable reached found]
    at booked
  have fits := run.totalSupplied.isLt
  exact ⟨run.positive, by rw [found]; rfl, funds_of_paid ready run.paid run.positive, by omega⟩

theorem supply_exists (reached : Reachable rt s) (can : CanSupply s user mint amount) :
    ∃ s', supply rt s user mint amount = .ok s' := by
  obtain ⟨positive, listed, funds, room⟩ := can
  obtain ⟨market, found⟩ := Option.isSome_iff_exists.mp listed
  obtain ⟨tokens, paid⟩ := funds.pays reached found
  have loaded : ModifyPosition.load rt s user mint =
      .ok ⟨market, (s.positions.lookup (user.pubkey, mint)).getD .zeroed, s.tokens⟩ :=
    (ModifyPosition.load_iff reached).mpr ⟨found, (reached.sound found).named, rfl,
      initAssociatedToken_present funds.wallet⟩
  have mine : s.deposited (user.pubkey, mint) ≤ s.suppliedIn mint := deposited_le s _
  have counter := totalSupplied_of_reachable reached found
  have grown : s.deposited (user.pubkey, mint) + amount.val < 2 ^ 64 := by omega
  have booked : market.totalSupplied.val + amount.val < 2 ^ 64 := by omega
  simp only [supply, bind_ok, require_ok, okOr_ok, pure_ok, Uint.checkedAdd_eq_some,
    openOrAccrue_supplied, accrueMarket_totalSupplied]
  exact ⟨_, _, loaded, (), positive, tokens, paid, ⟨_, grown⟩, by rw [getD_supplied], ⟨_, booked⟩,
    rfl, rfl⟩

/-- A deposit goes through exactly when the market is listed, the user's own wallet
holds the amount, and all deposits together still fit their counter. -/
theorem supply_succeeds_iff (reached : Reachable rt s) :
    (∃ s', supply rt s user mint amount = .ok s') ↔ CanSupply s user mint amount :=
  ⟨fun ⟨_, ran⟩ => supply_needs reached ran, supply_exists reached⟩

theorem repay_needs {s' : State} (ran : repay rt s user mint amount = .ok s') :
    CanRepay s user mint amount := by
  obtain ⟨run⟩ := repay_ok ran
  obtain ⟨found, _, _, ready⟩ := ModifyPosition.load_ok run.loaded
  have capped := run.capped
  have positive := run.positive
  have now := owed_of_lookup found (repay_position_stored run)
  rw [← run.accruedMarket, ← run.accruedPosition] at now
  have funds := funds_of_paid ready run.paid positive
  rw [capped, ← now] at funds
  exact ⟨by omega, by omega, funds⟩

theorem repay_exists (reached : Reachable rt s) (can : CanRepay s user mint amount) :
    ∃ s', repay rt s user mint amount = .ok s' := by
  obtain ⟨positive, owes, funds⟩ := can
  cases held : s.positions.lookup (user.pubkey, mint) with
  | none =>
      rw [State.owed, held] at owes
      exact absurd owes (lt_irrefl 0)
  | some position =>
      obtain ⟨market, found⟩ := position_market reached.linked held
      rw [owed_of_lookup found held] at owes funds
      rw [← Uint.val_least] at funds
      obtain ⟨tokens, paid⟩ := funds.pays reached found
      have loaded : ModifyPosition.load rt s user mint = .ok ⟨market, position, s.tokens⟩ :=
        (ModifyPosition.load_iff reached).mpr ⟨found, (reached.sound found).named,
          by rw [held]; rfl, initAssociatedToken_present funds.wallet⟩
      have pays : 0 < (amount.least
          (accruePosition position (accrueMarket market s.clock)).borrowed).val := by
        rw [Uint.val_least]
        omega
      simp only [repay, bind_ok, require_ok, pure_ok]
      exact ⟨_, _, loaded, (), positive, (), pays, tokens, paid, rfl⟩

/-- A repayment goes through exactly when something is owed by now and the user's own
wallet holds the smaller of the two amounts. -/
theorem repay_succeeds_iff (reached : Reachable rt s) :
    (∃ s', repay rt s user mint amount = .ok s') ↔ CanRepay s user mint amount :=
  ⟨fun ⟨_, ran⟩ => repay_needs ran, repay_exists reached⟩

end PayingIn

theorem supply_succeeds_iff_bob :
    CanSupply (ledger lenders) bob usdc.pubkey 10000000000000 ∧
      ¬ CanSupply (ledger lenders) bob usdc.pubkey 10000000000001 := by
  have supplied : ∃ s', supply devnet (ledger lenders) bob usdc.pubkey 10000000000000 = .ok s' ∧
      s'.suppliedIn usdc.pubkey = 50000000000000 := ok_where (by decide +kernel)
  have refused : ¬ ∃ s', supply devnet (ledger lenders) bob usdc.pubkey 10000000000001 = .ok s' :=
    not_ok_of_refused (by decide +kernel)
  obtain ⟨s', supplied, _⟩ := supplied
  exact ⟨(supply_succeeds_iff (ledger_reachable lenders)).mp ⟨s', supplied⟩,
    fun can => refused ((supply_succeeds_iff (ledger_reachable lenders)).mpr can)⟩

theorem repay_succeeds_iff_alice :
    CanRepay (ledger (indebted 8000000000000)) alice usdc.pubkey 9000000000000 ∧
      ¬ CanRepay (ledger lenders) alice usdc.pubkey 9000000000000 := by
  have repaid : ∃ s', repay devnet (ledger (indebted 8000000000000)) alice usdc.pubkey
      9000000000000 = .ok s' ∧ s'.borrowedIn usdc.pubkey = 0 := ok_where (by decide +kernel)
  have refused : ¬ ∃ s', repay devnet (ledger lenders) alice usdc.pubkey 9000000000000 = .ok s' :=
    not_ok_of_refused (by decide +kernel)
  obtain ⟨s', repaid, _⟩ := repaid
  exact ⟨(repay_succeeds_iff (ledger_reachable _)).mp ⟨s', repaid⟩,
    fun can => refused ((repay_succeeds_iff (ledger_reachable lenders)).mpr can)⟩

section PayingOut

variable {rt : Runtime} {s s' : State} {user : Signer} {mint priceUpdate : Pubkey}
variable {remaining : List Pubkey} {amount : U64} {kind : MarketActionKind}

theorem quotes_iff {address : Pubkey} {feedId : FeedId} {price : Price} :
    Quotes rt s address feedId price ↔ ∃ update, loadPriceUpdate s address = .ok update ∧
      rt.getPriceNoOlderThan update s.clock maxPriceAgeSec feedId = some price := by
  simp only [Quotes, loadPriceUpdate, bind_ok, require_ok, okOr_ok]
  constructor
  · rintro ⟨update, owned, data, priced⟩
    exact ⟨update, ⟨(), owned, data⟩, priced⟩
  · rintro ⟨update, ⟨_, owned, data⟩, priced⟩
    exact ⟨update, owned, data, priced⟩

theorem Draw.healthyAt (draw : Draw rt s kind user mint priceUpdate remaining amount s')
    (linked : Linked rt s) : HealthyAt rt s user mint priceUpdate remaining
      draw.balances.supplied draw.balances.borrowed := by
  have stored := ModifyPositionWithPrice.load_ok draw.loaded
  have priced := draw.priced
  obtain ⟨first, start, walked⟩ := totals_of_healthRun draw.health
  rw [draw.accruedMarket, accrueMarket_feedId,
    ← (stored_terms linked stored.position stored.market).1] at priced
  refine ⟨draw.ctx.position, draw.price, draw.health.totals, stored.position,
    quotes_iff.mpr ⟨_, stored.priced, priced⟩, ?_, draw.health.healthy⟩
  rw [ownerTotals, bind_ok]
  refine ⟨first, ?_, walked⟩
  rw [draw.accruedPosition] at start
  simpa [Contribution.accumulate, Position.contribution, Position.rebalance] using start

theorem draw_exists (reached : Reachable rt s) (positive : 0 < amount.val)
    (wallet : WalletUsable s user mint) (liquid : amount.val ≤ s.cash mint) (balances : Balances)
    {market : Market} {position : Position} (found : s.markets.lookup mint = some market)
    (held : s.positions.lookup (user.pubkey, mint) = some position)
    (healthy : HealthyAt rt s user mint priceUpdate remaining balances.supplied balances.borrowed)
    (books : ∀ cash', cash' + amount.val = s.cash mint →
      Books kind amount.val (accrueMarket market s.clock)
        (accruePosition position (accrueMarket market s.clock)) (s.cash mint) balances cash') :
    ∃ s', Nonempty (Draw rt s kind user mint priceUpdate remaining amount s') := by
  have linked := reached.linked
  obtain ⟨stored, price, totals, held', quotes, passes, healthy⟩ := healthy
  obtain rfl := Table.lookup_unique held held'
  obtain ⟨update, loaded, priced⟩ := quotes_iff.mp quotes
  obtain ⟨prepared, ready⟩ := initAssociatedToken_usable.mpr wallet
  obtain ⟨vault, banked⟩ := (reached.sound found).banked
  have owned := linked.vault_identity found
  have pays : prepared.identityAt (.vault mint) = some (mint, .authority mint) := by
    rw [initAssociatedToken_identity ready (by simp), owned]
  have receives := initAssociatedToken_own ready
  have amounts := initAssociatedToken_amountAt ready
  have room : prepared.amountAt (.associatedToken user.pubkey mint) + amount.val < 2 ^ 64 := by
    rw [amounts]
    by_cases funded : 0 < s.tokens.amountAt (.associatedToken user.pubkey mint)
    · have both := reached.amounts_fit (wallet_of_funded ready funded) owned (by simp)
      rw [State.cash] at liquid
      omega
    · have small := amount.isLt
      omega
  have enough : amount.val ≤ prepared.amountAt (.vault mint) := by
    rw [amounts]
    exact liquid
  obtain ⟨tokens, paid⟩ := transferTokens_exists pays receives (by simp) enough room
  have context : ModifyPositionWithPrice.load rt s user mint priceUpdate =
      .ok ⟨market, position, vault, prepared, update⟩ :=
    (ModifyPositionWithPrice.load_iff reached).mpr ⟨found, (reached.sound found).named, held,
      linked.position_user held, banked, ready, loaded⟩
  have spent := paidOut_vault context paid
  have cash : s.cash mint = vault.amount.val := amountAt_of_lookup banked
  rw [cash] at books
  rw [ownerTotals, bind_ok] at passes
  obtain ⟨first, start, walked⟩ := passes
  have main : ((accruePosition position (accrueMarket market s.clock)).rebalance
      balances |>.contribution (.position user.pubkey mint) price
        (accrueMarket market s.clock).feedId).accumulate .zero = .ok first := by
    simpa [Contribution.accumulate, Position.contribution, Position.rebalance] using start
  obtain ⟨health⟩ := healthRun_of_totals main walked healthy
  rw [(stored_terms linked held found).1, ← accrueMarket_feedId market s.clock] at priced
  exact ⟨_, ⟨⟨_, _, _, balances, price, tokens, context, positive, rfl, rfl, books _ spent, priced,
    health, paid, rfl⟩⟩⟩

theorem Draw.stored_amounts (draw : Draw rt s kind user mint priceUpdate remaining amount s') :
    s.deposited (user.pubkey, mint) = draw.position.supplied.val ∧
      s.owed (user.pubkey, mint) = draw.position.borrowed.val ∧
      WalletUsable s user mint ∧ draw.ctx.vault.amount.val = s.cash mint ∧
      amount.val ≤ s.cash mint := by
  have stored := ModifyPositionWithPrice.load_ok draw.loaded
  have vault : s.cash mint = draw.ctx.vault.amount.val := amountAt_of_lookup stored.vault
  have spent := paidOut_vault draw.loaded draw.paid
  refine ⟨?_, ?_, initAssociatedToken_usable.mp ⟨_, stored.ready⟩, vault.symm, by omega⟩
  · rw [deposited_of_lookup stored.position, draw.accruedPosition, accruePosition_supplied]
  · rw [owed_of_lookup stored.market stored.position, draw.accruedPosition, draw.accruedMarket]

theorem withdraw_needs (linked : Linked rt s)
    (ran : withdraw rt s user mint priceUpdate remaining amount = .ok s') :
    CanWithdraw rt s user mint priceUpdate remaining amount := by
  obtain ⟨draw⟩ := withdraw_draw.mp ran
  obtain ⟨deposited, owed, wallet, _, liquid⟩ := draw.stored_amounts
  obtain ⟨taken, borrowed, _⟩ := draw.books
  have healthy := draw.healthyAt linked
  rw [borrowed] at healthy
  exact ⟨draw.positive, wallet, liquid, draw.balances.supplied, draw.position.borrowed,
    by rw [taken, deposited], owed.symm, healthy⟩

theorem withdraw_exists (reached : Reachable rt s)
    (can : CanWithdraw rt s user mint priceUpdate remaining amount) :
    ∃ s', withdraw rt s user mint priceUpdate remaining amount = .ok s' := by
  obtain ⟨positive, wallet, liquid, supplied, borrowed, taken, owes, healthy⟩ := can
  obtain ⟨position, _, _, held, _⟩ := id healthy
  obtain ⟨market, (found : s.markets.lookup mint = some market)⟩ :=
    position_market reached.linked held
  have counter := totalSupplied_of_reachable reached found
  have mine : s.deposited (user.pubkey, mint) ≤ s.suppliedIn mint := deposited_le s _
  have left : market.totalSupplied.val - amount.val < 2 ^ 64 :=
    (Nat.sub_le _ _).trans_lt market.totalSupplied.isLt
  rw [deposited_of_lookup held] at taken mine
  rw [owed_of_lookup found held] at owes
  have enough : amount.val ≤ market.totalSupplied.val := by omega
  simp only [withdraw_draw]
  refine draw_exists reached positive wallet liquid
    ⟨supplied, borrowed, ⟨_, left⟩, market.totalBorrowed⟩ found held healthy ?_
  intro cash' spent
  refine ⟨?_, ?_, ?_, ?_, spent⟩
  · rw [accruePosition_supplied]
    exact taken
  · exact Fin.ext owes
  · rw [accrueMarket_totalSupplied]
    exact Nat.sub_add_cancel enough
  · rw [accrueMarket_totalBorrowed]

/-- A withdrawal goes through exactly when the user has deposited the amount, the vault
holds it, the user's wallet can take it, and what stays passes the health check. -/
theorem withdraw_succeeds_iff (reached : Reachable rt s) :
    (∃ s', withdraw rt s user mint priceUpdate remaining amount = .ok s') ↔
      CanWithdraw rt s user mint priceUpdate remaining amount :=
  ⟨fun ⟨_, ran⟩ => withdraw_needs reached.linked ran, withdraw_exists reached⟩

theorem borrow_needs (linked : Linked rt s)
    (ran : borrow rt s user mint priceUpdate remaining amount = .ok s') :
    CanBorrow rt s user mint priceUpdate remaining amount := by
  obtain ⟨draw⟩ := borrow_draw.mp ran
  obtain ⟨deposited, owed, wallet, _, liquid⟩ := draw.stored_amounts
  obtain ⟨unsupplied, supplied, grown, _, booked, _⟩ := draw.books
  have stored := ModifyPositionWithPrice.load_ok draw.loaded
  have healthy := draw.healthyAt linked
  have zero : draw.balances.supplied = 0 := Fin.ext ((congrArg Fin.val supplied).trans unsupplied)
  have fits := draw.balances.totalBorrowed.isLt
  rw [booked, draw.accruedMarket, accrueMarket_totalBorrowed,
    ← totalBorrowed_of_lookup stored.market] at fits
  rw [zero] at healthy
  exact ⟨draw.positive, wallet, liquid, fits, deposited.trans unsupplied,
    draw.balances.borrowed, by rw [grown, owed], healthy⟩

theorem borrow_exists (reached : Reachable rt s)
    (can : CanBorrow rt s user mint priceUpdate remaining amount) :
    ∃ s', borrow rt s user mint priceUpdate remaining amount = .ok s' := by
  obtain ⟨positive, wallet, liquid, room, unsupplied, borrowed, grown, healthy⟩ := can
  obtain ⟨position, _, _, held, _⟩ := id healthy
  obtain ⟨market, found⟩ := position_market reached.linked held
  rw [deposited_of_lookup held] at unsupplied
  rw [owed_of_lookup found held] at grown
  rw [totalBorrowed_of_lookup found] at room
  have empty : position.supplied = 0 := Fin.ext unsupplied
  simp only [borrow_draw]
  refine draw_exists reached positive wallet liquid
    ⟨0, borrowed, market.totalSupplied, ⟨_, room⟩⟩ found held healthy ?_
  intro cash' spent
  refine ⟨?_, ?_, ?_, ?_, ?_, spent⟩
  · rw [accruePosition_supplied]
    exact unsupplied
  · rw [accruePosition_supplied, empty]
  · exact grown
  · rw [accrueMarket_totalSupplied]
  · rw [accrueMarket_totalBorrowed]

/-- A loan goes through exactly when the position has no deposit, the vault holds the
amount, the counter of loans has room, the user's wallet can take it, and the larger
debt passes the health check. -/
theorem borrow_succeeds_iff (reached : Reachable rt s) :
    (∃ s', borrow rt s user mint priceUpdate remaining amount = .ok s') ↔
      CanBorrow rt s user mint priceUpdate remaining amount :=
  ⟨fun ⟨_, ran⟩ => borrow_needs reached.linked ran, borrow_exists reached⟩

end PayingOut

theorem withdraw_succeeds_iff_alice :
    CanWithdraw devnet (ledger (indebted 4000000000000)) alice sol.pubkey solPrice
        (listed alice usdc usdcPrice) 50000000000 ∧
      ¬ CanWithdraw devnet (ledger (indebted 4000000000000)) alice sol.pubkey solPrice
        (listed alice usdc usdcPrice) 50000000001 := by
  have taken : ∃ s', withdraw devnet (ledger (indebted 4000000000000)) alice sol.pubkey solPrice
      (listed alice usdc usdcPrice) 50000000000 = .ok s' ∧
        s'.suppliedIn sol.pubkey = 50000000000 := ok_where (by decide +kernel)
  have refused : ¬ ∃ s', withdraw devnet (ledger (indebted 4000000000000)) alice sol.pubkey solPrice
      (listed alice usdc usdcPrice) 50000000001 = .ok s' := not_ok_of_refused (by decide +kernel)
  obtain ⟨s', taken, _⟩ := taken
  exact ⟨(withdraw_succeeds_iff (ledger_reachable _)).mp ⟨s', taken⟩,
    fun can => refused ((withdraw_succeeds_iff (ledger_reachable _)).mpr can)⟩

theorem borrow_succeeds_iff_alice :
    CanBorrow devnet (ledger lenders) alice usdc.pubkey usdcPrice (listed alice sol solPrice)
        8000000000000 ∧
      ¬ CanBorrow devnet (ledger lenders) alice usdc.pubkey usdcPrice (listed alice sol solPrice)
        8000000000010 := by
  have lent : ∃ s', borrow devnet (ledger lenders) alice usdc.pubkey usdcPrice
      (listed alice sol solPrice) 8000000000000 = .ok s' ∧
        s'.borrowedIn usdc.pubkey = 8000000000000 := ok_where (by decide +kernel)
  have refused : ¬ ∃ s', borrow devnet (ledger lenders) alice usdc.pubkey usdcPrice
      (listed alice sol solPrice) 8000000000010 = .ok s' := not_ok_of_refused (by decide +kernel)
  obtain ⟨s', lent, _⟩ := lent
  exact ⟨(borrow_succeeds_iff (ledger_reachable _)).mp ⟨s', lent⟩,
    fun can => refused ((borrow_succeeds_iff (ledger_reachable _)).mpr can)⟩

end ShadowLend
