import ShadowLend.Indices
import ShadowLend.Devnet

/-! What time does to a market and its positions. A stored market never goes
away, its index and its slot only move by accrual, and every position it has was
restated at some index it went through. -/

namespace ShadowLend

open Outcome Devnet

def Market.stamp (market : Market) : U128 × U64 :=
  (market.borrowIndexE18, market.lastUpdateSlot)

@[simp] theorem rebalance_stamp (market : Market) (b : Balances) :
    (market.rebalance b).stamp = market.stamp := rfl

theorem stamp_index {market market' : Market} (same : market'.stamp = market.stamp) :
    market'.borrowIndexE18 = market.borrowIndexE18 := congrArg Prod.fst same

theorem stamp_slot {market market' : Market} (same : market'.stamp = market.stamp) :
    market'.lastUpdateSlot = market.lastUpdateSlot := congrArg Prod.snd same

/-- A market that is not ahead of the clock is brought to it. -/
theorem accrueMarket_slot {market : Market} {clock : Clock}
    (past : market.lastUpdateSlot.val ≤ clock.slot.val) :
    (accrueMarket market clock).lastUpdateSlot.val = clock.slot.val := by
  unfold accrueMarket
  split
  · rename_i current
    exact le_antisymm past current
  · rfl

theorem accrueMarket_lastUpdateSlot_le (market : Market) (clock : Clock) :
    market.lastUpdateSlot.val ≤ (accrueMarket market clock).lastUpdateSlot.val := by
  unfold accrueMarket
  split
  · exact le_rfl
  · rename_i behind
    exact (not_le.mp behind).le

/-- A market moved from one ledger to the next as a step can move it. -/
structure Advanced (s : State) (market market' : Market) : Prop where
  terms : market'.terms = market.terms
  stamp : market'.stamp = market.stamp ∨ market'.stamp = (accrueMarket market s.clock).stamp

section Steps

variable {rt : Runtime} {s s' : State}

theorem Advanced.index_le {market market' : Market} (advanced : Advanced s market market') :
    market.borrowIndexE18.val ≤ market'.borrowIndexE18.val := by
  rcases advanced.stamp with same | accrued
  · rw [stamp_index same]
  · rw [stamp_index accrued]
    exact accrueMarket_index_le market s.clock

theorem Advanced.slot_le {market market' : Market} (advanced : Advanced s market market') :
    market.lastUpdateSlot.val ≤ market'.lastUpdateSlot.val := by
  rcases advanced.stamp with same | accrued
  · rw [stamp_slot same]
  · rw [stamp_slot accrued]
    exact accrueMarket_lastUpdateSlot_le market s.clock

theorem Accrued.advanced {user mint : Pubkey} {market stored : Market} {position : Position}
    (accrued : Accrued s user mint market position)
    (found : s.markets.lookup mint = some stored) (b : Balances) :
    Advanced s stored (market.rebalance b) := by
  rcases accrued.ofMarket with ⟨old, present, rfl⟩
  rcases Table.lookup_unique found present with rfl
  exact ⟨accrueMarket_terms stored s.clock, Or.inr rfl⟩

/-- A stored market stays, as it was or as accrual makes it. -/
theorem step_market (linked : Linked rt s) {a : Action} (step : Step rt s a s') {mint : Pubkey}
    {market : Market} (found : s.markets.lookup mint = some market) :
    ∃ market', s'.markets.lookup mint = some market' ∧ Advanced s market market' := by
  rcases step_effect linked step with ⟨markets, _, _⟩ |
    ⟨created, new, fresh, _, _, markets, _, _⟩ |
    ⟨changed, old, _, _, present, markets, _, _⟩ | ⟨kind, user, touched, _, touch⟩ |
    ⟨accounts, remaining, repayAmount, _, run⟩
  · exact ⟨market, by rw [markets, found], rfl, Or.inl rfl⟩
  · have elsewhere : mint ≠ created := by
      rintro rfl
      rw [found] at fresh
      cases fresh
    exact ⟨market, by rw [markets, Finmap.lookup_insert_of_ne _ elsewhere, found], rfl,
      Or.inl rfl⟩
  · by_cases here : mint = changed
    · subst changed
      rcases Table.lookup_unique found present with rfl
      have written := congrArg (Finmap.lookup mint) markets
      rw [Finmap.lookup_insert] at written
      exact ⟨_, written, rfl, Or.inl rfl⟩
    · exact ⟨market, by rw [markets, Finmap.lookup_insert_of_ne _ here, found], rfl, Or.inl rfl⟩
  · by_cases here : mint = touched
    · subst mint
      exact ⟨_, by rw [touch.markets, Finmap.lookup_insert],
        touch.accrued.advanced found touch.balances⟩
    · exact ⟨market, by rw [touch.markets, Finmap.lookup_insert_of_ne _ here, found], rfl,
        Or.inl rfl⟩
  · by_cases collateral : mint = accounts.collateralMint
    · subst mint
      exact ⟨_, by rw [run.markets, Finmap.lookup_insert],
        run.accruedCollateral.advanced found run.collateralBalances⟩
    · by_cases debt : mint = accounts.debtMint
      · subst mint
        exact ⟨_, by rw [run.markets, Finmap.lookup_insert_of_ne _ collateral,
          Finmap.lookup_insert], run.accruedDebt.advanced found run.debtBalances⟩
      · exact ⟨market, by rw [run.markets, Finmap.lookup_insert_of_ne _ collateral,
          Finmap.lookup_insert_of_ne _ debt, found], rfl, Or.inl rfl⟩

def State.Clocked (s : State) : Prop :=
  ∀ mint market, s.markets.lookup mint = some market →
    market.lastUpdateSlot.val ≤ s.clock.slot.val

theorem State.Clocked.step (linked : Linked rt s) (clocked : s.Clocked) {a : Action}
    (step : Step rt s a s') : s'.Clocked := by
  have forward := step_slot_le step
  intro mint market' found'
  have kept {market : Market} (found : s.markets.lookup mint = some market) :
      market'.lastUpdateSlot.val ≤ s'.clock.slot.val := by
    rcases step_market linked step found with ⟨after, present, advanced⟩
    rcases Table.lookup_unique found' present with rfl
    have before := clocked mint market found
    rcases advanced.stamp with same | accrued
    · rw [stamp_slot same]
      exact before.trans forward
    · rw [stamp_slot accrued, accrueMarket_slot before]
      exact forward
  have named := marketTerms_of_lookup found'
  rcases step_marketTerms step with ⟨_, same⟩ |
    ⟨admin, created, amountPerClaim, maxLtvBps, feedId, rate, _, rfl, fresh, _, _, _, written⟩
  · rw [same] at named
    rcases marketTerms_some named with ⟨market, found, _⟩
    exact kept found
  · by_cases here : mint = created.pubkey
    · rcases initializeMarket_ok step with ⟨run⟩
      rw [run.result, here, Finmap.lookup_insert, Option.some.injEq] at found'
      rw [← found', run.created]
      exact forward
    · rw [written, Function.update_of_ne here] at named
      rcases marketTerms_some named with ⟨market, found, _⟩
      exact kept found

theorem Reachable.clocked (reached : Reachable rt s) : s.Clocked := by
  apply reached.invariant_under (fun _ earlier => Reachable.linked earlier)
  · rintro _ rfl mint market found
    simp [State.empty] at found
  · intro _ _ _ linked clocked _ step
    exact State.Clocked.step linked clocked step

/-- Over a run a market keeps its terms, and its index and slot do not fall. -/
theorem Reachable.market_advances (reached : Reachable rt s) {guard : State → Action → Prop}
    (later : Leads rt guard s s') {mint : Pubkey} {market : Market}
    (found : s.markets.lookup mint = some market) :
    ∃ market', s'.markets.lookup mint = some market' ∧ market'.terms = market.terms ∧
      market.borrowIndexE18.val ≤ market'.borrowIndexE18.val ∧
      market.lastUpdateSlot.val ≤ market'.lastUpdateSlot.val := by
  apply Runs.Reaches.invariant_under (fun _ onward => (reached.leads onward).linked) ?_ ?_ later
  · rintro _ rfl
    exact ⟨market, found, rfl, le_rfl, le_rfl⟩
  · intro before a after linked carried _ step
    rcases carried with ⟨middle, present, terms, index, slot⟩
    rcases step_market linked step present with ⟨market', found', advanced⟩
    exact ⟨market', found', advanced.terms.trans terms, index.trans advanced.index_le,
      slot.trans advanced.slot_le⟩

end Steps

/-- The calls of `accrue_position` an action makes: the copy of the position it
loads, and the copy of the market after accrual. -/
inductive Restates (rt : Runtime) (s : State) : Action → Position → Market → Prop
  | supply {user : Signer} {mint : Pubkey} {amount : U64} {ctx : ModifyPosition}
      (loaded : ModifyPosition.load rt s user mint = .ok ctx)
      (claimed : ctx.position.user ≠ .default) :
      Restates rt s (.supply user mint amount) ctx.position (accrueMarket ctx.market s.clock)
  | withdraw {user : Signer} {mint priceUpdate : Pubkey} {remaining : List Pubkey} {amount : U64}
      {ctx : ModifyPositionWithPrice}
      (loaded : ModifyPositionWithPrice.load rt s user mint priceUpdate = .ok ctx) :
      Restates rt s (.withdraw user mint priceUpdate remaining amount) ctx.position
        (accrueMarket ctx.market s.clock)
  | borrow {user : Signer} {mint priceUpdate : Pubkey} {remaining : List Pubkey} {amount : U64}
      {ctx : ModifyPositionWithPrice}
      (loaded : ModifyPositionWithPrice.load rt s user mint priceUpdate = .ok ctx) :
      Restates rt s (.borrow user mint priceUpdate remaining amount) ctx.position
        (accrueMarket ctx.market s.clock)
  | repay {user : Signer} {mint : Pubkey} {amount : U64} {ctx : ModifyPosition}
      (loaded : ModifyPosition.load rt s user mint = .ok ctx) :
      Restates rt s (.repay user mint amount) ctx.position (accrueMarket ctx.market s.clock)
  | liquidateDebt {accounts : LiquidateAccounts} {remaining : List Pubkey} {repayAmount : U64}
      {ctx : Liquidate} (loaded : Liquidate.load rt s accounts = .ok ctx) :
      Restates rt s (.liquidate accounts remaining repayAmount) ctx.debtPosition
        (accrueMarket ctx.debtMarket s.clock)
  | liquidateCollateral {accounts : LiquidateAccounts} {remaining : List Pubkey}
      {repayAmount : U64} {ctx : Liquidate} (loaded : Liquidate.load rt s accounts = .ok ctx) :
      Restates rt s (.liquidate accounts remaining repayAmount) ctx.collateralPosition
        (accrueMarket ctx.collateralMarket s.clock)

/-- What `init_if_needed` allocates owes nothing, so a copy with a debt was stored. -/
theorem Restates.stored {rt : Runtime} {s : State} {a : Action} {position : Position}
    {market : Market} (restates : Restates rt s a position market)
    (debt : position.borrowed.val ≠ 0) :
    ∃ user mint, s.positions.lookup (user, mint) = some position := by
  have opened {user : Signer} {mint : Pubkey} {ctx : ModifyPosition}
      (loaded : ModifyPosition.load rt s user mint = .ok ctx)
      (debt : ctx.position.borrowed.val ≠ 0) :
      s.positions.lookup (user.pubkey, mint) = some ctx.position := by
    have origin := (ModifyPosition.load_ok loaded).position
    cases found : s.positions.lookup (user.pubkey, mint) with
    | some position => rw [origin, found, Option.getD_some]
    | none =>
        rw [origin, found, Option.getD_none] at debt
        exact absurd rfl debt
  cases restates with
  | supply loaded _ => exact ⟨_, _, opened loaded debt⟩
  | withdraw loaded => exact ⟨_, _, (ModifyPositionWithPrice.load_ok loaded).position⟩
  | borrow loaded => exact ⟨_, _, (ModifyPositionWithPrice.load_ok loaded).position⟩
  | repay loaded => exact ⟨_, _, opened loaded debt⟩
  | liquidateDebt loaded => exact ⟨_, _, (Liquidate.load_ok loaded).debtPosition⟩
  | liquidateCollateral loaded => exact ⟨_, _, (Liquidate.load_ok loaded).collateralPosition⟩

/-- What holds of the indices of a ledger, then and from then on. -/
structure IndexLaws (rt : Runtime) (s : State) : Prop where
  market_scaled : ∀ mint market, s.markets.lookup mint = some market →
    rateScaleE18.val ≤ market.borrowIndexE18.val
  market_advances : ∀ mint market s', s.markets.lookup mint = some market →
    Leads rt (fun _ _ => True) s s' → ∃ market', s'.markets.lookup mint = some market' ∧
      market.borrowIndexE18.val ≤ market'.borrowIndexE18.val ∧
      market.lastUpdateSlot.val ≤ market'.lastUpdateSlot.val
  position_derived : ∀ user mint position, s.positions.lookup (user, mint) = some position →
    position.user = user ∧ position.market = .market mint
  position_between : ∀ user mint position, s.positions.lookup (user, mint) = some position →
    ∃ market, s.markets.lookup mint = some market ∧
      rateScaleE18.val ≤ position.borrowIndexSnapshotE18.val ∧
      position.borrowIndexSnapshotE18.val ≤ market.borrowIndexE18.val
  debt_snapshot : ∀ a position market, Restates rt s a position market →
    position.borrowed.val ≠ 0 → position.borrowIndexSnapshotE18.val ≠ 0
  debt_charged : ∀ a position market, Restates rt s a position market →
    position.borrowed.val ≠ 0 →
    position.borrowIndexSnapshotE18.val ≠ market.borrowIndexE18.val →
    (accruePosition position market).borrowed.val =
      min (min (position.borrowed.val * market.borrowIndexE18.val) (2 ^ 128 - 1) /
        position.borrowIndexSnapshotE18.val) (2 ^ 64 - 1)

theorem indices_hold {rt : Runtime} {s : State} (reached : Reachable rt s) : IndexLaws rt s := by
  have linked := reached.linked
  have indexed := reached.indexed
  have between (user mint : Pubkey) (position : Position)
      (found : s.positions.lookup (user, mint) = some position) :
      ∃ market, s.markets.lookup mint = some market ∧
        rateScaleE18.val ≤ position.borrowIndexSnapshotE18.val ∧
        position.borrowIndexSnapshotE18.val ≤ market.borrowIndexE18.val := by
    rcases linked.position user mint _ (positionTerms_of_lookup found) with ⟨_, opening, named, _⟩
    rcases marketTerms_some named with ⟨market, present, _⟩
    exact ⟨market, present, indexed.position user mint position market found present⟩
  have snapshot (a : Action) (position : Position) (market : Market)
      (restates : Restates rt s a position market) (debt : position.borrowed.val ≠ 0) :
      position.borrowIndexSnapshotE18.val ≠ 0 := by
    rcases restates.stored debt with ⟨user, mint, found⟩
    rcases between user mint position found with ⟨_, _, low, _⟩
    have positive : 0 < rateScaleE18.val := by decide
    exact (positive.trans_le low).ne'
  constructor
  · exact indexed.market
  · intro mint market s' found later
    rcases reached.market_advances later found with ⟨market', found', _, index, slot⟩
    exact ⟨market', found', index, slot⟩
  · intro user mint position found
    rcases linked.position user mint _ (positionTerms_of_lookup found) with ⟨_, opening, _, shape⟩
    exact ⟨congrArg PositionTerms.user shape, congrArg PositionTerms.market shape⟩
  · exact between
  · exact snapshot
  · intro a position market restates debt stale
    exact accruePosition_debt position market (snapshot a position market restates debt) debt stale

theorem indices_hold_indebted : IndexLaws devnet (ledger (indebted 5000000000)) :=
  indices_hold (ledger_reachable _)

end ShadowLend
