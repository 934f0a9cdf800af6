import ShadowLend.Timeline
import ShadowLend.Listing

/-! What a position owes by now is a fact about the slot, not about who was last
restated: within a slot an instruction moves it by exactly what it lends or
collects, and moves the debt of no other position. -/

namespace ShadowLend

theorem accruePosition_index {market market' : Market}
    (same : market'.borrowIndexE18 = market.borrowIndexE18) (position : Position) :
    accruePosition position market' = accruePosition position market := by
  unfold accruePosition
  rw [same]

/-- The index of a slot is reached from any stamp the market had within it. -/
theorem Advanced.index_now {s : State} {market market' : Market}
    (advanced : Advanced s market market') :
    (accrueMarket market' s.clock).borrowIndexE18 =
      (accrueMarket market s.clock).borrowIndexE18 := by
  rcases advanced.stamp with same | accrued
  · have rate : market'.borrowRatePerSlotE18 = market.borrowRatePerSlotE18 :=
      congrArg MarketTerms.borrowRatePerSlotE18 advanced.terms
    unfold accrueMarket
    rw [stamp_index same, stamp_slot same, rate]
    split
    · exact stamp_index same
    · rfl
  · have current : s.clock.slot.val ≤ market'.lastUpdateSlot.val := by
      rw [stamp_slot accrued]
      exact accrueMarket_slot_le market s.clock
    rw [accrueMarket_current market' s.clock current]
    exact stamp_index accrued

/-- The debt a user has in a market by now, nothing where there is no position. -/
def State.owed (s : State) (key : Pubkey × Pubkey) : ℕ :=
  (s.positions.lookup key).elim 0 fun position => (s.debtNow key position).val

def State.deposited (s : State) (key : Pubkey × Pubkey) : ℕ :=
  (s.positions.lookup key).elim 0 fun position => position.supplied.val

section Steps

variable {rt : Runtime} {s s' : State}

theorem debtNow_of_lookup {key : Pubkey × Pubkey} {market : Market}
    (found : s.markets.lookup key.2 = some market) (position : Position) :
    s.debtNow key position = (accruePosition position (accrueMarket market s.clock)).borrowed := by
  rw [State.debtNow, found]

theorem step_debtNow (linked : Linked rt s) {a : Action} (step : Step rt s a s')
    (clock : s'.clock = s.clock) {key : Pubkey × Pubkey} {market : Market}
    (found : s.markets.lookup key.2 = some market) (position : Position) :
    s'.debtNow key position = s.debtNow key position := by
  rcases step_market linked step found with ⟨market', found', advanced⟩
  rw [debtNow_of_lookup found, debtNow_of_lookup found', clock,
    accruePosition_index advanced.index_now]

theorem position_market (linked : Linked rt s) {key : Pubkey × Pubkey} {position : Position}
    (found : s.positions.lookup key = some position) :
    ∃ market, s.markets.lookup key.2 = some market := by
  rcases linked.position _ _ _ (positionTerms_of_lookup found) with ⟨_, opening, named, _⟩
  rcases marketTerms_some named with ⟨market, present, _⟩
  exact ⟨market, present⟩

theorem step_owed (linked : Linked rt s) {a : Action} (step : Step rt s a s')
    (clock : s'.clock = s.clock) {key : Pubkey × Pubkey}
    (kept : s'.positions.lookup key = s.positions.lookup key) : s'.owed key = s.owed key := by
  rw [State.owed, State.owed, kept]
  cases found : s.positions.lookup key with
  | none => rfl
  | some position =>
      rcases position_market linked found with ⟨market, present⟩
      exact congrArg Fin.val (step_debtNow linked step clock present position)

/-- A position restated at this slot owes what it says, whatever it was rebalanced to. -/
theorem Accrued.debtNow_written {user mint : Pubkey} {market : Market} {position : Position}
    (accrued : Accrued s user mint market position) (clock : s'.clock = s.clock) (b : Balances)
    (written : s'.markets.lookup mint = some (market.rebalance b)) (b' : Balances) :
    s'.debtNow (user, mint) (position.rebalance b') = b'.borrowed := by
  rcases accrued.ofMarket with ⟨stored, found, same⟩
  have slot : s.clock.slot.val ≤ (market.rebalance b).lastUpdateSlot.val := by
    change s.clock.slot.val ≤ market.lastUpdateSlot.val
    rw [same]
    exact accrueMarket_slot_le stored s.clock
  have fresh : (position.rebalance b').borrowIndexSnapshotE18.val =
      (market.rebalance b).borrowIndexE18.val := congrArg Fin.val accrued.restated
  rw [debtNow_of_lookup written, clock, accrueMarket_current _ _ slot,
    accruePosition_fresh _ _ fresh]
  rfl

theorem Accrued.owed (accruedAt : Pubkey × Pubkey) {market : Market} {position : Position}
    (accrued : Accrued s accruedAt.1 accruedAt.2 market position) :
    s.owed accruedAt = position.borrowed.val := by
  rcases accrued.ofPosition with ⟨old, found, same⟩ | ⟨absent, _, nothing, _⟩
  · rcases accrued.ofMarket with ⟨stored, present, current⟩
    rw [State.owed, found, same, current]
    exact congrArg Fin.val (debtNow_of_lookup present old)
  · rw [State.owed, absent, nothing]
    rfl

theorem Accrued.deposited (accruedAt : Pubkey × Pubkey) {market : Market} {position : Position}
    (accrued : Accrued s accruedAt.1 accruedAt.2 market position) :
    s.deposited accruedAt = position.supplied.val := by
  rcases accrued.ofPosition with ⟨old, found, same⟩ | ⟨absent, nothing, _, _⟩
  · rw [State.deposited, found, same, accruePosition_supplied]
    rfl
  · rw [State.deposited, absent, nothing]
    rfl

section Touched

variable {kind : MarketActionKind} {user : Signer} {mint : Pubkey}
variable (touch : Touch s kind user mint s')
include touch

theorem Touch.lookup_self :
    s'.positions.lookup (user.pubkey, mint) = some (touch.position.rebalance touch.balances) := by
  rw [touch.positions, Finmap.lookup_insert]

theorem Touch.lookup_other {key : Pubkey × Pubkey} (distinct : key ≠ (user.pubkey, mint)) :
    s'.positions.lookup key = s.positions.lookup key := by
  rw [touch.positions, Finmap.lookup_insert_of_ne _ distinct]

theorem Touch.debtNow_self (clock : s'.clock = s.clock) :
    s'.debtNow (user.pubkey, mint) (touch.position.rebalance touch.balances) =
      touch.balances.borrowed := by
  apply touch.accrued.debtNow_written clock touch.balances
  rw [touch.markets, Finmap.lookup_insert]

theorem Touch.owed_self (clock : s'.clock = s.clock) :
    s'.owed (user.pubkey, mint) = touch.balances.borrowed.val := by
  rw [State.owed, touch.lookup_self]
  exact congrArg Fin.val (touch.debtNow_self clock)

theorem Touch.deposited_self :
    s'.deposited (user.pubkey, mint) = touch.balances.supplied.val := by
  rw [State.deposited, touch.lookup_self]
  rfl

end Touched

theorem touch_clock {a : Action} (touches : a.touch.isSome) (step : Step rt s a s') :
    s'.clock = s.clock := by
  rcases step_clock step with same | ⟨clock, foreign, rfl, _, _⟩
  · exact same
  · cases touches

end Steps

end ShadowLend
