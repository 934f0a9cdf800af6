import ShadowLend.Foundation.Compounding
import ShadowLend.Owing
import Mathlib.Algebra.Order.Ring.Rat
import Mathlib.Tactic.Ring

/-! What interest can make of a debt. A position is worth some shares of its
market's index, which only a loan adds to, and the index keeps under compound
growth at the market's rate whenever it was updated. -/

namespace ShadowLend

open Outcome Devnet Compounding

def Market.ratePerSlot (market : Market) : ℚ :=
  (market.borrowRatePerSlotE18.val : ℚ) / (rateScaleE18.val : ℚ)

theorem ratePerSlot_nonneg (market : Market) : 0 ≤ market.ratePerSlot := by
  unfold Market.ratePerSlot
  positivity

theorem ratePerSlot_of_terms {market market' : Market} (same : market'.terms = market.terms) :
    market'.ratePerSlot = market.ratePerSlot := by
  have rate : market'.borrowRatePerSlotE18 = market.borrowRatePerSlotE18 :=
    congrArg MarketTerms.borrowRatePerSlotE18 same
  rw [Market.ratePerSlot, Market.ratePerSlot, rate]

/-- What a position owes as a fraction of the index it was last restated at. -/
def Position.shares (position : Position) : ℚ :=
  (position.borrowed.val : ℚ) / (position.borrowIndexSnapshotE18.val : ℚ)

theorem rateScale_pos : 0 < rateScaleE18.val := by decide

/-- The saturating steps of an accrual only ever take something off. -/
theorem accrueMarket_index_le_linear (market : Market) (clock : Clock) :
    ((accrueMarket market clock).borrowIndexE18.val : ℚ) ≤
      market.borrowIndexE18.val *
        (1 + (clock.slot.val - market.lastUpdateSlot.val : ℕ) * market.ratePerSlot) := by
  rw [accrueMarket_index_val]
  calc
    _ ≤ ((market.borrowIndexE18.val + market.borrowIndexE18.val *
          market.borrowRatePerSlotE18.val * (clock.slot.val - market.lastUpdateSlot.val) /
          rateScaleE18.val : ℕ) : ℚ) := Nat.cast_le.mpr Instalments.advance_truncated_le
    _ ≤ market.borrowIndexE18.val + ((market.borrowIndexE18.val *
          market.borrowRatePerSlotE18.val * (clock.slot.val - market.lastUpdateSlot.val) : ℕ) : ℚ)
          / rateScaleE18.val := by
      rw [Nat.cast_add]
      exact add_le_add_right Nat.cast_div_le _
    _ = _ := by
      rw [Nat.cast_mul, Nat.cast_mul, Market.ratePerSlot]
      ring

/-- The debt a restatement writes is at most the exact one. -/
theorem accruePosition_mul_le {position : Position} {market : Market}
    (snapshot : 0 < position.borrowIndexSnapshotE18.val) :
    (accruePosition position market).borrowed.val * position.borrowIndexSnapshotE18.val ≤
      position.borrowed.val * market.borrowIndexE18.val := by
  by_cases fresh : position.borrowIndexSnapshotE18.val = market.borrowIndexE18.val
  · rw [accruePosition_fresh _ _ fresh, fresh]
  · calc
      _ ≤ exactDebt position market.borrowIndexE18 * position.borrowIndexSnapshotE18.val := by
        rw [accruePosition_exact snapshot fresh]
        exact Nat.mul_le_mul_right _ (min_le_left _ _)
      _ ≤ _ := Nat.div_mul_le_self _ _

theorem accruePosition_shares_le {position : Position} {market : Market}
    (snapshot : 0 < position.borrowIndexSnapshotE18.val)
    (index : 0 < market.borrowIndexE18.val) :
    (accruePosition position market).shares ≤ position.shares := by
  rw [Position.shares, accruePosition_snapshot]
  exact shares_le snapshot index (accruePosition_mul_le snapshot)

def Action.borrowsOn (a : Action) (user : Signer) (mint : Pubkey) : Bool :=
  match a with
  | .borrow user' mint' _ _ _ => user' = user ∧ mint' = mint
  | _ => false

section Steps

variable {rt : Runtime} {s s' : State}

theorem State.Indexed.snapshot_pos (indexed : s.Indexed) (linked : Linked rt s)
    {key : Pubkey × Pubkey} {position : Position}
    (found : s.positions.lookup key = some position) :
    0 < position.borrowIndexSnapshotE18.val := by
  rcases position_market linked found with ⟨market, present⟩
  exact rateScale_pos.trans_le (indexed.position key.1 key.2 position market found present).1

/-- The accrued copy of a stored position, with no more debt booked on it. -/
theorem Accrued.shares_le (indexed : s.Indexed) (linked : Linked rt s) {user mint : Pubkey}
    {market : Market} {position stored : Position}
    (accrued : Accrued s user mint market position)
    (found : s.positions.lookup (user, mint) = some stored) {b : Balances}
    (kept : b.borrowed.val ≤ position.borrowed.val) :
    (position.rebalance b).shares ≤ stored.shares := by
  have snapshot := indexed.snapshot_pos linked found
  have index := rateScale_pos.trans_le (accrued.scaled indexed)
  rcases accrued.ofPosition with ⟨old, present, same⟩ | ⟨absent, _⟩
  · rw [Table.lookup_unique present found] at same
    calc
      (position.rebalance b).shares ≤ position.shares :=
        div_le_div_of_nonneg_right (Nat.cast_le.mpr kept) (Nat.cast_nonneg _)
      _ ≤ stored.shares := by
        rw [same]
        exact accruePosition_shares_le snapshot index
  · rw [absent] at found
    cases found

/-- Only a loan adds to the shares of a position. -/
theorem step_shares_le (linked : Linked rt s) (indexed : s.Indexed) {a : Action}
    (step : Step rt s a s') {user : Signer} {mint : Pubkey}
    (idle : a.borrowsOn user mint = false) {position : Position}
    (found : s.positions.lookup (user.pubkey, mint) = some position) :
    ∃ position', s'.positions.lookup (user.pubkey, mint) = some position' ∧
      position'.shares ≤ position.shares := by
  rcases step_effect linked step with ⟨_, positions, _⟩ | ⟨_, _, _, _, _, _, positions, _⟩ |
    ⟨_, _, _, _, _, _, positions, _⟩ | ⟨kind, actor, touched, acts, touch⟩ |
    ⟨accounts, remaining, repayAmount, _, run⟩
  · exact ⟨position, by rw [positions, found], le_rfl⟩
  · exact ⟨position, by rw [positions, found], le_rfl⟩
  · exact ⟨position, by rw [positions, found], le_rfl⟩
  · by_cases here : (user.pubkey, mint) = (actor.pubkey, touched)
    · have same := Prod.mk.inj here
      have actorSame : actor = user := by
        rcases actor with ⟨id⟩
        rcases user with ⟨id'⟩
        exact congrArg Signer.mk (Pubkey.key.inj same.1).symm
      have kept : touch.balances.borrowed.val ≤ touch.position.borrowed.val := by
        have books := touch.books
        cases kind with
        | supply => rw [books.2.1]
        | withdraw => rw [books.2.1]
        | repay =>
            have settled := books.2.1
            omega
        | borrow =>
            cases a <;> simp_all [Action.touch, Action.borrowsOn]
      rw [here] at found ⊢
      exact ⟨_, touch.lookup_self, touch.accrued.shares_le indexed linked found kept⟩
    · exact ⟨position, by rw [touch.lookup_other here, found], le_rfl⟩
  · have debtKept : run.debtBalances.borrowed.val ≤ run.debtPosition.borrowed.val := by
      change (run.debtPosition.borrowed.saturatingSub run.actualRepay).val ≤ _
      rw [Uint.val_saturatingSub]
      exact Nat.sub_le _ _
    by_cases collateral : (user.pubkey, mint) = (accounts.borrower, accounts.collateralMint)
    · rw [collateral] at found ⊢
      exact ⟨_, by rw [run.positions, Finmap.lookup_insert],
        run.accruedCollateral.shares_le indexed linked found le_rfl⟩
    · by_cases debt : (user.pubkey, mint) = (accounts.borrower, accounts.debtMint)
      · rw [debt] at found collateral ⊢
        exact ⟨_, by rw [run.positions, Finmap.lookup_insert_of_ne _ collateral,
          Finmap.lookup_insert], run.accruedDebt.shares_le indexed linked found debtKept⟩
      · exact ⟨position, by rw [run.positions, Finmap.lookup_insert_of_ne _ collateral,
          Finmap.lookup_insert_of_ne _ debt, found], le_rfl⟩

/-- A debt followed through a run: the market is where compounding from the first
slot allows, and the position has no more shares than it had there. -/
structure Follows (origin : Market) (principal : Position) (start : ℕ) (s : State)
    (user : Signer) (mint : Pubkey) (market : Market) (position : Position) : Prop where
  listed : s.markets.lookup mint = some market
  stored : s.positions.lookup (user.pubkey, mint) = some position
  terms : market.terms = origin.terms
  begun : start ≤ market.lastUpdateSlot.val
  index : Within origin.ratePerSlot (origin.borrowIndexE18.val : ℚ) market.borrowIndexE18.val
    (market.lastUpdateSlot.val - start)
  shares : position.shares ≤ principal.shares

theorem within_accrueMarket {origin market : Market} {start : ℕ} {clock : Clock}
    (terms : market.terms = origin.terms) (begun : start ≤ market.lastUpdateSlot.val)
    (index : Within origin.ratePerSlot (origin.borrowIndexE18.val : ℚ) market.borrowIndexE18.val
      (market.lastUpdateSlot.val - start))
    (past : market.lastUpdateSlot.val ≤ clock.slot.val) :
    Within origin.ratePerSlot (origin.borrowIndexE18.val : ℚ)
      (accrueMarket market clock).borrowIndexE18.val (clock.slot.val - start) := by
  have elapsed : clock.slot.val - start =
      market.lastUpdateSlot.val - start + (clock.slot.val - market.lastUpdateSlot.val) := by omega
  rw [elapsed]
  apply index.accrue (ratePerSlot_nonneg origin) (Nat.cast_nonneg _)
  rw [← ratePerSlot_of_terms terms]
  exact accrueMarket_index_le_linear market clock

theorem Follows.step {origin market : Market} {principal position : Position} {start : ℕ}
    {user : Signer} {mint : Pubkey}
    (follows : Follows origin principal start s user mint market position)
    (linked : Linked rt s) (indexed : s.Indexed) (clocked : s.Clocked) {a : Action}
    (step : Step rt s a s') (idle : a.borrowsOn user mint = false) :
    ∃ market' position', Follows origin principal start s' user mint market' position' := by
  rcases step_market linked step follows.listed with ⟨market', listed, advanced⟩
  rcases step_shares_le linked indexed step idle follows.stored with ⟨position', stored, shares⟩
  have past := clocked mint market follows.listed
  have slot := advanced.slot_le
  refine ⟨market', position', listed, stored, advanced.terms.trans follows.terms,
    follows.begun.trans slot, ?_, shares.trans follows.shares⟩
  rcases advanced.stamp with same | accrued
  · rw [stamp_index same, stamp_slot same]
    exact follows.index
  · rw [stamp_index accrued, stamp_slot accrued, accrueMarket_slot past]
    exact within_accrueMarket follows.terms follows.begun follows.index past

/-- A followed debt, restated at any slot to come. -/
theorem Follows.debt_within {origin market : Market} {principal position : Position} {start : ℕ}
    {user : Signer} {mint : Pubkey}
    (follows : Follows origin principal start s user mint market position)
    (indexed : s.Indexed) (fresh : principal.borrowIndexSnapshotE18 = origin.borrowIndexE18)
    (scaled : 0 < origin.borrowIndexE18.val) {clock : Clock}
    (past : market.lastUpdateSlot.val ≤ clock.slot.val) :
    Within origin.ratePerSlot (principal.borrowed.val : ℚ)
      (accruePosition position (accrueMarket market clock)).borrowed.val
      (clock.slot.val - start) := by
  have snapshot : 0 < position.borrowIndexSnapshotE18.val :=
    rateScale_pos.trans_le
      (indexed.position user.pubkey mint position market follows.stored follows.listed).1
  have index : 0 < (accrueMarket market clock).borrowIndexE18.val :=
    (rateScale_pos.trans_le (indexed.market mint market follows.listed)).trans_le
      (accrueMarket_index_le market clock)
  have shares : ((accruePosition position (accrueMarket market clock)).borrowed.val : ℚ) /
      (accrueMarket market clock).borrowIndexE18.val ≤
      (principal.borrowed.val : ℚ) / origin.borrowIndexE18.val := by
    calc
      _ = (accruePosition position (accrueMarket market clock)).shares := by
        rw [Position.shares, accruePosition_snapshot]
      _ ≤ position.shares := accruePosition_shares_le snapshot index
      _ ≤ principal.shares := follows.shares
      _ = _ := by rw [Position.shares, fresh]
  exact Compounding.debt_within (Nat.cast_pos.mpr scaled) (Nat.cast_pos.mpr index)
    (Nat.cast_nonneg _) shares
    (within_accrueMarket follows.terms follows.begun follows.index past)

end Steps

/-- What a loan leaves a user owing never grows faster than compound interest at
the market's rate from the slot of the loan. -/
theorem debt_growth_bounded {rt : Runtime} {before s s' : State} (reached : Reachable rt before)
    {user : Signer} {mint priceUpdate : Pubkey} {remaining : List Pubkey} {amount : U64}
    (lent : Step rt before (.borrow user mint priceUpdate remaining amount) s)
    (later : Leads rt (fun _ a => a.borrowsOn user mint = false) s s')
    {principal position : Position} {market : Market}
    (owed : s.positions.lookup (user.pubkey, mint) = some principal)
    (stored : s'.positions.lookup (user.pubkey, mint) = some position)
    (listed : s'.markets.lookup mint = some market) {clock : Clock}
    (future : s'.clock.slot.val ≤ clock.slot.val) :
    ((accruePosition position (accrueMarket market clock)).borrowed.val : ℚ) ≤
      principal.borrowed.val * (1 + market.ratePerSlot) ^ (clock.slot.val - s.clock.slot.val) := by
  have reachedLoan : Reachable rt s := .next reached trivial lent
  rcases borrow_touch lent with ⟨touch⟩
  rcases touch.accrued.ofMarket with ⟨old, found, same⟩
  have past : old.lastUpdateSlot.val ≤ before.clock.slot.val := reached.clocked mint old found
  have present : s.clock = before.clock := touch_clock rfl lent
  have opened : s.markets.lookup mint = some (touch.market.rebalance touch.balances) := by
    rw [touch.markets, Finmap.lookup_insert]
  have slot : (touch.market.rebalance touch.balances).lastUpdateSlot.val = s.clock.slot.val := by
    rw [present, ← accrueMarket_slot past, ← same]
    rfl
  have written : principal = touch.position.rebalance touch.balances :=
    Table.lookup_unique owed touch.lookup_self
  have fresh : principal.borrowIndexSnapshotE18 =
      (touch.market.rebalance touch.balances).borrowIndexE18 := by
    rw [written]
    exact touch.accrued.restated
  have scaled := rateScale_pos.trans_le (reachedLoan.indexed.market mint _ opened)
  have followed : ∃ market position, Follows (touch.market.rebalance touch.balances) principal
      s.clock.slot.val s' user mint market position := by
    apply Runs.Reaches.invariant_under (fun _ onward => reachedLoan.leads onward) ?_ ?_ later
    · rintro _ rfl
      refine ⟨_, _, opened, owed, rfl, slot.ge, ?_, le_rfl⟩
      rw [slot, Nat.sub_self]
      exact within_start _ _
    · intro middle a after reachable carried idle step
      rcases carried with ⟨market, position, follows⟩
      exact follows.step reachable.linked reachable.indexed reachable.clocked step idle
  have reachedLater := reachedLoan.leads later
  rcases followed with ⟨market', position', follows⟩
  rcases Table.lookup_unique listed follows.listed with rfl
  rcases Table.lookup_unique stored follows.stored with rfl
  rw [ratePerSlot_of_terms follows.terms]
  exact follows.debt_within reachedLater.indexed fresh scaled
    ((reachedLater.clocked mint market listed).trans future)

def untilMaturity : List Action :=
  [reach 500100 10000000000, .supply alice usdc.pubkey 1, reach 1000100 10000000000]

def matured (s : State) : State :=
  replay devnet (fun _ a => a.borrowsOn alice usdc.pubkey = false) s untilMaturity

theorem debt_growth_bounded_loan :
    ∃ (s : State) (principal position : Position) (market : Market),
      Step devnet (ledger lenders) (borrowUsdc 4000000000000) s ∧
      (matured s).positions.lookup (alice.pubkey, usdc.pubkey) = some position ∧
      principal.borrowed.val = 4000000000000 ∧
      position.borrowIndexSnapshotE18.val ≠ principal.borrowIndexSnapshotE18.val ∧
      (((accruePosition position (accrueMarket market (matured s).clock)).borrowed.val : ℕ) : ℚ) ≤
        principal.borrowed.val *
          (1 + market.ratePerSlot) ^ ((matured s).clock.slot.val - s.clock.slot.val) := by
  have ran : ∃ s, Step devnet (ledger lenders) (borrowUsdc 4000000000000) s ∧
      ((s.positions.lookup (alice.pubkey, usdc.pubkey)).any fun principal =>
        principal.borrowed.val = 4000000000000 ∧
          ((matured s).positions.lookup (alice.pubkey, usdc.pubkey)).any fun position =>
            position.borrowIndexSnapshotE18.val ≠ principal.borrowIndexSnapshotE18.val) = true ∧
      ((matured s).markets.lookup usdc.pubkey).isSome = true := ok_where (by decide +kernel)
  rcases ran with ⟨s, lent, stored, listed⟩
  rcases some_where stored with ⟨principal, owed, amount, restated⟩
  rcases some_where restated with ⟨position, held, moved⟩
  rcases Option.isSome_iff_exists.mp listed with ⟨market, found⟩
  have later : Leads devnet (fun _ a => a.borrowsOn alice usdc.pubkey = false) s (matured s) :=
    replay_leads devnet _ s untilMaturity
  exact ⟨s, principal, position, market, lent, held, amount, moved,
    debt_growth_bounded (ledger_reachable lenders) lent later owed held found le_rfl⟩

end ShadowLend
