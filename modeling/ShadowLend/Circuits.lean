import ShadowLend.Accrual

/-! The circuits which are meant to stand in for the health check and for the
restatement of a debt. They see one collateral and one debt in dollars, where the
program sees a list of positions and truncates each. -/

namespace ShadowLend

open Outcome Devnet

abbrev U32 := Uint 32

theorem u32_le_u128 : 32 ≤ 128 := by decide

def multiply (a b : U128) : Except ProgramError U128 := okOr (a.checkedMul b) .panicked

def checkLtv (collateralValue borrowValue : U64) (maxLtvBps : U16) :
    Except ProgramError Bool := do
  let borrowScaled ← multiply (borrowValue.widen u64_le_u128) bpsDenominator
  let collateralScaled ← multiply (collateralValue.widen u64_le_u128) (maxLtvBps.widen u16_le_u128)
  pure (borrowScaled.val ≤ collateralScaled.val)

def checkLiquidatable (collateralValue borrowWithInterest : U64) (collateralFactorBps : U16) :
    Except ProgramError Bool := do
  let left ← multiply (collateralValue.widen u64_le_u128) (collateralFactorBps.widen u16_le_u128)
  let right ← multiply (borrowWithInterest.widen u64_le_u128) bpsDenominator
  pure (left.val < right.val)

def accrueInterest (borrow : U64) (rateBps : U32) (slotsElapsed : U64) :
    Except ProgramError U64 := do
  let rated ← multiply (borrow.widen u64_le_u128) (rateBps.widen u32_le_u128)
  let scaled ← multiply rated (slotsElapsed.widen u64_le_u128)
  let interest := scaled.div bpsDenominator
  okOr (borrow.checkedAdd (interest.wrap 64)) .panicked

theorem multiply_ok {a b c : U128} : multiply a b = .ok c ↔ c.val = a.val * b.val := by
  rw [multiply, okOr_ok, Uint.checkedMul_eq_some]

section Checks

variable (collateral debt : U64) (ltv : U16)

theorem weighted_lt : collateral.val * ltv.val < 2 ^ 128 := by
  calc
    collateral.val * ltv.val ≤ (2 ^ 64 - 1) * (2 ^ 16 - 1) :=
      Nat.mul_le_mul collateral.val_le_max ltv.val_le_max
    _ < 2 ^ 128 := by decide

theorem scaled_lt : debt.val * 10000 < 2 ^ 128 := by
  have := debt.val_le_max
  omega

/-- Neither check overflows, and both cross-multiply. -/
theorem checkLtv_eq :
    checkLtv collateral debt ltv = .ok (decide (debt.val * 10000 ≤ collateral.val * ltv.val)) := by
  simp only [checkLtv, bind_ok, multiply_ok, pure_ok]
  exact ⟨⟨_, scaled_lt debt⟩, rfl, ⟨_, weighted_lt collateral ltv⟩, rfl, rfl⟩

theorem checkLiquidatable_eq :
    checkLiquidatable collateral debt ltv =
      .ok (decide (collateral.val * ltv.val < debt.val * 10000)) := by
  simp only [checkLiquidatable, bind_ok, multiply_ok, pure_ok]
  exact ⟨⟨_, weighted_lt collateral ltv⟩, rfl, ⟨_, scaled_lt debt⟩, rfl, rfl⟩

end Checks

def Contribution.worth (e : Contribution) : ℕ := usdValue e.supplied e.price e.decimals

/-- The program's rule over dollar values: each collateral is weighted and truncated. -/
def WithinLtv (collaterals debts : List ℕ) (ltv : U16) : Prop :=
  debts.sum ≤ (collaterals.map fun value => value * ltv.val / bpsDenominator.val).sum

instance (collaterals debts : List ℕ) (ltv : U16) :
    Decidable (WithinLtv collaterals debts ltv) :=
  inferInstanceAs (Decidable (_ ≤ _))

/-- The two sides the program compares are those of the rule while their sums fit. -/
theorem withinLtv_of_totals {log : List Contribution} {totals : Totals}
    (summed : accumulateAll log .zero = .ok totals) {ltv : U16}
    (shared : ∀ e ∈ log, e.maxLtvBps = ltv)
    (collateralsFit : (log.map Contribution.worth).sum ≤ 2 ^ 64 - 1)
    (debtsFit : (log.map Contribution.debt).sum ≤ 2 ^ 64 - 1) :
    totals.debt.val ≤ totals.collatAtLtv.val ↔
      WithinLtv (log.map Contribution.worth) (log.map Contribution.debt) ltv := by
  have weighted : log.map Contribution.collateral =
      (log.map Contribution.worth).map fun value => value * ltv.val / bpsDenominator.val := by
    rw [List.map_map]
    apply List.map_congr_left
    intro e member
    have part : e.worth ≤ 2 ^ 64 - 1 :=
      (List.le_sum_of_mem (List.mem_map_of_mem member)).trans collateralsFit
    have product : e.worth * ltv.val ≤ (2 ^ 64 - 1) * (2 ^ 16 - 1) :=
      Nat.mul_le_mul part ltv.val_le_max
    have whole : e.worth * ltv.val ≤ 2 ^ 128 - 1 := product.trans (by decide)
    rw [Contribution.collateral, collateralValue, shared e member]
    exact congrArg (· / 10000) (min_eq_left whole)
  have bound := Scaling.sum_truncated_le (log.map Contribution.worth) ltv.val bpsDenominator.val
  have product : (log.map Contribution.worth).sum * ltv.val ≤ (2 ^ 64 - 1) * (2 ^ 16 - 1) :=
    Nat.mul_le_mul collateralsFit ltv.val_le_max
  have fits : ((log.map Contribution.worth).map fun value =>
      value * ltv.val / bpsDenominator.val).sum ≤ 2 ^ 128 - 1 :=
    (bound.trans (Nat.div_le_self _ _)).trans (product.trans (by decide))
  rcases accumulateAll_zero summed with ⟨collateral, debt⟩
  rw [collateral, debt, weighted, min_eq_left fits, min_eq_left (debtsFit.trans (by decide))]
  rfl

section Decisions

variable {collaterals debts : List ℕ} {ltv : U16} {collateral debt : U64}

theorem checkLtv_of_withinLtv (collateralSum : collateral.val = collaterals.sum)
    (debtSum : debt.val = debts.sum) (within : WithinLtv collaterals debts ltv) :
    debt.val * 10000 ≤ collateral.val * ltv.val := by
  rw [← Nat.le_div_iff_mul_le (by decide), collateralSum, debtSum]
  exact within.trans (Scaling.sum_truncated_le collaterals ltv.val 10000)

/-- With one collateral nothing is lost to the truncation of the others. -/
theorem withinLtv_iff_of_single (collateralSum : collateral.val = collaterals.sum)
    (debtSum : debt.val = debts.sum) (single : (collaterals.filter (· ≠ 0)).length ≤ 1) :
    WithinLtv collaterals debts ltv ↔ debt.val * 10000 ≤ collateral.val * ltv.val := by
  have zero : 0 * ltv.val / bpsDenominator.val = 0 := by rw [Nat.zero_mul, Nat.zero_div]
  rw [WithinLtv, Scaling.sum_map_single zero single, ← collateralSum, ← debtSum]
  exact Nat.le_div_iff_mul_le (by decide)

end Decisions

/-- The circuits accept whatever the program accepts and liquidate only what it would;
where there is one collateral they decide as the program does, and they never differ
from each other. -/
theorem circuits_decide_alike (collaterals debts : List ℕ) (ltv : U16) {collateral debt : U64}
    (collateralSum : collateral.val = collaterals.sum) (debtSum : debt.val = debts.sum) :
    (∀ log totals, accumulateAll log .zero = .ok totals → (∀ e ∈ log, e.maxLtvBps = ltv) →
        log.map Contribution.worth = collaterals → log.map Contribution.debt = debts →
        (totals.debt.val ≤ totals.collatAtLtv.val ↔ WithinLtv collaterals debts ltv) ∧
          (totals.collatAtLtv.val < totals.debt.val ↔ ¬ WithinLtv collaterals debts ltv)) ∧
      (WithinLtv collaterals debts ltv → checkLtv collateral debt ltv = .ok true) ∧
      (checkLiquidatable collateral debt ltv = .ok true → ¬ WithinLtv collaterals debts ltv) ∧
      ((collaterals.filter (· ≠ 0)).length ≤ 1 →
        (WithinLtv collaterals debts ltv ↔ checkLtv collateral debt ltv = .ok true) ∧
          (checkLiquidatable collateral debt ltv = .ok true ↔
            ¬ WithinLtv collaterals debts ltv)) ∧
      ∀ (collateral debt : U64) (ltv : U16), ∃ within,
        checkLtv collateral debt ltv = .ok within ∧
          checkLiquidatable collateral debt ltv = .ok (!within) := by
  have accepted : WithinLtv collaterals debts ltv →
      debt.val * 10000 ≤ collateral.val * ltv.val := checkLtv_of_withinLtv collateralSum debtSum
  simp only [checkLtv_eq, checkLiquidatable_eq, Except.ok.injEq, decide_eq_true_eq]
  refine ⟨?_, accepted, ?_, ?_, ?_⟩
  · intro log totals summed shared values debtValues
    subst values debtValues
    have rule := withinLtv_of_totals summed shared (collateralSum ▸ collateral.val_le_max)
      (debtSum ▸ debt.val_le_max)
    exact ⟨rule, by rw [← rule, not_le]⟩
  · intro less within
    exact absurd (accepted within) (not_le.mpr less)
  · intro single
    have rule : WithinLtv collaterals debts ltv ↔
        debt.val * 10000 ≤ collateral.val * ltv.val :=
      withinLtv_iff_of_single collateralSum debtSum single
    exact ⟨rule, by rw [rule, not_le]⟩
  · intro collateral debt ltv
    exact ⟨_, rfl, by rw [← decide_not]; simp only [not_le]⟩

theorem circuits_decide_alike_three :
    checkLtv 9 6 8000 = .ok true ∧ ¬ WithinLtv [3, 3, 3] [7] 8000 ∧
      checkLtv 9 7 8000 = .ok true :=
  ⟨(circuits_decide_alike [3, 3, 3] [6] 8000 rfl rfl).2.1 (by decide), by decide,
    by rw [checkLtv_eq]; decide⟩

def interestOf (borrow : U64) (rateBps : U32) (slotsElapsed : U64) : ℕ :=
  borrow.val * (rateBps.val * slotsElapsed.val) / 10000

section Interest

variable {market : Market} {position : Position} {clock : Clock} {rateBps : U32} {slots : U64}

/-- While its product fits, an index at a rate in basis points grows by just that rate. -/
theorem accrueMarket_index_bps (rate : market.borrowRatePerSlotE18.val = rateBps.val * 10 ^ 14)
    (elapsed : slots.val = clock.slot.val - market.lastUpdateSlot.val)
    (fits : market.borrowIndexE18.val * market.borrowRatePerSlotE18.val * slots.val ≤
      2 ^ 128 - 1) :
    (accrueMarket market clock).borrowIndexE18.val = market.borrowIndexE18.val +
      market.borrowIndexE18.val * (rateBps.val * slots.val) / 10000 := by
  have product : market.borrowIndexE18.val * market.borrowRatePerSlotE18.val * slots.val =
      market.borrowIndexE18.val * (rateBps.val * slots.val) * 10 ^ 14 := by
    rw [rate]
    ring
  have growth : market.borrowIndexE18.val * (rateBps.val * slots.val) * 10 ^ 14 /
      rateScaleE18.val = market.borrowIndexE18.val * (rateBps.val * slots.val) / 10000 := by
    rw [show rateScaleE18.val = 10000 * 10 ^ 14 by rfl]
    exact Nat.mul_div_mul_right _ _ (by decide)
  have room : market.borrowIndexE18.val +
      market.borrowIndexE18.val * (rateBps.val * slots.val) / 10000 ≤ 2 ^ 128 - 1 := by
    have bound := market.borrowIndexE18.val_le_max
    rcases Nat.eq_zero_or_pos (rateBps.val * slots.val) with idle | moves
    · rw [idle, Nat.mul_zero, Nat.zero_div]
      exact bound
    · have least : market.borrowIndexE18.val ≤
          market.borrowIndexE18.val * (rateBps.val * slots.val) :=
        Nat.le_mul_of_pos_right _ moves
      rw [product] at fits
      omega
  rw [accrueMarket_index_val, ← elapsed, Instalments.advance, Instalments.truncated,
    min_eq_left fits, product, growth, min_eq_left room]

/-- Where its product fits, a circuit that returns has wrapped at most the interest. -/
theorem accrueInterest_ok {borrow accrued : U64}
    (fits : borrow.val * (rateBps.val * slots.val) ≤ 2 ^ 128 - 1) :
    accrueInterest borrow rateBps slots = .ok accrued ↔
      accrued.val =
        borrow.val + borrow.val * (rateBps.val * slots.val) / 10000 % 2 ^ 64 := by
  have rated : borrow.val * rateBps.val ≤ (2 ^ 64 - 1) * (2 ^ 32 - 1) :=
    Nat.mul_le_mul borrow.val_le_max rateBps.val_le_max
  simp only [accrueInterest, bind_ok, multiply_ok, okOr_ok, Uint.checkedAdd_eq_some, Uint.val_wrap,
    Uint.val_div, Uint.val_widen]
  constructor
  · intro ran
    rcases ran with ⟨first, rates, second, elapses, adds⟩
    rw [adds, elapses, rates, Nat.mul_assoc]
    rfl
  · intro adds
    exact ⟨⟨borrow.val * rateBps.val, by omega⟩, rfl,
      ⟨borrow.val * (rateBps.val * slots.val), by omega⟩, (Nat.mul_assoc _ _ _).symm, adds⟩

/-- Over one interval the circuit returns exactly where its sum fits, and the program
restates the debt to what it returned, or to one unit less. -/
theorem interest_agrees (small : position.borrowed.val ≤ 10 ^ 18)
    (scaled : rateScaleE18.val ≤ market.borrowIndexE18.val)
    (fresh : position.borrowIndexSnapshotE18 = market.borrowIndexE18)
    (rate : market.borrowRatePerSlotE18.val = rateBps.val * 10 ^ 14)
    (elapsed : slots.val = clock.slot.val - market.lastUpdateSlot.val)
    (growthFits : market.borrowIndexE18.val * market.borrowRatePerSlotE18.val * slots.val ≤
      2 ^ 128 - 1)
    (productFits : position.borrowed.val * (accrueMarket market clock).borrowIndexE18.val ≤
      2 ^ 128 - 1)
    (debtFits : position.borrowed.val * (accrueMarket market clock).borrowIndexE18.val /
      market.borrowIndexE18.val ≤ 2 ^ 64 - 1) :
    (∀ accrued, accrueInterest position.borrowed rateBps slots = .ok accrued →
        (accruePosition position (accrueMarket market clock)).borrowed.val = accrued.val ∨
          (accruePosition position (accrueMarket market clock)).borrowed.val + 1 = accrued.val) ∧
      ((∃ accrued, accrueInterest position.borrowed rateBps slots = .ok accrued) ↔
        position.borrowed.val + interestOf position.borrowed rateBps slots ≤ 2 ^ 64 - 1) := by
  have positive : 0 < market.borrowIndexE18.val := rateScale_pos.trans_le scaled
  have index := accrueMarket_index_bps rate elapsed growthFits
  have larger : position.borrowed.val ≤ market.borrowIndexE18.val := small.trans scaled
  have truncations := Scaling.through_larger (rateBps.val * slots.val) positive larger
    (by decide : 0 < 10000)
  have debt : (accruePosition position (accrueMarket market clock)).borrowed.val =
      position.borrowed.val + position.borrowed.val *
        (market.borrowIndexE18.val * (rateBps.val * slots.val) / 10000) /
          market.borrowIndexE18.val := by
    rw [accruePosition_restatedDebt (fresh ▸ positive),
      restatedDebt_exact (fresh ▸ positive) productFits, fresh, min_eq_left debtFits, index,
      Nat.mul_add, Nat.add_comm, Nat.add_mul_div_right _ _ positive, Nat.add_comm]
  have circuitFits : position.borrowed.val * (rateBps.val * slots.val) ≤ 2 ^ 128 - 1 := by
    calc
      _ ≤ market.borrowIndexE18.val * (rateBps.val * slots.val) :=
        Nat.mul_le_mul_right _ larger
      _ ≤ market.borrowIndexE18.val * (rateBps.val * slots.val) * 10 ^ 14 :=
        Nat.le_mul_of_pos_right _ (by decide)
      _ = market.borrowIndexE18.val * market.borrowRatePerSlotE18.val * slots.val := by
        rw [rate]
        ring
      _ ≤ 2 ^ 128 - 1 := growthFits
  have debtBound := (accruePosition position (accrueMarket market clock)).borrowed.val_le_max
  rw [debt] at debtBound
  -- The program's debt is at most one short of the sum, so the interest is not wrapped.
  have narrow : interestOf position.borrowed rateBps slots < 2 ^ 64 := by
    rcases Nat.eq_zero_or_pos position.borrowed.val with none | owes
    · simp [interestOf, none]
    · rw [interestOf]
      omega
  have returns (accrued : U64) : accrueInterest position.borrowed rateBps slots = .ok accrued ↔
      accrued.val = position.borrowed.val + interestOf position.borrowed rateBps slots := by
    rw [accrueInterest_ok circuitFits, ← interestOf, Nat.mod_eq_of_lt narrow]
  refine ⟨?_, ?_, ?_⟩
  · intro accrued ran
    have returned := (returns accrued).mp ran
    rw [interestOf] at returned
    omega
  · rintro ⟨accrued, ran⟩
    rw [← (returns accrued).mp ran]
    exact accrued.val_le_max
  · intro fits
    exact ⟨⟨_, Nat.lt_succ_of_le fits⟩, (returns _).mpr rfl⟩

end Interest

def bpsMarket : Market :=
  { usdcAt rateScaleE18 with borrowRatePerSlotE18 := 100000000000000 }

theorem interest_agrees_thousand :
    ∃ accrued, accrueInterest 1000 1 100000 = .ok accrued ∧
      ((accruePosition (owing 1000) (accrueMarket bpsMarket ⟨100100, 0⟩)).borrowed.val =
          accrued.val ∨
        (accruePosition (owing 1000) (accrueMarket bpsMarket ⟨100100, 0⟩)).borrowed.val + 1 =
          accrued.val) := by
  have rate : bpsMarket.borrowRatePerSlotE18.val = (1 : U32).val * 10 ^ 14 := by decide
  have small : (owing 1000).borrowed.val ≤ 10 ^ 18 := by decide
  have elapsed : (100000 : U64).val =
      (⟨100100, 0⟩ : Clock).slot.val - bpsMarket.lastUpdateSlot.val := by decide
  rcases interest_agrees small (by decide) rfl rate elapsed (by decide) (by decide +kernel)
    (by decide +kernel) with ⟨agrees, returns⟩
  rcases returns.mpr (by decide +kernel) with ⟨accrued, ran⟩
  exact ⟨accrued, ran, agrees accrued ran⟩

def raisedMarket : Market :=
  { bpsMarket with borrowIndexE18 := 1000000000000000001 }

def fullDebt : Position :=
  { owing 703687441776640000 with borrowIndexSnapshotE18 := raisedMarket.borrowIndexE18 }

/-- Every product fits, the program restates the debt to the last number of the width,
and the circuit, a unit above it, aborts. -/
theorem interest_aborts :
    fullDebt.borrowed.val ≤ 10 ^ 18 ∧ rateScaleE18.val ≤ raisedMarket.borrowIndexE18.val ∧
      fullDebt.borrowIndexSnapshotE18 = raisedMarket.borrowIndexE18 ∧
      raisedMarket.borrowRatePerSlotE18.val = (1 : U32).val * 10 ^ 14 ∧
      (252144 : U64).val =
        (⟨252244, 0⟩ : Clock).slot.val - raisedMarket.lastUpdateSlot.val ∧
      raisedMarket.borrowIndexE18.val * raisedMarket.borrowRatePerSlotE18.val *
        (252144 : U64).val ≤ 2 ^ 128 - 1 ∧
      fullDebt.borrowed.val * (accrueMarket raisedMarket ⟨252244, 0⟩).borrowIndexE18.val ≤
        2 ^ 128 - 1 ∧
      fullDebt.borrowed.val * (accrueMarket raisedMarket ⟨252244, 0⟩).borrowIndexE18.val /
        raisedMarket.borrowIndexE18.val ≤ 2 ^ 64 - 1 ∧
      (accruePosition fullDebt (accrueMarket raisedMarket ⟨252244, 0⟩)).borrowed.val =
        2 ^ 64 - 1 ∧
      accrueInterest fullDebt.borrowed 1 252144 = .error .panicked := by
  refine ⟨?_, ?_, rfl, ?_, ?_, ?_, ?_, ?_, ?_, error_where ?_⟩ <;> decide +kernel

/-- The circuit returns the debt and all its interest, or aborts. -/
def AccruesExactly (borrow : U64) (rateBps : U32) (slotsElapsed : U64) : Prop :=
  (∃ accrued, accrueInterest borrow rateBps slotsElapsed = .ok accrued ∧
      accrued.val = borrow.val + interestOf borrow rateBps slotsElapsed) ∨
    accrueInterest borrow rateBps slotsElapsed = .error .panicked

section Exactness

variable {borrow : U64} {rateBps : U32} {slots : U64}

theorem multiply_error {a b : U128} {e : ProgramError} (failed : multiply a b = .error e) :
    e = .panicked := by
  unfold multiply okOr at failed
  split at failed
  · cases failed
  · exact (Except.error.inj failed).symm

theorem accrueInterest_error {e : ProgramError}
    (failed : accrueInterest borrow rateBps slots = .error e) : e = .panicked := by
  simp only [accrueInterest, bind_error] at failed
  rcases failed with failed | ⟨rated, _, failed | ⟨scaled, _, failed⟩⟩
  · exact multiply_error failed
  · exact multiply_error failed
  · unfold okOr at failed
    split at failed
    · cases failed
    · exact (Except.error.inj failed).symm

theorem accruesExactly_iff :
    AccruesExactly borrow rateBps slots ↔
      ∀ accrued, accrueInterest borrow rateBps slots = .ok accrued →
        accrued.val = borrow.val + interestOf borrow rateBps slots := by
  unfold AccruesExactly
  cases ran : accrueInterest borrow rateBps slots with
  | ok returned => simp
  | error e => simp [accrueInterest_error ran]

theorem accrueInterest_fits {accrued : U64}
    (ran : accrueInterest borrow rateBps slots = .ok accrued) :
    borrow.val * (rateBps.val * slots.val) ≤ 2 ^ 128 - 1 := by
  simp only [accrueInterest, bind_ok, multiply_ok, Uint.val_widen] at ran
  rcases ran with ⟨rated, rates, scaled, elapses, _⟩
  rw [← Nat.mul_assoc, ← rates, ← elapses]
  exact scaled.val_le_max

end Exactness

/-- The cast of the interest forgets what is above 64 bits, and then the sum may fit:
the circuit is exact but where the product fits, the interest does not and what the
cast leaves of it can be added. -/
theorem interest_exact_iff (borrow : U64) (rateBps : U32) (slots : U64) :
    AccruesExactly borrow rateBps slots ↔
      2 ^ 128 ≤ borrow.val * (rateBps.val * slots.val) ∨
        interestOf borrow rateBps slots < 2 ^ 64 ∨
        2 ^ 64 ≤ borrow.val + interestOf borrow rateBps slots % 2 ^ 64 := by
  rw [accruesExactly_iff]
  constructor
  · intro exact
    by_contra wraps
    simp only [not_or, not_le, not_lt] at wraps
    rcases wraps with ⟨fits, large, room⟩
    have ran : accrueInterest borrow rateBps slots = .ok ⟨_, room⟩ :=
      (accrueInterest_ok (by omega)).mpr rfl
    have same : borrow.val + interestOf borrow rateBps slots % 2 ^ 64 =
        borrow.val + interestOf borrow rateBps slots := exact _ ran
    have below := Nat.mod_lt (interestOf borrow rateBps slots) (Nat.two_pow_pos 64)
    omega
  · intro condition accrued ran
    have fits := accrueInterest_fits ran
    have returned : accrued.val = borrow.val + interestOf borrow rateBps slots % 2 ^ 64 :=
      (accrueInterest_ok fits).mp ran
    have bound := accrued.isLt
    rcases condition with wide | narrow | none
    · omega
    · rw [returned, Nat.mod_eq_of_lt narrow]
    · omega

/-- A billion tokens at one basis point a slot: after a day the circuit returns little
more than the debt it was given. -/
theorem interest_exact_wraps :
    ¬ AccruesExactly 1000000000000000000 1 184468 ∧
      accrueInterest 1000000000000000000 1 184468 = .ok 1000055926290448384 := by
  have ran : accrueInterest 1000000000000000000 1 184468 = .ok 1000055926290448384 := by
    decide +kernel
  refine ⟨?_, ran⟩
  intro exact
  have short : (1000055926290448384 : U64).val ≠
      (1000000000000000000 : U64).val + interestOf 1000000000000000000 1 184468 := by decide +kernel
  exact short (accruesExactly_iff.mp exact _ ran)

end ShadowLend
