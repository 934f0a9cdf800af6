import Mathlib.Algebra.Order.Field.Basic
import Mathlib.Algebra.Order.Ring.Pow
import Mathlib.Data.Nat.Cast.Order.Field
import Mathlib.Tactic.Linarith
import Mathlib.Tactic.Positivity

/-! Debts kept against a growing index. An index that grows linearly between its
updates stays under the compound growth at the same rate, however the periods are
divided. A debt at an index is worth a number of shares, which restating it at a
later index with truncation cannot raise, and lowers by less than one unit's share. -/

namespace Compounding

variable {K : Type} [Field K] [LinearOrder K] [IsStrictOrderedRing K]

/-- A value that grew from `base` at most as compounding over `periods` does. -/
def Within (rate base value : K) (periods : ℕ) : Prop := value ≤ base * (1 + rate) ^ periods

omit [IsStrictOrderedRing K] in
theorem within_start (rate base : K) : Within rate base base 0 := by
  rw [Within, pow_zero, mul_one]

/-- A linear update over any number of periods keeps to the compound bound. -/
theorem Within.accrue {rate base value value' : K} {periods more : ℕ}
    (within : Within rate base value periods) (rateNonneg : 0 ≤ rate) (valueNonneg : 0 ≤ value)
    (grown : value' ≤ value * (1 + more * rate)) : Within rate base value' (periods + more) := by
  have bernoulli : 1 + more * rate ≤ (1 + rate) ^ more :=
    one_add_mul_le_pow (by linarith) more
  have factor : 0 ≤ (1 + rate) ^ more := by positivity
  calc
    value' ≤ value * (1 + more * rate) := grown
    _ ≤ value * (1 + rate) ^ more := mul_le_mul_of_nonneg_left bernoulli valueNonneg
    _ ≤ base * (1 + rate) ^ periods * (1 + rate) ^ more := mul_le_mul_of_nonneg_right within factor
    _ = base * (1 + rate) ^ (periods + more) := by rw [pow_add, mul_assoc]

/-- The bound a debt of some shares has while the index keeps to its own. -/
theorem debt_within {rate base index principal debt : K} {periods : ℕ} (basePos : 0 < base)
    (indexPos : 0 < index) (principalNonneg : 0 ≤ principal)
    (shares : debt / index ≤ principal / base) (within : Within rate base index periods) :
    Within rate principal debt periods := by
  have worth : 0 ≤ principal / base := div_nonneg principalNonneg basePos.le
  calc
    debt = debt / index * index := (div_mul_cancel₀ debt indexPos.ne').symm
    _ ≤ principal / base * index := mul_le_mul_of_nonneg_right shares indexPos.le
    _ ≤ principal / base * (base * (1 + rate) ^ periods) := mul_le_mul_of_nonneg_left within worth
    _ = principal * (1 + rate) ^ periods := by
      rw [← mul_assoc, div_mul_cancel₀ principal basePos.ne']

section Restating

variable {debt debt' index index' : ℕ}

/-- Truncation only ever gives shares up. -/
theorem shares_le (indexPos : 0 < index) (indexPos' : 0 < index')
    (restated : debt' * index ≤ debt * index') : (debt' : K) / index' ≤ debt / index := by
  have positive : (0 : K) < index := Nat.cast_pos.mpr indexPos
  have positive' : (0 : K) < index' := Nat.cast_pos.mpr indexPos'
  rw [div_le_div_iff₀ positive' positive]
  exact_mod_cast restated

/-- A truncation gives up less than the share of one unit at the later index. -/
theorem shares_lost (indexPos : 0 < index) (indexPos' : 0 < index')
    (restated : debt * index' < (debt' + 1) * index) :
    (debt : K) / index - 1 / index' < debt' / index' := by
  have positive : (0 : K) < index := Nat.cast_pos.mpr indexPos
  have positive' : (0 : K) < index' := Nat.cast_pos.mpr indexPos'
  rw [sub_lt_iff_lt_add, ← add_div, div_lt_div_iff₀ positive positive']
  exact_mod_cast restated

end Restating

end Compounding
