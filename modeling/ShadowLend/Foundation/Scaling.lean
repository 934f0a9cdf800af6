import Mathlib.Algebra.Order.Floor.Semifield
import Mathlib.Algebra.Order.Field.Basic
import Mathlib.Algebra.BigOperators.Group.List.Basic
import Mathlib.Data.Nat.ModEq
import Mathlib.Tactic.Ring

/-! Quantities scaled by an integer power of a base, in an ordered field and in the
natural numbers. Below the point the natural numbers truncate, and above it they
are exact until the factor or the product reaches a ceiling. -/

namespace Scaling

variable {K : Type} [Field K] {base : ℕ} {scale : ℤ}

theorem zpow_whole (whole : 0 ≤ scale) : (base : K) ^ scale = ((base ^ scale.toNat : ℕ) : K) := by
  rw [Nat.cast_pow, ← zpow_natCast, Int.toNat_of_nonneg whole]

theorem zpow_divided (divided : scale < 0) :
    (base : K) ^ scale = (((base ^ (-scale).toNat : ℕ) : K))⁻¹ := by
  have places : 0 ≤ -scale := by omega
  rw [← zpow_whole places, zpow_neg, inv_inv]

section Truncation

variable [LinearOrder K] [IsStrictOrderedRing K] [FloorSemiring K]

theorem floor_whole (value : ℕ) (whole : 0 ≤ scale) :
    ⌊(value : K) * (base : K) ^ scale⌋₊ = value * base ^ scale.toNat := by
  rw [zpow_whole whole, ← Nat.cast_mul, Nat.floor_natCast]

theorem floor_divided (value : ℕ) (divided : scale < 0) :
    ⌊(value : K) * (base : K) ^ scale⌋₊ = value / base ^ (-scale).toNat := by
  rw [zpow_divided divided, ← div_eq_mul_inv, Nat.floor_div_eq_div]

theorem floor_div_whole (value price : ℕ) (whole : 0 ≤ scale) :
    ⌊(value : K) / (price * (base : K) ^ scale)⌋₊ = value / (price * base ^ scale.toNat) := by
  rw [zpow_whole whole, ← Nat.cast_mul, Nat.floor_div_eq_div]

theorem floor_div_divided (value price : ℕ) (divided : scale < 0) :
    ⌊(value : K) / (price * (base : K) ^ scale)⌋₊ = value * base ^ (-scale).toNat / price := by
  rw [zpow_divided divided, mul_comm, div_mul_eq_div_div, div_inv_eq_mul, ← Nat.cast_mul,
    Nat.floor_div_eq_div]

end Truncation

/-- A factor that is cut off at the ceiling of the product may be left whole. -/
theorem capped_factor (value factor ceiling : ℕ) :
    min (value * min factor ceiling) ceiling = min (value * factor) ceiling := by
  rcases Nat.eq_zero_or_pos value with rfl | positive
  · simp
  · rcases le_total factor ceiling with below | above
    · rw [min_eq_left below]
    · have least : ceiling ≤ value * ceiling := Nat.le_mul_of_pos_left ceiling positive
      have whole : ceiling ≤ value * factor := least.trans (Nat.mul_le_mul_left value above)
      rw [min_eq_right above, min_eq_right least, min_eq_right whole]

/-- A divisor cut off at a ceiling makes no quotient of a value below it too large. -/
theorem capped_divisor {value divisor ceiling : ℕ} (below : value < ceiling) :
    value / min divisor ceiling * divisor ≤ value := by
  rcases le_total divisor ceiling with fits | cut
  · rw [min_eq_left fits]
    exact Nat.div_mul_le_self value divisor
  · rw [min_eq_right cut, Nat.div_eq_of_lt below, Nat.zero_mul]
    exact Nat.zero_le value

/-- A cut divisor costs nothing exactly as long as it is whole or the value is below it. -/
theorem capped_divisor_exact_iff {value divisor ceiling cap : ℕ} (positive : 0 < ceiling)
    (room : 0 < cap) (within : value ≤ ceiling) :
    min (value / min divisor ceiling) cap = min (value / divisor) cap ↔
      divisor ≤ ceiling ∨ value < ceiling := by
  rcases le_or_gt divisor ceiling with fits | cut
  · rw [min_eq_left fits]
    exact iff_of_true rfl (Or.inl fits)
  · have below : value / ceiling = 0 ↔ value < ceiling := Nat.div_eq_zero_iff_lt positive
    rw [min_eq_right cut.le, Nat.div_eq_of_lt (within.trans_lt cut), Nat.zero_min,
      or_iff_right (not_le.mpr cut), ← below]
    omega

/-- Multiplied and divided by one factor that is cut off both times, nothing grows. -/
theorem capped_round_trip (value factor ceiling : ℕ) :
    min (value * factor) ceiling / min factor ceiling ≤ value := by
  rcases le_total factor ceiling with fits | cut
  · rw [min_eq_left fits, mul_comm]
    exact Nat.div_le_of_le_mul (min_le_left _ _)
  · rcases Nat.eq_zero_or_pos value with zero | positive
    · rw [zero, Nat.zero_mul, Nat.zero_min, Nat.zero_div]
    · rw [min_eq_right cut]
      have once : min (value * factor) ceiling / ceiling ≤ 1 :=
        Nat.div_le_of_le_mul ((min_le_right _ _).trans (Nat.mul_one _).ge)
      exact once.trans positive

/-- Divided by one factor and by another in turn, a product with both loses at most
a quotient of the first and a unit. -/
theorem divided_twice {amount price places : ℕ} (priced : 0 < price) (divides : 0 < places) :
    amount * price < (amount * price / places * places / price + 1) * price + places := by
  have first := Nat.lt_div_mul_add (a := amount * price) divides
  have second := Nat.lt_div_mul_add (a := amount * price / places * places) priced
  rw [Nat.add_mul, Nat.one_mul]
  omega

/-- A cut ahead of a division does not show through a later, lower one. -/
theorem capped_quotient {value divisor ceiling cap : ℕ} (room : cap ≤ ceiling / divisor) :
    min (min value ceiling / divisor) cap = min (value / divisor) cap := by
  have monotone : Monotone (· / divisor) := fun _ _ below => Nat.div_le_div_right below
  have split : min value ceiling / divisor = min (value / divisor) (ceiling / divisor) :=
    monotone.map_min
  rw [split, min_assoc, min_eq_right room]

/-- A fraction of an amount, taken through a number at least as large as it and back,
is truncated twice and loses no more than a unit by it. -/
theorem through_larger {amount through divisor : ℕ} (factor : ℕ) (positive : 0 < through)
    (larger : amount ≤ through) (divides : 0 < divisor) :
    amount * (through * factor / divisor) / through ≤ amount * factor / divisor ∧
      amount * factor / divisor ≤ amount * (through * factor / divisor) / through + 1 := by
  have floor := Nat.div_mul_le_self (through * factor) divisor
  have ceil := Nat.lt_div_mul_add (a := through * factor) divides
  constructor
  · rw [Nat.le_div_iff_mul_le divides]
    apply Nat.le_of_mul_le_mul_right ?_ positive
    calc
      _ = amount * (through * factor / divisor) / through * through * divisor := by ring
      _ ≤ amount * (through * factor / divisor) * divisor :=
        Nat.mul_le_mul_right _ (Nat.div_mul_le_self _ _)
      _ = amount * (through * factor / divisor * divisor) := by ring
      _ ≤ amount * (through * factor) := Nat.mul_le_mul_left _ floor
      _ = amount * factor * through := by ring
  · rw [← Nat.sub_le_iff_le_add, Nat.le_div_iff_mul_le positive, Nat.sub_mul,
      Nat.sub_le_iff_le_add]
    apply Nat.le_of_mul_le_mul_right ?_ divides
    calc
      _ = amount * factor / divisor * divisor * through := by ring
      _ ≤ amount * factor * through := Nat.mul_le_mul_right _ (Nat.div_mul_le_self _ _)
      _ = amount * (through * factor) := by ring
      _ ≤ amount * (through * factor / divisor * divisor + divisor) :=
        Nat.mul_le_mul_left _ ceil.le
      _ = amount * (through * factor / divisor) * divisor + amount * divisor := by ring
      _ ≤ amount * (through * factor / divisor) * divisor + through * divisor :=
        Nat.add_le_add_left (Nat.mul_le_mul_right _ larger) _
      _ = _ := by ring

section Sums

variable {values : List ℕ}

/-- Truncated one by one, the terms of a sum lose at least what the sum does. -/
theorem sum_truncated_le (values : List ℕ) (factor divisor : ℕ) :
    (values.map fun value => value * factor / divisor).sum ≤ values.sum * factor / divisor := by
  induction values with
  | nil => exact Nat.zero_le _
  | cons value tail ih =>
      rw [List.map_cons, List.sum_cons, List.sum_cons, Nat.add_mul]
      exact (Nat.add_le_add_left ih _).trans Nat.div_add_div_le_add_div

/-- A sum with at most one term is that term, also after a map that keeps zero. -/
theorem sum_map_single {f : ℕ → ℕ} (zero : f 0 = 0)
    (single : (values.filter (· ≠ 0)).length ≤ 1) : (values.map f).sum = f values.sum := by
  induction values with
  | nil => exact zero.symm
  | cons value tail ih =>
      by_cases nothing : value = 0
      · rw [nothing, List.filter_cons_of_neg (by simp)] at single
        rw [nothing, List.map_cons, List.sum_cons, List.sum_cons, zero, Nat.zero_add, Nat.zero_add]
        exact ih single
      · rw [List.filter_cons_of_pos (by simpa using nothing), List.length_cons] at single
        have none : (tail.filter (· ≠ 0)).length = 0 := by omega
        have empty : ∀ other ∈ tail, other = 0 := by
          simpa [List.filter_eq_nil_iff] using none
        have rest : tail.sum = 0 := List.sum_eq_zero empty
        rw [List.map_cons, List.sum_cons, List.sum_cons, ih (by omega), rest, zero, Nat.add_zero,
          Nat.add_zero]

end Sums

end Scaling
