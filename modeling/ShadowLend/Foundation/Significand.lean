import Mathlib.Data.Nat.Log
import Mathlib.Algebra.Order.Ring.Nat

/-! Whole numbers kept to a fixed count of leading bits, the nearest such number and the
even one where two are as near. -/

namespace Significand

/-- The distance between neighbours at the size of a number. -/
def spacing (bits value : ℕ) : ℕ := 2 ^ (value.log2 + 1 - bits)

def nearest (bits value : ℕ) : ℕ :=
  let step := spacing bits value
  let below := value / step * step
  if 2 * (value % step) < step ∨ (2 * (value % step) = step ∧ value / step % 2 = 0) then below
  else below + step

theorem spacing_pos (bits value : ℕ) : 0 < spacing bits value := Nat.two_pow_pos _

/-- Exactly the multiples of the spacing are kept. -/
theorem nearest_eq_iff (bits value : ℕ) :
    nearest bits value = value ↔ spacing bits value ∣ value := by
  have step := spacing_pos bits value
  have split : value / spacing bits value * spacing bits value + value % spacing bits value =
      value := Nat.div_add_mod' value _
  have below := Nat.mod_lt value step
  rw [nearest, Nat.dvd_iff_mod_eq_zero]
  split
  · omega
  · rename_i up
    have rest : value % spacing bits value ≠ 0 := by
      intro none
      exact up (Or.inl (by omega))
    exact iff_of_false (by omega) rest

end Significand
