import Mathlib.Algebra.Order.Monoid.Unbundled.Basic
import Mathlib.Data.Nat.ModEq

/-! A quantity that grows linearly, with each growth truncated and cut off at a
ceiling. Updated on the way it falls behind a single update, by no more than one
unit for each update that was added. -/

namespace Instalments

/-- One update: the quantity grows over some periods, up to a ceiling. -/
def advance (grow : ℕ → ℕ → ℕ) (ceiling value periods : ℕ) : ℕ :=
  min (value + grow value periods) ceiling

/-- What a growth needs for its periods to be divided at a cost of one unit. -/
structure Splits (grow : ℕ → ℕ → ℕ) : Prop where
  mono : ∀ value larger periods, value ≤ larger → grow value periods ≤ grow larger periods
  split : ∀ value first rest, grow value (first + rest) ≤ grow value first + grow value rest + 1

section Updates

variable {grow : ℕ → ℕ → ℕ} {ceiling : ℕ}

theorem le_advance {value : ℕ} (within : value ≤ ceiling) (periods : ℕ) :
    value ≤ advance grow ceiling value periods :=
  le_min (Nat.le_add_right _ _) within

theorem advance_split (splits : Splits grow) (value first rest : ℕ) :
    advance grow ceiling value (first + rest) ≤
      advance grow ceiling (advance grow ceiling value first) rest + 1 := by
  have divided := splits.split value first rest
  rcases le_total ceiling (value + grow value first) with full | room
  · have stays : advance grow ceiling value first = ceiling := min_eq_right full
    rw [stays, advance, advance]
    omega
  · have moved : advance grow ceiling value first = value + grow value first := min_eq_left room
    have more := splits.mono value (value + grow value first) rest (Nat.le_add_right _ _)
    rw [moved, advance, advance]
    omega

end Updates

def truncated (rate scale ceiling value periods : ℕ) : ℕ :=
  min (value * rate * periods) ceiling / scale

section Truncated

variable {rate scale ceiling value periods : ℕ}

theorem truncated_splits (rate scale ceiling : ℕ) : Splits (truncated rate scale ceiling) := by
  constructor
  · intro value larger periods below
    apply Nat.div_le_div_right
    apply min_le_min_right
    exact Nat.mul_le_mul_right _ (Nat.mul_le_mul_right _ below)
  · intro value first rest
    have product : min (value * rate * (first + rest)) ceiling ≤
        min (value * rate * first) ceiling + min (value * rate * rest) ceiling := by
      rw [Nat.mul_add]
      omega
    calc
      truncated rate scale ceiling value (first + rest) ≤
          (min (value * rate * first) ceiling + min (value * rate * rest) ceiling) / scale :=
        Nat.div_le_div_right product
      _ ≤ _ := Nat.add_div_le_div_add_div_add_one _ _ _

theorem truncated_eq_min :
    truncated rate scale ceiling value periods =
      min (value * rate * periods / scale) (ceiling / scale) := by
  have monotone : Monotone (· / scale) := fun _ _ below => Nat.div_le_div_right below
  exact monotone.map_min

theorem truncated_le :
    truncated rate scale ceiling value periods ≤ value * rate * periods / scale :=
  Nat.div_le_div_right (min_le_left _ _)

theorem advance_truncated_le :
    advance (truncated rate scale ceiling) ceiling value periods ≤
      value + value * rate * periods / scale :=
  (min_le_left _ _).trans (Nat.add_le_add_left truncated_le _)

/-- The cut costs nothing exactly as long as the growth is within that of the ceiling. -/
theorem truncated_exact_iff :
    truncated rate scale ceiling value periods = value * rate * periods / scale ↔
      value * rate * periods / scale ≤ ceiling / scale := by
  rw [truncated_eq_min]
  exact min_eq_left_iff

theorem truncated_eq_zero_iff (scalePos : 0 < scale) (room : scale ≤ ceiling) :
    truncated rate scale ceiling value periods = 0 ↔ value * rate * periods < scale := by
  have whole : ceiling / scale ≠ 0 := (Nat.div_pos room scalePos).ne'
  rw [truncated_eq_min, ← Nat.div_eq_zero_iff_lt scalePos, Nat.min_eq_zero_iff, or_iff_left whole]

end Truncated

end Instalments
