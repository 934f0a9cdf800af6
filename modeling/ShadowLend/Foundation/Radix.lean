import Mathlib.Data.Nat.Digits.Lemmas

/-! A number as a list of its digits, lowest first, multiplied and added to in one pass
with a carry. -/

namespace Radix

/-- One pass: every digit is scaled, takes in the carry and hands on what is left. -/
def mulAdd (base factor : ℕ) : List ℕ → ℕ → List ℕ × ℕ
  | [], carry => ([], carry)
  | digit :: rest, carry =>
      let sum := carry + digit * factor
      let after := mulAdd base factor rest (sum / base)
      (sum % base :: after.1, after.2)

variable {base factor : ℕ}

/-- The pass and the digits of its last carry make the digits of the new number. -/
theorem digits_mulAdd (large : 1 < base) (scales : 0 < factor) (value carry : ℕ) :
    (mulAdd base factor (Nat.digits base value) carry).1 ++
        Nat.digits base (mulAdd base factor (Nat.digits base value) carry).2 =
      Nat.digits base (factor * value + carry) := by
  induction value using Nat.strongRecOn generalizing carry with
  | ind value ih =>
      rcases Nat.eq_zero_or_pos value with zero | positive
      · subst value
        rw [Nat.digits_zero, mulAdd, Nat.mul_zero, Nat.zero_add]
        rfl
      · have split : factor * value + carry =
            (carry + value % base * factor) + base * (factor * (value / base)) := by
          conv_lhs => rw [← Nat.mod_add_div value base]
          ring
        have product : 0 < factor * value := Nat.mul_pos scales positive
        have low : (factor * value + carry) % base = (carry + value % base * factor) % base := by
          rw [split, Nat.add_mul_mod_self_left]
        have high : (factor * value + carry) / base =
            factor * (value / base) + (carry + value % base * factor) / base := by
          rw [split, Nat.add_mul_div_left _ _ (by omega), Nat.add_comm]
        have rest := ih (value / base) (Nat.div_lt_self positive large)
          ((carry + value % base * factor) / base)
        have whole : 0 < factor * value + carry := Nat.add_pos_left product carry
        rw [Nat.digits_def' large positive, Nat.digits_def' large whole, low, high]
        exact congrArg (_ :: ·) rest

/-- A carry below the factor stays there. -/
theorem mulAdd_carry_lt {digits : List ℕ} {carry : ℕ} (valid : ∀ digit ∈ digits, digit < base)
    (small : carry < factor) : (mulAdd base factor digits carry).2 < factor := by
  induction digits generalizing carry with
  | nil => exact small
  | cons digit rest ih =>
      have top := valid digit List.mem_cons_self
      apply ih fun other member => valid other (List.mem_cons_of_mem _ member)
      rw [Nat.div_lt_iff_lt_mul (by omega)]
      calc
        carry + digit * factor < factor + digit * factor := Nat.add_lt_add_right small _
        _ = (digit + 1) * factor := by ring
        _ ≤ base * factor := Nat.mul_le_mul_right _ top
        _ = factor * base := Nat.mul_comm _ _

/-- Digits with a nonzero one on top are those of their value. -/
theorem digits_ofDigits_reverse (large : 1 < base) {head : ℕ} {tail : List ℕ}
    (valid : ∀ digit ∈ head :: tail, digit < base) (nonzero : head ≠ 0) :
    Nat.digits base (Nat.ofDigits base (head :: tail).reverse) = (head :: tail).reverse := by
  apply Nat.digits_ofDigits base large
  · intro digit member
    exact valid digit (List.mem_reverse.mp member)
  · intro _
    rw [List.getLast_reverse]
    exact nonzero

/-- Reading from the top is the fold which shifts by one digit at a time. -/
theorem foldl_eq_ofDigits (digits : List ℕ) :
    digits.foldl (fun value digit => base * value + digit) 0 =
      Nat.ofDigits base digits.reverse := by
  induction digits using List.reverseRecOn with
  | nil => rfl
  | append_singleton digits digit ih =>
      rw [List.foldl_append, List.foldl_cons, List.foldl_nil, ih, List.reverse_append,
        List.reverse_singleton, List.singleton_append, Nat.ofDigits_cons, Nat.add_comm]

theorem ofDigits_reverse_zeros (base count : ℕ) (digits : List ℕ) :
    Nat.ofDigits base (List.replicate count 0 ++ digits).reverse =
      Nat.ofDigits base digits.reverse := by
  rw [List.reverse_append, List.reverse_replicate, Nat.ofDigits_append_replicate_zero]

theorem ofDigits_reverse_append (base : ℕ) (high low : List ℕ) :
    Nat.ofDigits base (high ++ low).reverse =
      Nat.ofDigits base high.reverse * base ^ low.length + Nat.ofDigits base low.reverse := by
  rw [List.reverse_append, Nat.ofDigits_append, List.length_reverse]
  ring

/-- The first digits of a number are its quotient by the power of the others. -/
theorem ofDigits_reverse_take (large : 1 < base) {digits : List ℕ}
    (valid : ∀ digit ∈ digits, digit < base) (count : ℕ) :
    Nat.ofDigits base (digits.take count).reverse =
      Nat.ofDigits base digits.reverse / base ^ (digits.length - count) := by
  have rest : Nat.ofDigits base (digits.drop count).reverse < base ^ (digits.length - count) := by
    have bound := Nat.ofDigits_lt_base_pow_length large (l := (digits.drop count).reverse)
      fun digit member => valid digit (List.mem_of_mem_drop (List.mem_reverse.mp member))
    rwa [List.length_reverse, List.length_drop] at bound
  have split := ofDigits_reverse_append base (digits.take count) (digits.drop count)
  rw [List.take_append_drop, List.length_drop] at split
  rw [split, Nat.mul_comm, Nat.mul_add_div (Nat.pow_pos (by omega)), Nat.div_eq_of_lt rest,
    Nat.add_zero]

/-- The top digit of a positive number is not zero. -/
theorem exists_leading (base : ℕ) {number : ℕ} (positive : number ≠ 0) :
    ∃ top rest, top ≠ 0 ∧ (Nat.digits base number).reverse = top :: rest := by
  have present : Nat.digits base number ≠ [] := Nat.digits_ne_nil_iff_ne_zero.mpr positive
  have last := Nat.getLast_digit_ne_zero base positive
  cases reversed : (Nat.digits base number).reverse with
  | nil => exact absurd (List.reverse_eq_nil_iff.mp reversed) present
  | cons top rest =>
      have digits : Nat.digits base number = rest.reverse ++ [top] := by
        rw [← List.reverse_reverse (Nat.digits base number), reversed, List.reverse_cons]
      simp only [digits, List.getLast_append_singleton] at last
      exact ⟨top, rest, last, rfl⟩

section Zeros

variable {α : Type} [DecidableEq α]

def leadingZeros (zero : α) (digits : List α) : ℕ :=
  (digits.takeWhile fun digit => digit = zero).length

theorem leadingZeros_replicate (zero : α) (count : ℕ) :
    leadingZeros zero (List.replicate count zero) = count := by
  simp [leadingZeros]

theorem leadingZeros_append {zero : α} (count : ℕ) {head : α} (nonzero : head ≠ zero)
    (tail : List α) : leadingZeros zero (List.replicate count zero ++ head :: tail) = count := by
  simp [leadingZeros, nonzero]

/-- Any digits are some zeros and then nothing, or a nonzero digit and the others. -/
theorem zeros_cases (zero : α) (digits : List α) :
    ∃ count, digits = List.replicate count zero ∨
      ∃ head tail, head ≠ zero ∧ digits = List.replicate count zero ++ head :: tail := by
  induction digits with
  | nil => exact ⟨0, Or.inl rfl⟩
  | cons digit rest ih =>
      by_cases leads : digit = zero
      · subst leads
        rcases ih with ⟨count, all | ⟨head, tail, nonzero, split⟩⟩
        · exact ⟨count + 1, Or.inl (congrArg (digit :: ·) all)⟩
        · exact ⟨count + 1, Or.inr ⟨head, tail, nonzero, congrArg (digit :: ·) split⟩⟩
      · exact ⟨0, Or.inr ⟨digit, rest, leads, rfl⟩⟩

end Zeros

end Radix
