import ShadowLend.Foundation.Radix
import ShadowLend.Foundation.Wire

/-! The client's base58 encoder: the bytes after the leading zeros are read into a digit
array which starts as a single zero, and every leading zero is written as the first
letter. -/

namespace ShadowLend

def alphabet : List Char := "123456789ABCDEFGHJKLMNPQRSTUVWXYZabcdefghijkmnopqrstuvwxyz".toList

def letter (digit : ℕ) : Char := alphabet.getD digit '1'

/-- `while (carry > 0)`. -/
def pushCarry (carry : ℕ) : List ℕ :=
  if carry > 0 then carry % 58 :: pushCarry (carry / 58) else []
termination_by carry
decreasing_by omega

/-- The body of the loop over the bytes. Its sums stay below 58 * 256, where the shift
and the truncation to 32 bits are those of the integers. -/
def absorbByte (digits : List ℕ) (byte : Byte) : List ℕ :=
  let pass := Radix.mulAdd 58 256 digits byte.val
  pass.1 ++ pushCarry pass.2

def base58Digits (bytes : List Byte) : List ℕ :=
  (bytes.drop (Radix.leadingZeros 0 bytes)).foldl absorbByte [0]

def base58Encode (bytes : List Byte) : List Char :=
  List.replicate (Radix.leadingZeros 0 bytes) (letter 0) ++ (base58Digits bytes).reverse.map letter

/-- What the encoding means: each leading `1` is a zero byte, the rest is a number. -/
def base58Decode (text : List Char) : Option (List Byte) :=
  (text.mapM fun char => alphabet.idxOf? char).map fun digits =>
    List.replicate (Radix.leadingZeros 0 digits) 0 ++
      (Nat.digits 256 (Nat.ofDigits 58 digits.reverse)).reverse.map (Fin.ofNat (2 ^ 8))

def bigEndian (bytes : List Byte) : ℕ := Nat.ofDigits 256 (bytes.map Fin.val).reverse

theorem pushCarry_eq (carry : ℕ) : pushCarry carry = Nat.digits 58 carry := by
  induction carry using Nat.strongRecOn with
  | ind carry ih =>
      rw [pushCarry]
      split
      · rename_i positive
        rw [Nat.digits_def' (by decide) positive, ih _ (Nat.div_lt_self positive (by decide))]
      · rename_i zero
        rw [Nat.eq_zero_of_not_pos zero, Nat.digits_zero]

theorem idxOf_letter {digit : ℕ} (valid : digit < 58) :
    alphabet.idxOf? (letter digit) = some digit := by
  have all : ∀ d : Fin 58, alphabet.idxOf? (letter d.val) = some d.val := by decide
  exact all ⟨digit, valid⟩

theorem absorbByte_digits (value : ℕ) (byte : Byte) :
    absorbByte (Nat.digits 58 value) byte = Nat.digits 58 (256 * value + byte.val) := by
  rw [absorbByte, pushCarry_eq]
  exact Radix.digits_mulAdd (by decide) (by decide) value byte.val

/-- The first byte meets the initial zero, which is no digit of any number. -/
theorem absorbByte_first {byte : Byte} (nonzero : byte ≠ 0) :
    absorbByte [0] byte = Nat.digits 58 byte.val := by
  have positive : 0 < byte.val := Nat.pos_of_ne_zero fun zero => nonzero (Fin.ext zero)
  rw [Nat.digits_def' (by decide) positive, absorbByte, pushCarry_eq]
  simp [Radix.mulAdd]

/-- After any number of bytes the array holds the digits of the number they are. -/
theorem foldl_absorbByte (bytes : List Byte) (value : ℕ) :
    bytes.foldl absorbByte (Nat.digits 58 value) =
      Nat.digits 58 ((bytes.map Fin.val).foldl (fun value digit => 256 * value + digit) value) := by
  induction bytes generalizing value with
  | nil => rfl
  | cons head tail ih =>
      rw [List.foldl_cons, absorbByte_digits, ih, List.map_cons, List.foldl_cons]

section Shapes

variable {count : ℕ} {head : Byte} {tail : List Byte}

theorem base58Digits_zeros : base58Digits (List.replicate count 0) = [0] := by
  rw [base58Digits, Radix.leadingZeros_replicate, List.drop_eq_nil_of_le (by simp)]
  rfl

theorem base58Digits_number (nonzero : head ≠ 0) :
    base58Digits (List.replicate count 0 ++ head :: tail) =
      Nat.digits 58 (bigEndian (head :: tail)) := by
  have rest : (List.replicate count 0 ++ head :: tail).drop count = head :: tail :=
    List.drop_left' List.length_replicate
  rw [base58Digits, Radix.leadingZeros_append count nonzero tail, rest, List.foldl_cons,
    absorbByte_first nonzero, foldl_absorbByte, bigEndian, ← Radix.foldl_eq_ofDigits, List.map_cons,
    List.foldl_cons, Nat.mul_zero, Nat.zero_add]

theorem base58Digits_lt (bytes : List Byte) : ∀ digit ∈ base58Digits bytes, digit < 58 := by
  intro digit member
  rcases Radix.zeros_cases 0 bytes with ⟨count, rfl | ⟨head, tail, nonzero, rfl⟩⟩
  · rw [base58Digits_zeros, List.mem_singleton] at member
    omega
  · rw [base58Digits_number nonzero] at member
    exact Nat.digits_lt_base (by decide) member

theorem decode_letters {digits : List ℕ} (valid : ∀ digit ∈ digits, digit < 58) :
    base58Decode (digits.map letter) =
      some (List.replicate (Radix.leadingZeros 0 digits) 0 ++
        (Nat.digits 256 (Nat.ofDigits 58 digits.reverse)).reverse.map (Fin.ofNat (2 ^ 8))) := by
  have read : (digits.map letter).mapM (fun char => alphabet.idxOf? char) = some digits := by
    induction digits with
    | nil => rfl
    | cons head tail ih =>
        rw [List.map_cons, List.mapM_cons, idxOf_letter (valid head List.mem_cons_self),
          ih fun digit member => valid digit (List.mem_cons_of_mem _ member)]
        rfl
  rw [base58Decode, read]
  rfl

theorem encode_eq (bytes : List Byte) :
    base58Encode bytes =
      (List.replicate (Radix.leadingZeros 0 bytes) 0 ++
        (base58Digits bytes).reverse).map letter := by
  rw [base58Encode, List.map_append, List.map_replicate]

theorem encode_digits_lt (bytes : List Byte) :
    ∀ digit ∈ List.replicate (Radix.leadingZeros 0 bytes) 0 ++ (base58Digits bytes).reverse,
      digit < 58 := by
  intro digit member
  rcases List.mem_append.mp member with zero | digit'
  · rw [(List.mem_replicate.mp zero).2]
    decide
  · exact base58Digits_lt bytes digit (List.mem_reverse.mp digit')

theorem decode_zeros (count : ℕ) :
    base58Decode (base58Encode (List.replicate count 0)) = some (List.replicate (count + 1) 0) := by
  rw [encode_eq, decode_letters (encode_digits_lt _), base58Digits_zeros,
    Radix.leadingZeros_replicate]
  have zeros : List.replicate count 0 ++ [0].reverse = List.replicate (count + 1) 0 :=
    (List.replicate_succ' (n := count) (a := 0)).symm
  have value : Nat.ofDigits 58 (List.replicate (count + 1) 0).reverse = 0 := by
    have nothing := Radix.ofDigits_reverse_zeros 58 (count + 1) []
    rwa [List.append_nil] at nothing
  rw [zeros, Radix.leadingZeros_replicate, value, Nat.digits_zero, List.reverse_nil, List.map_nil,
    List.append_nil]

theorem decode_number (nonzero : head ≠ 0) :
    base58Decode (base58Encode (List.replicate count 0 ++ head :: tail)) =
      some (List.replicate count 0 ++ head :: tail) := by
  have digit : head.val ≠ 0 := fun zero => nonzero (Fin.ext zero)
  have valid : ∀ d ∈ head.val :: tail.map Fin.val, d < 256 := by
    intro d member
    rcases List.mem_map.mp (List.map_cons (f := Fin.val) ▸ member) with ⟨byte, _, rfl⟩
    exact Wire.byte_lt byte
  have bytes : Nat.digits 256 (bigEndian (head :: tail)) =
      ((head :: tail).map Fin.val).reverse :=
    Radix.digits_ofDigits_reverse (by decide) valid digit
  have positive : bigEndian (head :: tail) ≠ 0 := by
    intro zero
    rw [zero, Nat.digits_zero] at bytes
    exact absurd (congrArg List.length bytes) (by simp)
  rcases Radix.exists_leading 58 positive with ⟨top, rest, leading, reversed⟩
  rw [encode_eq, decode_letters (encode_digits_lt _), base58Digits_number nonzero,
    Radix.leadingZeros_append count nonzero tail, Radix.ofDigits_reverse_zeros,
    List.reverse_reverse, Nat.ofDigits_digits, bytes, List.reverse_reverse, reversed,
    Radix.leadingZeros_append count leading rest, List.map_map]
  have same : (Fin.ofNat (2 ^ 8) ∘ Fin.val : Byte → Byte) = id := by
    funext byte
    exact Fin.ext (Nat.mod_eq_of_lt byte.isLt)
  rw [same, List.map_id]

end Shapes

/-- Decoding gives back every array but those of zeros alone, which gain one: the digit
array is never empty. Every digit fits, what is carried stays a byte, and within one
length no two arrays share a string. -/
theorem base58_faithful (bytes : List Byte) :
    (base58Decode (base58Encode bytes) = some bytes ↔ ∃ byte ∈ bytes, byte ≠ 0) ∧
      (∀ digit ∈ base58Digits bytes, digit < 58) ∧
      (∀ (digits : List ℕ) (byte : Byte), (∀ digit ∈ digits, digit < 58) →
        (Radix.mulAdd 58 256 digits byte.val).2 < 256) ∧
      ∀ other : List Byte, other.length = bytes.length →
        base58Encode other = base58Encode bytes → other = bytes := by
  have longer (count : ℕ) : List.replicate (count + 1) (0 : Byte) ≠ List.replicate count 0 := by
    intro same
    have lengths := congrArg List.length same
    rw [List.length_replicate, List.length_replicate] at lengths
    omega
  refine ⟨?_, base58Digits_lt bytes, fun digits byte valid =>
    Radix.mulAdd_carry_lt valid (Wire.byte_lt byte), ?_⟩
  · rcases Radix.zeros_cases 0 bytes with ⟨count, rfl | ⟨head, tail, nonzero, rfl⟩⟩
    · rw [decode_zeros, Option.some.injEq]
      constructor
      · intro same
        exact absurd same (longer count)
      · intro some
        rcases some with ⟨byte, member, nonzero⟩
        exact absurd (List.mem_replicate.mp member).2 nonzero
    · rw [decode_number nonzero]
      exact iff_of_true rfl ⟨head, by simp, nonzero⟩
  · intro other length same
    have decoded := congrArg base58Decode same
    rcases Radix.zeros_cases 0 bytes with ⟨count, rfl | ⟨head, tail, nonzero, rfl⟩⟩
    · rw [List.length_replicate] at length
      rcases Radix.zeros_cases 0 other with ⟨count', rfl | ⟨head', tail', nonzero', rfl⟩⟩
      · rw [List.length_replicate] at length
        rw [length]
      · rw [decode_zeros, decode_number nonzero', Option.some.injEq] at decoded
        rw [decoded, List.length_replicate] at length
        omega
    · rcases Radix.zeros_cases 0 other with ⟨count', rfl | ⟨head', tail', nonzero', rfl⟩⟩
      · rw [decode_zeros, decode_number nonzero, Option.some.injEq] at decoded
        rw [← decoded, List.length_replicate, List.length_replicate] at length
        omega
      · rw [decode_number nonzero, decode_number nonzero', Option.some.injEq] at decoded
        exact decoded

theorem base58_unfaithful :
    base58Decode (base58Encode []) = some [0] ∧ base58Decode (base58Encode [0]) = some [0, 0] ∧
      ¬ ∀ bytes, base58Decode (base58Encode bytes) = some bytes := by
  have empty : base58Decode (base58Encode []) = some [0] := decode_zeros 0
  refine ⟨empty, decode_zeros 1, ?_⟩
  intro faithful
  have lost := (faithful []).symm.trans empty
  cases lost

end ShadowLend
