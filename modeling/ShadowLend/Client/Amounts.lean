import ShadowLend.Foundation.Radix
import Mathlib.Algebra.Order.Field.Power
import Mathlib.Algebra.Order.Floor.Semifield
import Mathlib.Data.Rat.Floor
import Mathlib.Tactic.Linarith
import Mathlib.Tactic.Positivity

/-! Amounts as they are typed. The client cuts the text at the dot and reads its halves
apart, the second one cut or filled up to the decimals of the token. -/

namespace ShadowLend

def digitChars : List Char := "0123456789".toList

def digitText (digits : List (Fin 10)) : List Char :=
  digits.map fun digit => digitChars.getD digit.val '0'

def number (digits : List (Fin 10)) : ℕ := Nat.ofDigits 10 (digits.map Fin.val).reverse

inductive ExponentSign
  | unsigned
  | plus
  | minus
  deriving DecidableEq

structure Exponent where
  capital : Bool
  sign : ExponentSign
  digits : List (Fin 10)
  written : digits ≠ []

/-- A number as an HTML field accepts it and as JavaScript writes one. -/
structure Numeral where
  minus : Bool
  whole : List (Fin 10)
  frac : Option (List (Fin 10))
  exponent : Option Exponent
  written : whole ≠ [] ∨ frac ≠ none
  fracWritten : frac ≠ some []

def Exponent.mark (e : Exponent) : Char := if e.capital then 'E' else 'e'

def Exponent.text (e : Exponent) : List Char :=
  e.mark :: ((match e.sign with
    | .unsigned => []
    | .plus => ['+']
    | .minus => ['-']) ++ digitText e.digits)

def Exponent.shift (e : Exponent) : ℤ :=
  match e.sign with
  | .minus => -(number e.digits : ℤ)
  | _ => number e.digits

namespace Numeral

def signText (x : Numeral) : List Char := if x.minus then ['-'] else []

def exponentText (x : Numeral) : List Char := x.exponent.elim [] Exponent.text

def text (x : Numeral) : List Char :=
  match x.frac with
  | none => x.signText ++ digitText x.whole ++ x.exponentText
  | some frac => x.signText ++ digitText x.whole ++ '.' :: (digitText frac ++ x.exponentText)

def fracDigits (x : Numeral) : List (Fin 10) := x.frac.getD []

def mantissa (x : Numeral) : ℚ := number x.whole + number x.fracDigits / 10 ^ x.fracDigits.length

def shift (x : Numeral) : ℤ := x.exponent.elim 0 Exponent.shift

def magnitude (x : Numeral) : ℚ := x.mantissa * 10 ^ x.shift

def value (x : Numeral) : ℚ := if x.minus then -x.magnitude else x.magnitude

end Numeral

def truncated (value : ℚ) : ℤ := if 0 ≤ value then ⌊value⌋ else ⌈value⌉

def readDigits (text : List Char) : Option ℕ :=
  if text = [] then none
  else (text.mapM fun char => digitChars.idxOf? char).map fun digits =>
    Nat.ofDigits 10 digits.reverse

/-- `new anchor.BN(text)`, which throws at anything but digits after at most a minus. -/
def newBN (text : List Char) : Option ℤ :=
  if text.head? = some '-' then (readDigits text.tail).map fun value : ℕ => -(value : ℤ)
  else (readDigits text).map fun value : ℕ => (value : ℤ)

/-- `text || "0"`. -/
def orZero (text : List Char) : List Char := if text = [] then ['0'] else text

/-- UI amount (whole tokens, may be fractional) to base units. -/
def toBase (uiAmount : List Char) (decimals : ℕ) : Option ℤ := do
  let parts := uiAmount.splitOn '.'
  let whole := parts.getD 0 []
  let frac := parts.getD 1 []
  let fracPadded := (frac ++ List.replicate decimals '0').take decimals
  let units ← newBN (orZero whole)
  let fracUnits ← newBN (orZero fracPadded)
  pure (units * 10 ^ decimals + fracUnits)

section Reading

theorem digitChars_read (digit : Fin 10) :
    digitChars.idxOf? (digitChars.getD digit.val '0') = some digit.val := by
  have all : ∀ d : Fin 10, digitChars.idxOf? (digitChars.getD d.val '0') = some d.val := by decide
  exact all digit

theorem digitText_zeros (count : ℕ) :
    List.replicate count '0' = digitText (List.replicate count 0) := by
  rw [digitText, List.map_replicate]
  rfl

theorem digitText_append (digits others : List (Fin 10)) :
    digitText (digits ++ others) = digitText digits ++ digitText others := List.map_append

theorem digitText_take (digits : List (Fin 10)) (count : ℕ) :
    (digitText digits).take count = digitText (digits.take count) := List.map_take.symm

@[simp] theorem length_digitText (digits : List (Fin 10)) :
    (digitText digits).length = digits.length := List.length_map _

theorem digitText_eq_nil {digits : List (Fin 10)} : digitText digits = [] ↔ digits = [] :=
  List.map_eq_nil_iff

theorem notMem_digitText {char : Char} (other : digitChars.idxOf? char = none)
    (digits : List (Fin 10)) : char ∉ digitText digits := by
  intro member
  rcases List.mem_map.mp member with ⟨digit, _, same⟩
  have read := digitChars_read digit
  rw [same, other] at read
  cases read

theorem readDigits_digitText {digits : List (Fin 10)} (written : digits ≠ []) :
    readDigits (digitText digits) = some (number digits) := by
  have read : (digitText digits).mapM (fun char => digitChars.idxOf? char) =
      some (digits.map Fin.val) := by
    clear written
    induction digits with
    | nil => rfl
    | cons head tail ih =>
        rw [digitText, List.map_cons, List.mapM_cons, digitChars_read, ← digitText, ih]
        rfl
  rw [readDigits, if_neg (fun empty => written (digitText_eq_nil.mp empty)), read]
  rfl

theorem readDigits_refused {text : List Char} {char : Char} (member : char ∈ text)
    (other : digitChars.idxOf? char = none) : readDigits text = none := by
  have unread : text.mapM (fun char => digitChars.idxOf? char) = none := by
    induction text with
    | nil => cases member
    | cons head tail ih =>
        rw [List.mapM_cons]
        rcases List.mem_cons.mp member with same | later
        · rw [← same, other]
          rfl
        · rw [ih later]
          cases digitChars.idxOf? head <;> rfl
  rw [readDigits, unread]
  split <;> rfl

theorem newBN_digitText {digits : List (Fin 10)} (written : digits ≠ []) :
    newBN (digitText digits) = some (number digits : ℤ) := by
  have unsigned : (digitText digits).head? ≠ some '-' := by
    intro minus
    exact notMem_digitText (by decide) digits (List.mem_of_mem_head? minus)
  rw [newBN, if_neg unsigned, readDigits_digitText written]
  rfl

theorem newBN_minus {digits : List (Fin 10)} (written : digits ≠ []) :
    newBN ('-' :: digitText digits) = some (-(number digits : ℤ)) := by
  have signed : ('-' :: digitText digits).head? = some '-' := rfl
  rw [newBN, if_pos signed, List.tail_cons, readDigits_digitText written]
  rfl

theorem newBN_refused {text : List Char} {char : Char} (member : char ∈ text)
    (other : digitChars.idxOf? char = none) (notMinus : char ≠ '-') : newBN text = none := by
  rw [newBN]
  split
  · rename_i minus
    cases text with
    | nil => cases member
    | cons head tail =>
        have later : char ∈ tail := by
          rcases List.mem_cons.mp member with same | later
          · rw [List.head?_cons, Option.some.injEq, ← same] at minus
            exact absurd minus notMinus
          · exact later
        rw [List.tail_cons, readDigits_refused later other]
        rfl
  · rw [readDigits_refused member other]
    rfl

theorem orZero_digitText (digits : List (Fin 10)) :
    newBN (orZero (digitText digits)) = some (number digits : ℤ) := by
  rw [orZero]
  split
  · rename_i empty
    rw [digitText_eq_nil.mp empty]
    decide
  · rename_i written
    exact newBN_digitText fun empty => written (digitText_eq_nil.mpr empty)

end Reading

section Splitting

variable {x : Numeral} {decimals : ℕ}

theorem dot_notMem_whole (x : Numeral) : '.' ∉ x.signText ++ digitText x.whole := by
  intro member
  rcases List.mem_append.mp member with sign | digit
  · cases minus : x.minus <;> simp [Numeral.signText, minus] at sign
  · exact notMem_digitText (by decide) x.whole digit

theorem dot_notMem_exponent (x : Numeral) : '.' ∉ x.exponentText := by
  intro member
  cases found : x.exponent with
  | none => simp [Numeral.exponentText, found] at member
  | some e =>
      have digit := notMem_digitText (by decide : digitChars.idxOf? '.' = none) e.digits
      cases capital : e.capital <;> cases sign : e.sign <;>
        simp [Numeral.exponentText, found, Exponent.text, Exponent.mark, capital, sign, digit]
          at member

theorem splitOn_whole (absent : x.frac = none) : x.text.splitOn '.' = [x.text] := by
  rw [List.splitOn_eq_splitOnP]
  apply List.splitOnP_eq_singleton
  intro char member
  rw [beq_eq_false_iff_ne]
  intro dot
  subst dot
  rw [Numeral.text, absent] at member
  rcases List.mem_append.mp member with whole | exponent
  · exact dot_notMem_whole x whole
  · exact dot_notMem_exponent x exponent

theorem splitOn_frac {frac : List (Fin 10)} (present : x.frac = some frac) :
    x.text.splitOn '.' =
      [x.signText ++ digitText x.whole, digitText frac ++ x.exponentText] := by
  have noDot {part : List Char} (absent : '.' ∉ part) : ∀ char ∈ part, (char == '.') = false := by
    intro char member
    rw [beq_eq_false_iff_ne]
    intro dot
    exact absent (dot ▸ member)
  have second : '.' ∉ digitText frac ++ x.exponentText := by
    intro member
    rcases List.mem_append.mp member with digit | exponent
    · exact notMem_digitText (by decide) frac digit
    · exact dot_notMem_exponent x exponent
  rw [Numeral.text, present, List.splitOn_eq_splitOnP,
    List.splitOnP_append_cons_of_forall_mem (noDot (dot_notMem_whole x)) '.' (beq_self_eq_true '.'),
    List.splitOnP_eq_singleton (noDot second)]

def Numeral.fracUnits (x : Numeral) (decimals : ℕ) : ℕ :=
  number x.fracDigits * 10 ^ decimals / 10 ^ x.fracDigits.length

/-- The texts at which a half is no number: an exponent without a dot or within the
places kept, or a minus with nothing before the dot. -/
def Numeral.Refused (x : Numeral) (decimals : ℕ) : Prop :=
  (x.exponent ≠ none ∧ (x.frac = none ∨ x.fracDigits.length < decimals)) ∨
    (x.minus = true ∧ x.whole = [])

theorem digit_lt (digits : List (Fin 10)) : ∀ digit ∈ digits.map Fin.val, digit < 10 := by
  intro digit member
  rcases List.mem_map.mp member with ⟨d, _, same⟩
  rw [← same]
  exact d.isLt

theorem number_padded (digits : List (Fin 10)) (decimals : ℕ) :
    number ((digits ++ List.replicate decimals 0).take decimals) =
      number digits * 10 ^ decimals / 10 ^ digits.length := by
  have valid := digit_lt (digits ++ List.replicate decimals 0)
  have zeros : Nat.ofDigits 10 ((List.replicate decimals (0 : Fin 10)).map Fin.val).reverse = 0 := by
    have nothing := Radix.ofDigits_reverse_zeros 10 decimals []
    rw [List.append_nil] at nothing
    rw [List.map_replicate]
    exact nothing
  have whole := Radix.ofDigits_reverse_append 10 (digits.map Fin.val)
    ((List.replicate decimals (0 : Fin 10)).map Fin.val)
  rw [zeros, List.length_map, List.length_replicate, Nat.add_zero, ← List.map_append] at whole
  rw [number, List.map_take, Radix.ofDigits_reverse_take (by decide) valid, whole, List.length_map,
    List.length_append, List.length_replicate, Nat.add_sub_cancel, number]

theorem whole_read (x : Numeral) (written : x.minus = true → x.whole ≠ []) :
    newBN (orZero (x.signText ++ digitText x.whole)) =
      some (if x.minus then -(number x.whole : ℤ) else number x.whole) := by
  cases minus : x.minus with
  | false =>
      rw [Numeral.signText, minus]
      exact orZero_digitText x.whole
  | true =>
      have signed : x.signText ++ digitText x.whole = '-' :: digitText x.whole := by
        rw [Numeral.signText, minus]
        rfl
      rw [signed, orZero, if_neg (List.cons_ne_nil _ _), newBN_minus (written minus)]
      rfl

theorem frac_padded (kept : x.exponent = none ∨ decimals ≤ x.fracDigits.length) :
    (digitText x.fracDigits ++ x.exponentText ++ List.replicate decimals '0').take decimals =
      digitText ((x.fracDigits ++ List.replicate decimals 0).take decimals) := by
  rcases kept with absent | long
  · have nothing : x.exponentText = [] := by rw [Numeral.exponentText, absent]; rfl
    rw [nothing, List.append_nil, digitText_zeros, ← digitText_append, digitText_take]
  · have enough : decimals ≤ (digitText x.fracDigits).length := by rwa [length_digitText]
    rw [List.append_assoc, List.take_append_of_le_length enough,
      List.take_append_of_le_length long, digitText_take]

theorem toBase_read (read : ¬ x.Refused decimals) :
    toBase x.text decimals =
      some ((if x.minus then -(number x.whole : ℤ) else number x.whole) * 10 ^ decimals +
        x.fracUnits decimals) := by
  have written : x.minus = true → x.whole ≠ [] := fun minus empty => read (Or.inr ⟨minus, empty⟩)
  have kept : x.exponent = none ∨ x.frac ≠ none ∧ decimals ≤ x.fracDigits.length := by
    by_contra cut
    rw [not_or, not_and_or, not_not, not_le] at cut
    exact read (Or.inl cut)
  have halves : (x.text.splitOn '.').getD 0 [] = x.signText ++ digitText x.whole ∧
      (x.text.splitOn '.').getD 1 [] = digitText x.fracDigits ++ x.exponentText := by
    cases found : x.frac with
    | none =>
        have absent : x.exponent = none := by
          rcases kept with absent | ⟨present, _⟩
          · exact absent
          · exact absurd found present
        rw [splitOn_whole found, Numeral.text, found, Numeral.fracDigits, found,
          Numeral.exponentText, absent]
        exact ⟨List.append_nil _, rfl⟩
    | some frac =>
        rw [splitOn_frac found, Numeral.fracDigits, found]
        exact ⟨rfl, rfl⟩
  rw [toBase, halves.1, halves.2, whole_read x written, frac_padded (kept.imp_right And.right),
    orZero_digitText, number_padded]
  rfl

theorem newBN_mark (e : Exponent) {text : List Char} (member : e.mark ∈ text) :
    newBN (orZero text) = none := by
  have written : text ≠ [] := List.ne_nil_of_mem member
  rw [orZero, if_neg written]
  cases capital : e.capital <;> rw [Exponent.mark, capital] at member <;>
    exact newBN_refused member (by decide) (by decide)

theorem mark_mem_text {e : Exponent} (present : x.exponent = some e) : e.mark ∈ x.exponentText := by
  rw [Numeral.exponentText, present]
  exact List.mem_cons_self

theorem mark_mem_padded {e : Exponent} (present : x.exponent = some e)
    (short : x.fracDigits.length < decimals) :
    e.mark ∈ (digitText x.fracDigits ++ x.exponentText ++
      List.replicate decimals '0').take decimals := by
  have first : x.exponentText = e.mark :: x.exponentText.tail := by
    rw [Numeral.exponentText, present]
    rfl
  have room : decimals - (digitText x.fracDigits).length =
      decimals - (digitText x.fracDigits).length - 1 + 1 := by
    rw [length_digitText]
    omega
  rw [List.append_assoc, List.take_append, first, List.cons_append, room, List.take_succ_cons]
  exact List.mem_append_right _ List.mem_cons_self

theorem toBase_refused (refused : x.Refused decimals) : toBase x.text decimals = none := by
  have second {text : List Char} (whole : Option ℤ) (unread : newBN text = none) :
      (do let units ← whole; let fracUnits ← newBN text; pure (units * 10 ^ decimals + fracUnits)) =
        (none : Option ℤ) := by
    rw [unread]
    cases whole <;> rfl
  rcases refused with ⟨marked, place⟩ | ⟨minus, empty⟩
  · rcases Option.ne_none_iff_exists'.mp marked with ⟨e, present⟩
    cases found : x.frac with
    | none =>
        have member : e.mark ∈ x.text := by
          rw [Numeral.text, found]
          exact List.mem_append_right _ (mark_mem_text present)
        have first : (x.text.splitOn '.').getD 0 [] = x.text := by rw [splitOn_whole found]; rfl
        rw [toBase, first, newBN_mark e member]
        rfl
    | some frac =>
        have short := place.resolve_left (by rw [found]; exact Option.some_ne_none frac)
        have halves : (x.text.splitOn '.').getD 1 [] = digitText x.fracDigits ++ x.exponentText := by
          rw [splitOn_frac found, Numeral.fracDigits, found]
          rfl
        rw [toBase, halves]
        exact second _ (newBN_mark e (mark_mem_padded present short))
  · rcases Option.ne_none_iff_exists'.mp (x.written.resolve_left fun written => written empty)
      with ⟨frac, found⟩
    have alone : (x.text.splitOn '.').getD 0 [] = ['-'] := by
      rw [splitOn_frac found, Numeral.signText, minus, empty]
      rfl
    have unread : newBN (orZero ['-']) = none := by decide
    rw [toBase, alone, unread]
    rfl

example : toBase ".25".toList 9 = some 250000000 := by decide

example : toBase "1e3".toList 9 = none := by decide

end Splitting

section Shifts

variable {value : ℚ} {shift : ℤ}

theorem floor_shift_up (positive : 0 ≤ value) (up : 0 < shift) :
    10 * ⌊value⌋₊ ≤ ⌊value * 10 ^ shift⌋₊ := by
  have ten : (10 : ℚ) ≤ 10 ^ shift := by
    calc
      (10 : ℚ) = 10 ^ (1 : ℤ) := (zpow_one _).symm
      _ ≤ 10 ^ shift := zpow_le_zpow_right₀ (by norm_num) up
  apply Nat.le_floor
  calc
    ((10 * ⌊value⌋₊ : ℕ) : ℚ) = ⌊value⌋₊ * 10 := by push_cast; ring
    _ ≤ value * 10 ^ shift :=
      mul_le_mul (Nat.floor_le positive) ten (by norm_num) positive

theorem floor_shift_down (down : shift < 0) :
    ⌊value * 10 ^ shift⌋₊ = ⌊value⌋₊ / 10 ^ (-shift).toNat := by
  have quotient : value * 10 ^ shift = value / ((10 ^ (-shift).toNat : ℕ) : ℚ) := by
    have places : ((-shift).toNat : ℤ) = -shift := Int.toNat_of_nonneg (by omega)
    rw [Nat.cast_pow, Nat.cast_ofNat, ← zpow_natCast, places, zpow_neg, div_inv_eq_mul]
  rw [quotient, Nat.floor_div_natCast]

theorem floor_shift_eq (positive : 0 ≤ value) (moved : shift ≠ 0) :
    ⌊value⌋₊ = ⌊value * 10 ^ shift⌋₊ ↔ value < 1 ∧ value * 10 ^ shift < 1 := by
  rw [← Nat.floor_eq_zero, ← Nat.floor_eq_zero]
  rcases lt_or_gt_of_ne moved with down | up
  · rw [floor_shift_down down]
    have places : 10 ^ 1 ≤ 10 ^ (-shift).toNat := Nat.pow_le_pow_right (by decide) (by omega)
    constructor
    · intro same
      have least : ⌊value⌋₊ / 10 ^ (-shift).toNat ≤ ⌊value⌋₊ / 10 :=
        Nat.div_le_div_left places (by decide)
      have zero : ⌊value⌋₊ = 0 := by omega
      exact ⟨zero, by rw [zero, Nat.zero_div]⟩
    · intro zeros
      rw [zeros.1, Nat.zero_div]
  · have more := floor_shift_up positive up
    omega

end Shifts

section Values

variable {x : Numeral} {decimals : ℕ}

theorem mantissa_nonneg (x : Numeral) : 0 ≤ x.mantissa := by
  unfold Numeral.mantissa
  positivity

theorem magnitude_nonneg (x : Numeral) : 0 ≤ x.magnitude :=
  mul_nonneg (mantissa_nonneg x) (by positivity)

theorem fracUnits_lt (x : Numeral) (decimals : ℕ) : x.fracUnits decimals < 10 ^ decimals := by
  have below : number x.fracDigits < 10 ^ x.fracDigits.length := by
    have valid : ∀ digit ∈ (x.fracDigits.map Fin.val).reverse, digit < 10 :=
      fun digit member => digit_lt x.fracDigits digit (List.mem_reverse.mp member)
    have digits := Nat.ofDigits_lt_base_pow_length (by decide) valid
    rwa [List.length_reverse, List.length_map] at digits
  rw [Numeral.fracUnits, Nat.div_lt_iff_lt_mul (Nat.pow_pos (by decide)), Nat.mul_comm]
  exact Nat.mul_lt_mul_of_pos_left below (Nat.pow_pos (by decide))

/-- Before its exponent and sign a number is, in whole base units, what the halves say. -/
theorem floor_mantissa (x : Numeral) (decimals : ℕ) :
    ⌊x.mantissa * 10 ^ decimals⌋₊ =
      number x.whole * 10 ^ decimals + x.fracUnits decimals := by
  have places : (10 : ℚ) ^ x.fracDigits.length ≠ 0 := by positivity
  have quotient : x.mantissa * 10 ^ decimals =
      ((number x.whole * 10 ^ decimals * 10 ^ x.fracDigits.length +
        number x.fracDigits * 10 ^ decimals : ℕ) : ℚ) / ((10 ^ x.fracDigits.length : ℕ) : ℚ) := by
    rw [Numeral.mantissa]
    push_cast
    field_simp
  rw [quotient, Nat.floor_div_eq_div, Nat.add_comm, Nat.add_mul_div_right _ _
    (Nat.pow_pos (by decide)), Nat.add_comm, Numeral.fracUnits]

theorem truncated_of_nonneg {value : ℚ} (positive : 0 ≤ value) :
    truncated value = (⌊value⌋₊ : ℤ) := by
  rw [truncated, if_pos positive, Int.natCast_floor_eq_floor positive]

theorem truncated_neg {value : ℚ} (positive : 0 ≤ value) :
    truncated (-value) = -(⌊value⌋₊ : ℤ) := by
  rcases positive.eq_or_lt with zero | above
  · rw [← zero, neg_zero, truncated_of_nonneg le_rfl, Nat.floor_zero, Nat.cast_zero, neg_zero]
  · rw [truncated, if_neg (by linarith), Int.ceil_neg, Int.natCast_floor_eq_floor positive]

theorem truncated_value (x : Numeral) (decimals : ℕ) :
    truncated (x.value * 10 ^ decimals) =
      if x.minus then -(⌊x.magnitude * 10 ^ decimals⌋₊ : ℤ)
      else (⌊x.magnitude * 10 ^ decimals⌋₊ : ℤ) := by
  have positive : 0 ≤ x.magnitude * 10 ^ decimals :=
    mul_nonneg (magnitude_nonneg x) (by positivity)
  rw [Numeral.value]
  split
  · rw [neg_mul, truncated_neg positive]
  · exact truncated_of_nonneg positive

end Values

/-- The text is refused, or the amount is the number in base units, truncated toward zero. -/
def ReadsExactly (x : Numeral) (decimals : ℕ) : Prop :=
  ∀ amount, toBase x.text decimals = some amount → amount = truncated (x.value * 10 ^ decimals)

/-- Where cutting at the dot does no harm: the text is refused; or it has no exponent to
speak of, and no minus which only its first half keeps; or it stays below one base unit
with and without its exponent; or both are there and what they lose happens to cancel,
which takes a whole part of one. -/
def Numeral.KeepsValue (x : Numeral) (decimals : ℕ) : Prop :=
  x.Refused decimals ∨
    (x.shift = 0 ∧ (x.minus = true → x.fracUnits decimals = 0)) ∨
    (x.mantissa * 10 ^ decimals < 1 ∧ x.magnitude * 10 ^ decimals < 1) ∨
    (x.minus = true ∧ number x.whole = 1 ∧ x.shift < 0 ∧
      10 ^ decimals - x.fracUnits decimals =
        (10 ^ decimals + x.fracUnits decimals) / 10 ^ (-x.shift).toNat)

section Exactness

variable {x : Numeral} {decimals : ℕ}

theorem losses_cancel {whole unit fraction places : ℕ} (below : fraction < unit)
    (ten : 10 ≤ places) :
    whole * unit = (whole * unit + fraction) / places + fraction ↔
      (whole = 0 ∧ fraction = 0) ∨
        (whole = 1 ∧ unit - fraction = (unit + fraction) / places) := by
  have least : (whole * unit + fraction) / places ≤ (whole * unit + fraction) / 10 :=
    Nat.div_le_div_left ten (by decide)
  rcases Nat.lt_or_ge whole 2 with small | large
  · interval_cases whole
    · rw [Nat.zero_mul, Nat.zero_add]
      have zero : 0 / places = 0 := Nat.zero_div places
      constructor
      · intro same
        exact Or.inl ⟨rfl, (Nat.add_eq_zero_iff.mp same.symm).2⟩
      · intro cases'
        rcases cases' with ⟨_, none⟩ | ⟨absurdity, _⟩
        · rw [none, zero]
        · omega
    · rw [Nat.one_mul]
      omega
  · have twice : 2 * unit ≤ whole * unit := Nat.mul_le_mul_right unit large
    omega

theorem read_magnitude (x : Numeral) (decimals : ℕ) :
    x.magnitude * 10 ^ decimals = x.mantissa * 10 ^ decimals * 10 ^ x.shift := by
  rw [Numeral.magnitude]
  ring

theorem unsigned_exact :
    ⌊x.mantissa * 10 ^ decimals⌋₊ = ⌊x.magnitude * 10 ^ decimals⌋₊ ↔
      x.shift = 0 ∨ (x.mantissa * 10 ^ decimals < 1 ∧ x.magnitude * 10 ^ decimals < 1) := by
  have positive : 0 ≤ x.mantissa * 10 ^ decimals := mul_nonneg (mantissa_nonneg x) (by positivity)
  rw [read_magnitude]
  by_cases still : x.shift = 0
  · rw [still, zpow_zero, mul_one]
    exact iff_of_true rfl (Or.inl rfl)
  · rw [floor_shift_eq positive still, or_iff_right still]

theorem signed_exact :
    number x.whole * 10 ^ decimals =
        ⌊x.magnitude * 10 ^ decimals⌋₊ + x.fracUnits decimals ↔
      (x.shift = 0 ∧ x.fracUnits decimals = 0) ∨
      (x.mantissa * 10 ^ decimals < 1 ∧ x.magnitude * 10 ^ decimals < 1) ∨
      (number x.whole = 1 ∧ x.shift < 0 ∧
        10 ^ decimals - x.fracUnits decimals =
          (10 ^ decimals + x.fracUnits decimals) / 10 ^ (-x.shift).toNat) := by
  have positive : 0 ≤ x.mantissa * 10 ^ decimals := mul_nonneg (mantissa_nonneg x) (by positivity)
  have floor := floor_mantissa x decimals
  have unit : 0 < 10 ^ decimals := Nat.pow_pos (by decide)
  have zero : ⌊x.mantissa * 10 ^ decimals⌋₊ = 0 ↔
      number x.whole = 0 ∧ x.fracUnits decimals = 0 := by
    rw [floor, Nat.add_eq_zero_iff, Nat.mul_eq_zero]
    omega
  rw [← Nat.floor_eq_zero, ← Nat.floor_eq_zero, read_magnitude, zero]
  rcases lt_trichotomy x.shift 0 with down | still | up
  · have places : 10 ^ 1 ≤ 10 ^ (-x.shift).toNat := Nat.pow_le_pow_right (by decide) (by omega)
    rw [floor_shift_down down, floor, losses_cancel (fracUnits_lt x decimals) places]
    constructor
    · intro either
      rcases either with nothing | one
      · refine Or.inr (Or.inl ⟨nothing, ?_⟩)
        rw [nothing.1, nothing.2, Nat.zero_mul, Nat.zero_add, Nat.zero_div]
      · exact Or.inr (Or.inr ⟨one.1, down, one.2⟩)
    · intro either
      rcases either with ⟨still, _⟩ | nothing | one
      · omega
      · exact Or.inl nothing.1
      · exact Or.inr ⟨one.1, one.2.2⟩
  · rw [still, zpow_zero, mul_one, floor]
    constructor
    · intro same
      exact Or.inl ⟨rfl, by omega⟩
    · intro either
      rcases either with ⟨_, none⟩ | nothing | one
      · rw [none, Nat.add_zero]
      · rw [nothing.1.1, nothing.1.2, Nat.zero_mul]
      · omega
  · have more := floor_shift_up positive up
    rw [floor] at more
    constructor
    · intro same
      have none : number x.whole * 10 ^ decimals = 0 ∧ x.fracUnits decimals = 0 := by omega
      have whole := (Nat.mul_eq_zero.mp none.1).resolve_right (by omega)
      exact Or.inr (Or.inl ⟨⟨whole, none.2⟩, by omega⟩)
    · intro either
      rcases either with ⟨still, _⟩ | nothing | one
      · omega
      · rw [nothing.2, nothing.1.1, nothing.1.2, Nat.zero_mul]
      · omega

/-- The halves make up the number exactly there. -/
theorem reads_exactly_iff (x : Numeral) (decimals : ℕ) :
    ReadsExactly x decimals ↔ x.KeepsValue decimals := by
  by_cases refused : x.Refused decimals
  · refine iff_of_true ?_ (Or.inl refused)
    intro amount read
    rw [toBase_refused refused] at read
    cases read
  · rw [ReadsExactly, Numeral.KeepsValue, or_iff_right refused, toBase_read refused,
      truncated_value]
    simp only [Option.some.injEq, forall_eq']
    cases minus : x.minus with
    | false =>
        have same : (number x.whole : ℤ) * 10 ^ decimals + x.fracUnits decimals =
            (⌊x.mantissa * 10 ^ decimals⌋₊ : ℤ) := by
          rw [floor_mantissa]
          push_cast
          rfl
        simp only [Bool.false_eq_true, if_false, false_imp_iff, and_true, false_and, or_false]
        rw [same, Nat.cast_inj, unsigned_exact]
    | true =>
        simp only [if_true, true_imp_iff, true_and]
        rw [← signed_exact, ← Int.natCast_inj]
        push_cast
        constructor
        · intro same
          linarith
        · intro same
          linarith

end Exactness

end ShadowLend
