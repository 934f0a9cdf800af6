import ShadowLend.Foundation.Uint
import Mathlib.Data.Nat.Digits.Lemmas

/-! Little-endian numbers, two's complement, and decoders which take a value off the
front of a string of bytes and hand on the rest. -/

abbrev Byte := Uint 8

namespace Wire

theorem byte_lt (byte : Byte) : byte.val < 256 := byte.isLt

/-- The low bytes of a number, lowest first. -/
def bytesOf : ℕ → ℕ → List Byte
  | 0, _ => []
  | width + 1, value => ⟨value % 256, Nat.mod_lt _ (by decide)⟩ :: bytesOf width (value / 256)

def valueOf (bytes : List Byte) : ℕ := Nat.ofDigits 256 (bytes.map Fin.val)

/-- A number in two's complement. -/
def bytesOfInt (width : ℕ) (value : ℤ) : List Byte :=
  bytesOf width (value % (256 ^ width : ℕ)).toNat

def intOf (bytes : List Byte) : ℤ := Int.bmod (valueOf bytes) (256 ^ bytes.length)

section Numbers

variable {width : ℕ}

@[simp] theorem length_bytesOf (width value : ℕ) : (bytesOf width value).length = width := by
  induction width generalizing value with
  | zero => rfl
  | succ width ih => rw [bytesOf, List.length_cons, ih]

@[simp] theorem length_bytesOfInt (width : ℕ) (value : ℤ) :
    (bytesOfInt width value).length = width := length_bytesOf _ _

theorem valueOf_cons (head : Byte) (tail : List Byte) :
    valueOf (head :: tail) = head.val + 256 * valueOf tail := by
  rw [valueOf, List.map_cons, Nat.ofDigits_cons]
  rfl

theorem valueOf_bytesOf (width value : ℕ) :
    valueOf (bytesOf width value) = value % 256 ^ width := by
  induction width generalizing value with
  | zero => rw [pow_zero, Nat.mod_one]; rfl
  | succ width ih => rw [bytesOf, valueOf_cons, ih, pow_succ' 256 width, Nat.mod_mul]

/-- A number in one field is its low part in one and its high part in the next. -/
theorem bytesOf_add (low high value : ℕ) :
    bytesOf (low + high) value = bytesOf low value ++ bytesOf high (value / 256 ^ low) := by
  induction low generalizing value with
  | zero => simp [bytesOf]
  | succ low ih =>
      rw [Nat.succ_add, bytesOf, ih, bytesOf, List.cons_append, Nat.div_div_eq_div_mul,
        pow_succ' 256 low]

theorem intOf_bytesOf (width value : ℕ) :
    intOf (bytesOf width value) = Int.bmod value (256 ^ width) := by
  rw [intOf, length_bytesOf, valueOf_bytesOf, Int.natCast_mod, Int.emod_bmod]

theorem intOf_bytesOfInt {value : ℤ} (low : -(256 ^ width : ℕ) ≤ value * 2)
    (high : value * 2 < (256 ^ width : ℕ)) : intOf (bytesOfInt width value) = value := by
  have positive : ((256 ^ width : ℕ) : ℤ) ≠ 0 := by
    exact_mod_cast (Nat.pow_pos (by decide : 0 < 256)).ne'
  rw [bytesOfInt, intOf_bytesOf, Int.toNat_of_nonneg (Int.emod_nonneg _ positive), Int.emod_bmod]
  exact Int.bmod_eq_of_le_mul_two low high

end Numbers

section Slices

def slice (offset count : ℕ) (bytes : List Byte) : List Byte := (bytes.drop offset).take count

/-- What stands between two parts of a string is read at the length of the first. -/
theorem slice_append {offset count : ℕ} {before middle : List Byte} (after : List Byte)
    (starts : before.length = offset) (ends : middle.length = count) :
    slice offset count (before ++ (middle ++ after)) = middle := by
  subst starts ends
  rw [slice, List.drop_left, List.take_left]

end Slices

/-- A decoder returns what it read and what it left. -/
abbrev Decoder (α : Type) := List Byte → Option (α × List Byte)

/-- The decoder takes these bytes, whatever follows them, for this value. -/
def Reads {α : Type} (decoder : Decoder α) (bytes : List Byte) (a : α) : Prop :=
  ∀ rest, decoder (bytes ++ rest) = some (a, rest)

def raw (count : ℕ) : Decoder (List Byte) := fun bytes =>
  if count ≤ bytes.length then some (bytes.take count, bytes.drop count) else none

def Decoder.map {α β : Type} (f : α → β) (decoder : Decoder α) : Decoder β := fun bytes =>
  (decoder bytes).map fun read => (f read.1, read.2)

def Decoder.bind {α β : Type} (decoder : Decoder α) (next : α → Decoder β) : Decoder β :=
  fun bytes => (decoder bytes).bind fun read => next read.1 read.2

def unsigned (width : ℕ) : Decoder ℕ := (raw width).map valueOf

def signed (width : ℕ) : Decoder ℤ := (raw width).map intOf

/-- Some decoders, one after the other. -/
def each {α : Type} : List (Decoder α) → Decoder (List α)
  | [] => fun bytes => some ([], bytes)
  | head :: tail => head.bind fun a => (each tail).map (a :: ·)

section Decoders

variable {α β ι : Type}

theorem raw_reads {count : ℕ} {bytes : List Byte} (length : bytes.length = count) :
    Reads (raw count) bytes bytes := by
  intro rest
  subst length
  rw [raw, if_pos (by rw [List.length_append]; exact Nat.le_add_right _ _), List.take_left,
    List.drop_left]

theorem Reads.map {decoder : Decoder α} {bytes : List Byte} {a : α} (f : α → β)
    (reads : Reads decoder bytes a) : Reads (decoder.map f) bytes (f a) := by
  intro rest
  rw [Decoder.map, reads rest]
  rfl

theorem Reads.bind {decoder : Decoder α} {next : α → Decoder β} {bytes bytes' : List Byte} {a : α}
    {b : β} (first : Reads decoder bytes a) (second : Reads (next a) bytes' b) :
    Reads (decoder.bind next) (bytes ++ bytes') b := by
  intro rest
  rw [Decoder.bind, List.append_assoc, first]
  exact second rest

theorem unsigned_reads (width : ℕ) {value : ℕ} (fits : value < 256 ^ width) :
    Reads (unsigned width) (bytesOf width value) value := by
  have read := (raw_reads (length_bytesOf width value)).map valueOf
  rw [valueOf_bytesOf, Nat.mod_eq_of_lt fits] at read
  exact read

theorem signed_reads (width : ℕ) {value : ℤ} (low : -(256 ^ width : ℕ) ≤ value * 2)
    (high : value * 2 < (256 ^ width : ℕ)) :
    Reads (signed width) (bytesOfInt width value) value := by
  have read := (raw_reads (length_bytesOfInt width value)).map intOf
  rw [intOf_bytesOfInt low high] at read
  exact read

/-- Items encoded in a row are read back by their decoders in a row. -/
theorem each_reads (items : List ι) {decoder : ι → Decoder α} {encode : ι → List Byte}
    {value : ι → α} (reads : ∀ i ∈ items, Reads (decoder i) (encode i) (value i)) :
    Reads (each (items.map decoder)) (items.flatMap encode) (items.map value) := by
  induction items with
  | nil =>
      intro rest
      rfl
  | cons head tail ih =>
      have first := reads head List.mem_cons_self
      have others := ih fun i member => reads i (List.mem_cons_of_mem _ member)
      exact first.bind (others.map (value head :: ·))

end Decoders

end Wire
