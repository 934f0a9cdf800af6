import Mathlib.Data.Fin.Basic
import Mathlib.Order.Fin.Basic
import Mathlib.Algebra.Order.Ring.Nat

/-! Fixed-width unsigned integers with the checked and saturating operations of
a systems language. Every operation is specified by the value it denotes, so
callers reason in `ℕ` and never meet the representation. -/

abbrev Uint (width : ℕ) := Fin (2 ^ width)

namespace Uint

instance (priority := 2000) (width value : ℕ) : OfNat (Uint width) value :=
  ⟨Fin.ofNat (2 ^ width) value⟩

variable {width : ℕ}

theorem val_le_max (a : Uint width) : a.val ≤ 2 ^ width - 1 := by
  have := a.isLt
  omega

def max (width : ℕ) : Uint width := ⟨2 ^ width - 1, by have := Nat.two_pow_pos width; omega⟩

@[simp] theorem val_max (width : ℕ) : (max width).val = 2 ^ width - 1 := rfl

def clamp (width value : ℕ) : Uint width :=
  ⟨min value (2 ^ width - 1), by have := Nat.two_pow_pos width; omega⟩

@[simp] theorem val_clamp (width value : ℕ) :
    (clamp width value).val = min value (2 ^ width - 1) := rfl

def checked (width value : ℕ) : Option (Uint width) :=
  if bound : value < 2 ^ width then some ⟨value, bound⟩ else none

theorem checked_eq_some {value : ℕ} {a : Uint width} :
    checked width value = some a ↔ a.val = value := by
  unfold checked
  split
  · rename_i bound
    constructor
    · intro same
      exact congrArg Fin.val (Option.some.inj same).symm
    · intro same
      exact congrArg some (Fin.ext same.symm)
  · rename_i bound
    constructor
    · intro absurdity
      cases absurdity
    · intro same
      exact absurd (same ▸ a.isLt) bound

theorem checked_eq_none {value : ℕ} : checked width value = none ↔ 2 ^ width ≤ value := by
  unfold checked
  split <;> simp_all

def checkedAdd (a b : Uint width) : Option (Uint width) := checked width (a.val + b.val)

theorem checkedAdd_eq_some {a b c : Uint width} :
    a.checkedAdd b = some c ↔ c.val = a.val + b.val := checked_eq_some

def checkedSub (a b : Uint width) : Option (Uint width) :=
  if b.val ≤ a.val then checked width (a.val - b.val) else none

theorem checkedSub_eq_some {a b c : Uint width} :
    a.checkedSub b = some c ↔ c.val + b.val = a.val := by
  unfold checkedSub
  split
  · rw [checked_eq_some]
    omega
  · simp only [reduceCtorEq, false_iff]
    omega

theorem checkedSub_of_le {a b : Uint width} (enough : b.val ≤ a.val) :
    a.checkedSub b = some ⟨a.val - b.val, by have := a.isLt; omega⟩ := by
  rw [checkedSub_eq_some]
  exact Nat.sub_add_cancel enough

def checkedMul (a b : Uint width) : Option (Uint width) := checked width (a.val * b.val)

theorem checkedMul_eq_some {a b c : Uint width} :
    a.checkedMul b = some c ↔ c.val = a.val * b.val := checked_eq_some

def saturatingAdd (a b : Uint width) : Uint width := clamp width (a.val + b.val)

@[simp] theorem val_saturatingAdd (a b : Uint width) :
    (a.saturatingAdd b).val = min (a.val + b.val) (2 ^ width - 1) := rfl

def saturatingMul (a b : Uint width) : Uint width := clamp width (a.val * b.val)

@[simp] theorem val_saturatingMul (a b : Uint width) :
    (a.saturatingMul b).val = min (a.val * b.val) (2 ^ width - 1) := rfl

def saturatingSub (a b : Uint width) : Uint width := clamp width (a.val - b.val)

@[simp] theorem val_saturatingSub (a b : Uint width) : (a.saturatingSub b).val = a.val - b.val := by
  have := a.isLt
  simp only [saturatingSub, val_clamp]
  omega

theorem saturatingSub_le (a b : Uint width) : (a.saturatingSub b).val ≤ a.val := by
  rw [val_saturatingSub]
  exact Nat.sub_le _ _

def least (a b : Uint width) : Uint width := if a.val ≤ b.val then a else b

@[simp] theorem val_least (a b : Uint width) : (a.least b).val = min a.val b.val := by
  unfold least
  split <;> omega

@[simp] theorem least_self (a : Uint width) : a.least a = a := if_pos le_rfl

def div (a b : Uint width) : Uint width :=
  ⟨a.val / b.val, (Nat.div_le_self _ _).trans_lt a.isLt⟩

@[simp] theorem val_div (a b : Uint width) : (a.div b).val = a.val / b.val := rfl

def checkedPow (a : Uint width) (exponent : ℕ) : Option (Uint width) :=
  checked width (a.val ^ exponent)

/-- A cast to another width which keeps the value whenever the value fits. -/
def tryInto (target : ℕ) (a : Uint width) : Option (Uint target) := checked target a.val

@[simp] theorem val_tryInto_getD_max (target : ℕ) (a : Uint width) :
    ((a.tryInto target).getD (max target)).val = min a.val (2 ^ target - 1) := by
  cases h : a.tryInto target with
  | none =>
      have large : 2 ^ target ≤ a.val := checked_eq_none.mp h
      simp only [Option.getD_none, val_max]
      omega
  | some b =>
      have same : b.val = a.val := checked_eq_some.mp h
      have := b.val_le_max
      simp only [Option.getD_some]
      omega

/-- An `as` cast to a type at least as wide. -/
def widen {target : ℕ} (wide : width ≤ target) (a : Uint width) : Uint target :=
  ⟨a.val, a.isLt.trans_le (Nat.pow_le_pow_right (by decide) wide)⟩

@[simp] theorem val_widen {target : ℕ} (wide : width ≤ target) (a : Uint width) :
    (a.widen wide).val = a.val := rfl

/-- An `as` cast to any type, which keeps the low bits. -/
def wrap (target : ℕ) (a : Uint width) : Uint target :=
  ⟨a.val % 2 ^ target, Nat.mod_lt _ (Nat.two_pow_pos target)⟩

@[simp] theorem val_wrap (target : ℕ) (a : Uint width) :
    (a.wrap target).val = a.val % 2 ^ target := rfl

end Uint
