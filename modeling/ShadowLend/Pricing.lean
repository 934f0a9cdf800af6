import ShadowLend.Accounts

/-! Conversions between token amounts and dollars with eight decimals. -/

namespace ShadowLend

open Outcome

def bpsDenominator : U128 := ⟨10000, by decide⟩

def liquidationBonusBps : U128 := ⟨500, by decide⟩

/-- In seconds. -/
def maxPriceAgeSec : U64 := ⟨300, by decide⟩

def mintDecimals : U8 := ⟨9, by decide⟩

def ten : U128 := ⟨10, by decide⟩

def checkedI32 (value : ℤ) : Except ProgramError ℤ :=
  if -2 ^ 31 ≤ value ∧ value < 2 ^ 31 then .ok value else .error .panicked

/-- `value.max(0) as u128`. -/
def positivePart (value : Int64) : U128 :=
  ⟨value.toInt.toNat, by have := value.toInt_lt; omega⟩

@[simp] theorem val_positivePart (value : Int64) :
    (positivePart value).val = value.toInt.toNat := rfl

/-- `8i32 + price.exponent - decimals as i32`. -/
def usdShift (price : Price) (decimals : U8) : Except ProgramError ℤ := do
  let scaled ← checkedI32 (8 + price.exponent.toInt)
  checkedI32 (scaled - decimals.val)

/-- USD value of `amount` of a token, scaled to eight decimals of dollars. -/
def tokenUsd8dp (amount : U64) (price : Price) (decimals : U8) : Except ProgramError U128 := do
  let raw := (amount.widen u64_le_u128).saturatingMul (positivePart price.price)
  let shift ← usdShift price decimals
  if 0 ≤ shift then
    let mul := (ten.checkedPow shift.toNat).getD (Uint.max 128)
    pure (raw.saturatingMul mul)
  else
    let places ← checkedI32 (-shift)
    let div := (ten.checkedPow places.toNat).getD 1
    pure (raw.div div)

/-- How many base units of a token a dollar value corresponds to. -/
def usd8dpToToken (valueUsd8dp : U128) (price : Price) (decimals : U8) :
    Except ProgramError U64 := do
  if price.price.toInt ≤ 0 then
    pure 0
  else
    let p := positivePart price.price
    let shift ← usdShift price decimals
    let result ←
      if 0 ≤ shift then
        let pow := (ten.checkedPow shift.toNat).getD (Uint.max 128)
        let denom := p.saturatingMul pow
        pure (if denom.val = 0 then 0 else valueUsd8dp.div denom)
      else do
        let places ← checkedI32 (-shift)
        let mul := (ten.checkedPow places.toNat).getD 1
        pure ((valueUsd8dp.saturatingMul mul).div p)
    pure ((result.tryInto 64).getD (Uint.max 64))

structure Totals where
  collatAtLtv : U128
  debt : U128

def Totals.zero : Totals := ⟨0, 0⟩

def accumulatePosition (supplied borrowed : U64) (price : Price) (decimals : U8)
    (maxLtvBps : U16) (totals : Totals) : Except ProgramError Totals := do
  let collat ← tokenUsd8dp supplied price decimals
  let atLtv := (collat.saturatingMul (maxLtvBps.widen u16_le_u128)).div bpsDenominator
  let debt ← tokenUsd8dp borrowed price decimals
  pure ⟨totals.collatAtLtv.saturatingAdd atLtv, totals.debt.saturatingAdd debt⟩

def usdValue (amount : U64) (price : Price) (decimals : U8) : ℕ :=
  match tokenUsd8dp amount price decimals with
  | .ok value => value.val
  | .error _ => 0

def collateralValue (supplied : U64) (price : Price) (decimals : U8) (maxLtvBps : U16) : ℕ :=
  min (usdValue supplied price decimals * maxLtvBps.val) (2 ^ 128 - 1) / 10000

theorem usdValue_of_ok {amount : U64} {price : Price} {decimals : U8} {value : U128}
    (converted : tokenUsd8dp amount price decimals = .ok value) :
    usdValue amount price decimals = value.val := by
  simp [usdValue, converted]

theorem usdValue_zero {amount : U64} (price : Price) (decimals : U8) (nothing : amount.val = 0) :
    usdValue amount price decimals = 0 := by
  unfold usdValue
  split
  · rename_i value converted
    unfold tokenUsd8dp at converted
    simp only [bind_ok] at converted
    rcases converted with ⟨shift, _, converted⟩
    split at converted
    · rw [pure_ok] at converted
      subst value
      simp [nothing]
    · simp only [bind_ok, pure_ok] at converted
      rcases converted with ⟨_, _, rfl⟩
      simp [nothing]
  · rfl

theorem usdValue_mono {amount larger : U64} (price : Price) (decimals : U8)
    (below : amount.val ≤ larger.val) :
    usdValue amount price decimals ≤ usdValue larger price decimals := by
  have grows (m : U128) : ((amount.widen u64_le_u128 : U128).saturatingMul m).val ≤
      ((larger.widen u64_le_u128 : U128).saturatingMul m).val := by
    have := Nat.mul_le_mul_right m.val below
    simp only [Uint.val_saturatingMul, Uint.val_widen]
    omega
  unfold usdValue tokenUsd8dp
  cases shift : usdShift price decimals with
  | error e => exact le_rfl
  | ok value =>
      by_cases whole : 0 ≤ value
      · have scaled := Nat.mul_le_mul_right ((ten.checkedPow value.toNat).getD (Uint.max 128)).val
          (grows (positivePart price.price))
        simp only [bind, Except.bind, if_pos whole, pure, Except.pure, Uint.val_saturatingMul]
        simp only [Uint.val_saturatingMul] at scaled
        omega
      · cases places : checkedI32 (-value) with
        | error e => simp [bind, Except.bind, whole, places]
        | ok shown =>
            simp only [bind, Except.bind, if_neg whole, places, pure, Except.pure, Uint.val_div]
            exact Nat.div_le_div_right (grows _)

theorem collateralValue_zero {supplied : U64} (price : Price) (decimals : U8) (maxLtvBps : U16)
    (nothing : supplied.val = 0) : collateralValue supplied price decimals maxLtvBps = 0 := by
  simp [collateralValue, usdValue_zero price decimals nothing]

/-- Ten thousand weighted collaterals fit in the running total together. -/
theorem collateralValue_le (supplied : U64) (price : Price) (decimals : U8) (maxLtvBps : U16) :
    collateralValue supplied price decimals maxLtvBps * 10000 ≤ 2 ^ 128 - 1 := by
  unfold collateralValue
  omega

/-- A position is accumulated exactly when its price converts, and then the
totals grow by its two values up to the ceiling. -/
theorem accumulatePosition_ok {supplied borrowed : U64} {price : Price} {decimals : U8}
    {maxLtvBps : U16} {totals after : Totals}
    (ran : accumulatePosition supplied borrowed price decimals maxLtvBps totals = .ok after) :
    after.collatAtLtv.val =
        min (totals.collatAtLtv.val + collateralValue supplied price decimals maxLtvBps)
          (2 ^ 128 - 1) ∧
      after.debt.val =
        min (totals.debt.val + usdValue borrowed price decimals) (2 ^ 128 - 1) := by
  unfold accumulatePosition at ran
  simp only [bind_ok, pure_ok] at ran
  rcases ran with ⟨collat, collatOk, debt, debtOk, rfl⟩
  constructor
  · simp [collateralValue, usdValue_of_ok collatOk, bpsDenominator]
  · simp [usdValue_of_ok debtOk]

/-- The exponents at which the `i32` arithmetic of a conversion does not panic. -/
def Price.converts (price : Price) (decimals : U8) : Prop :=
  ∃ shift, usdShift price decimals = .ok shift ∧ -2 ^ 31 < shift

theorem checkedI32_ok {value result : ℤ} :
    checkedI32 value = .ok result ↔ value = result ∧ -2 ^ 31 ≤ value ∧ value < 2 ^ 31 := by
  unfold checkedI32
  split
  · rename_i fits
    rw [Except.ok.injEq]
    exact ⟨fun same => ⟨same, fits⟩, And.left⟩
  · rename_i overflows
    simp only [reduceCtorEq, false_iff]
    intro fits
    exact overflows fits.2

theorem usdShift_ok {price : Price} {decimals : U8} {shift : ℤ}
    (ran : usdShift price decimals = .ok shift) :
    shift = 8 + price.exponent.toInt - decimals.val ∧ -2 ^ 31 ≤ shift ∧ shift < 2 ^ 31 := by
  simp only [usdShift, bind_ok, checkedI32_ok] at ran
  rcases ran with ⟨scaled, ⟨rfl, _⟩, rfl, low, high⟩
  exact ⟨rfl, low, high⟩

section Conversions

variable {price : Price} {decimals : U8} {shift : ℤ}

theorem tokenUsd8dp_whole (amount : U64) (shifted : usdShift price decimals = .ok shift)
    (whole : 0 ≤ shift) :
    tokenUsd8dp amount price decimals =
      .ok (((amount.widen u64_le_u128 : U128).saturatingMul
        (positivePart price.price)).saturatingMul
          ((ten.checkedPow shift.toNat).getD (Uint.max 128))) := by
  simp only [tokenUsd8dp, shifted, bind, Except.bind, if_pos whole]
  rfl

theorem tokenUsd8dp_divided (amount : U64) (shifted : usdShift price decimals = .ok shift)
    (divided : shift < 0) (low : -2 ^ 31 < shift) :
    tokenUsd8dp amount price decimals =
      .ok (((amount.widen u64_le_u128 : U128).saturatingMul (positivePart price.price)).div
        ((ten.checkedPow (-shift).toNat).getD 1)) := by
  have negated : checkedI32 (-shift) = .ok (-shift) := checkedI32_ok.mpr ⟨rfl, by omega, by omega⟩
  simp only [tokenUsd8dp, shifted, bind, Except.bind, if_neg (not_le.mpr divided), negated]
  rfl

/-- A shift which can be negated where that is needed does not panic. -/
theorem converts_of_negated (shifted : usdShift price decimals = .ok shift)
    (negated : shift < 0 → ∃ places, checkedI32 (-shift) = .ok places) :
    price.converts decimals := by
  refine ⟨shift, shifted, ?_⟩
  by_contra low
  rcases negated (by omega) with ⟨places, ran⟩
  have high := (checkedI32_ok.mp ran).2.2
  omega

/-- Whether a conversion panics has nothing to do with the amount. -/
theorem tokenUsd8dp_ok_iff {amount : U64} :
    (∃ value, tokenUsd8dp amount price decimals = .ok value) ↔ price.converts decimals := by
  constructor
  · intro converted
    rcases converted with ⟨value, ran⟩
    simp only [tokenUsd8dp, bind_ok] at ran
    rcases ran with ⟨shift, shifted, ran⟩
    apply converts_of_negated shifted
    intro divided
    rw [if_neg (not_le.mpr divided), bind_ok] at ran
    rcases ran with ⟨places, negated, _⟩
    exact ⟨places, negated⟩
  · intro converts
    rcases converts with ⟨shift, shifted, low⟩
    by_cases whole : 0 ≤ shift
    · exact ⟨_, tokenUsd8dp_whole amount shifted whole⟩
    · exact ⟨_, tokenUsd8dp_divided amount shifted (not_le.mp whole) low⟩

end Conversions

theorem accumulatePosition_ok_iff {supplied borrowed : U64} {price : Price} {decimals : U8}
    {maxLtvBps : U16} {totals : Totals} :
    (∃ after, accumulatePosition supplied borrowed price decimals maxLtvBps totals = .ok after) ↔
      price.converts decimals := by
  simp only [accumulatePosition, bind_ok, pure_ok]
  constructor
  · intro accumulated
    rcases accumulated with ⟨_, collat, ran, _⟩
    exact tokenUsd8dp_ok_iff.mp ⟨collat, ran⟩
  · intro converts
    rcases tokenUsd8dp_ok_iff.mpr converts with ⟨collat, collatOk⟩
    rcases tokenUsd8dp_ok_iff.mpr converts with ⟨debt, debtOk⟩
    exact ⟨_, collat, collatOk, debt, debtOk, rfl⟩

end ShadowLend
