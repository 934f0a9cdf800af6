import ShadowLend.Rounding

/-! The two conversions over all their inputs. They are exact but for rounding down
and a final clamp as long as the exponent arithmetic stays in `i32` and the power of
ten in `u128`; where a power does not fit, each of its fallbacks goes its own way. -/

namespace ShadowLend

open Outcome Devnet

def clampedUsd (amount : U64) (price : Price) (decimals : U8) : ℚ :=
  amount.val * (max price.price.toInt 0 : ℤ) * 10 ^ price.scale decimals

def exactTokens (value : U128) (price : Price) (decimals : U8) : ℚ :=
  value.val / (price.price.toInt * 10 ^ price.scale decimals)

/-- Neither the sum of the shift nor its negation leaves `i32`. -/
def Price.InRange (price : Price) (decimals : U8) : Prop :=
  price.exponent.toInt ≤ 2 ^ 31 - 9 ∧ -2 ^ 31 < price.scale decimals

/-- The power of ten divides, or there is nothing to divide. -/
def Price.Values (price : Price) (decimals : U8) (amount : U64) : Prop :=
  -38 ≤ price.scale decimals ∨ amount.val = 0 ∨ price.price.toInt ≤ 0

/-- The denominator is not cut off below a value at the ceiling, and where the power
of ten is left out the value buys nothing or the largest amount anyway. -/
def Price.Buys (price : Price) (decimals : U8) (value : U128) : Prop :=
  (0 ≤ price.scale decimals →
      price.price.toInt.toNat * 10 ^ (price.scale decimals).toNat ≤ 2 ^ 128 - 1 ∨
        value.val < 2 ^ 128 - 1) ∧
    (price.scale decimals < -38 →
      value.val = 0 ∨ (2 ^ 64 - 1) * price.price.toInt.toNat ≤ value.val)

section Ranges

variable {amount : U64} {price : Price} {decimals : U8}

theorem converts_iff_inRange : price.converts decimals ↔ price.InRange decimals := by
  have low := price.exponent.le_toInt
  have high := price.exponent.toInt_lt
  have places := decimals.isLt
  simp only [Price.converts, usdShift, bind_ok, checkedI32_ok, Price.InRange, Price.scale]
  constructor
  · intro converts
    rcases converts with ⟨_, ⟨_, ⟨rfl, _, below⟩, rfl, _, _⟩, above⟩
    omega
  · intro inRange
    rcases inRange with ⟨below, above⟩
    exact ⟨_, ⟨_, ⟨rfl, by omega, by omega⟩, rfl, by omega, by omega⟩, above⟩

theorem tokenUsd8dp_eq_iff {result : U128} :
    tokenUsd8dp amount price decimals = .ok result ↔
      price.converts decimals ∧ usdValue amount price decimals = result.val := by
  constructor
  · intro ran
    exact ⟨tokenUsd8dp_ok_iff.mp ⟨result, ran⟩, usdValue_of_ok ran⟩
  · intro exact_value
    rcases exact_value with ⟨converts, same⟩
    have converted : ∃ value, tokenUsd8dp amount price decimals = .ok value :=
      tokenUsd8dp_ok_iff.mpr converts
    rcases converted with ⟨value, ran⟩
    rw [usdValue_of_ok ran] at same
    rw [ran, Fin.ext same]

/-- Beyond 38 places the power of ten does not fit, and one takes its place. -/
theorem checkedPow_many {places : ℕ} (many : 38 < places) :
    ((ten.checkedPow places).getD 1).val = 1 := by
  have large : 2 ^ 128 ≤ 10 ^ places :=
    (by decide : 2 ^ 128 ≤ 10 ^ 39).trans (Nat.pow_le_pow_right (by decide) many)
  have none : ten.checkedPow places = none := Uint.checked_eq_none.mpr large
  rw [none]
  rfl

theorem usdValue_narrow (converts : price.converts decimals)
    (narrow : price.scale decimals < -38) :
    usdValue amount price decimals = amount.val * price.price.toInt.toNat := by
  rw [usdValue_divided converts (by omega), checkedPow_many (by omega), Nat.div_one]

theorem floor_clampedUsd :
    ⌊clampedUsd amount price decimals⌋₊ =
      ⌊((amount.val * price.price.toInt.toNat : ℕ) : ℚ) *
        ((10 : ℕ) : ℚ) ^ price.scale decimals⌋₊ := by
  have same : ((price.price.toInt.toNat : ℕ) : ℚ) = (max price.price.toInt 0 : ℤ) := by
    exact_mod_cast Int.toNat_eq_max price.price.toInt
  rw [clampedUsd, Nat.cast_mul, same, Nat.cast_ofNat]

theorem usdValue_exact_iff (converts : price.converts decimals) :
    usdValue amount price decimals =
        min ⌊clampedUsd amount price decimals⌋₊ (2 ^ 128 - 1) ↔
      price.Values decimals amount := by
  rw [floor_clampedUsd]
  rcases le_or_gt (-38) (price.scale decimals) with wide | narrow
  · rw [usdValue_floor converts wide, floor_exactUsd]
    exact iff_of_true rfl (Or.inl wide)
  · have small : amount.val * price.price.toInt.toNat < 10 ^ (-price.scale decimals).toNat := by
      have product := (raw_value amount price).symm.trans_le (Uint.val_le_max _)
      calc
        amount.val * price.price.toInt.toNat < 10 ^ 39 := product.trans_lt (by decide)
        _ ≤ 10 ^ (-price.scale decimals).toNat := Nat.pow_le_pow_right (by decide) (by omega)
    rw [usdValue_narrow converts narrow, Scaling.floor_divided _ (by omega),
      Nat.div_eq_of_lt small, Nat.zero_min, Nat.mul_eq_zero, Price.Values,
      or_iff_right (not_le.mpr narrow), Int.toNat_eq_zero]

section Buying

variable {value : U128}

theorem exactTokens_eq (priced : 0 < price.price.toInt) :
    exactTokens value price decimals =
      value.val / ((price.price.toInt.toNat : ℕ) * ((10 : ℕ) : ℚ) ^ price.scale decimals) := by
  rw [exactTokens, Price.cast_toNat priced.le, Nat.cast_ofNat]

theorem floor_exactTokens_whole (priced : 0 < price.price.toInt)
    (whole : 0 ≤ price.scale decimals) :
    ⌊exactTokens value price decimals⌋₊ =
      value.val / (price.price.toInt.toNat * 10 ^ (price.scale decimals).toNat) := by
  rw [exactTokens_eq priced, Scaling.floor_div_whole _ _ whole]

theorem floor_exactTokens_divided (priced : 0 < price.price.toInt)
    (divided : price.scale decimals < 0) :
    ⌊exactTokens value price decimals⌋₊ =
      value.val * 10 ^ (-price.scale decimals).toNat / price.price.toInt.toNat := by
  rw [exactTokens_eq priced, Scaling.floor_div_divided _ _ divided]

/-- Without its power of ten a value buys too little, unless that is enough anyway. -/
theorem bought_narrow_iff (priced : 0 < price.price.toInt)
    (narrow : price.scale decimals < -38) :
    min (boughtAmount value.val price decimals) (2 ^ 64 - 1) =
        min ⌊exactTokens value price decimals⌋₊ (2 ^ 64 - 1) ↔
      value.val = 0 ∨ (2 ^ 64 - 1) * price.price.toInt.toNat ≤ value.val := by
  have divided : price.scale decimals < 0 := by omega
  have positive : 0 < price.price.toInt.toNat := by omega
  have factor : price.price.toInt.toNat ≤ 2 ^ 63 := by
    have := price.price.toInt_lt
    omega
  have bound : (2 ^ 64 - 1) * price.price.toInt.toNat ≤ value.val ↔
      2 ^ 64 - 1 ≤ value.val / price.price.toInt.toNat := (Nat.le_div_iff_mul_le positive).symm
  rw [boughtAmount_divided _ divided, checkedPow_many (by omega), Nat.mul_one,
    min_eq_left value.val_le_max, floor_exactTokens_divided priced divided, bound]
  rcases Nat.eq_zero_or_pos value.val with zero | something
  · rw [zero, Nat.zero_mul, Nat.zero_div]
    exact iff_of_true rfl (Or.inl rfl)
  · have huge : 2 ^ 64 - 1 ≤
        value.val * 10 ^ (-price.scale decimals).toNat / price.price.toInt.toNat := by
      rw [Nat.le_div_iff_mul_le positive]
      calc
        (2 ^ 64 - 1) * price.price.toInt.toNat ≤ (2 ^ 64 - 1) * 2 ^ 63 :=
          Nat.mul_le_mul_left _ factor
        _ ≤ 10 ^ 39 := by decide
        _ ≤ 10 ^ (-price.scale decimals).toNat := Nat.pow_le_pow_right (by decide) (by omega)
        _ ≤ value.val * 10 ^ (-price.scale decimals).toNat := Nat.le_mul_of_pos_left _ something
    rw [min_eq_right huge, min_eq_right_iff, or_iff_right something.ne']

theorem bought_exact_iff (priced : 0 < price.price.toInt) :
    min (boughtAmount value.val price decimals) (2 ^ 64 - 1) =
        min ⌊exactTokens value price decimals⌋₊ (2 ^ 64 - 1) ↔
      price.Buys decimals value := by
  rcases le_or_gt 0 (price.scale decimals) with whole | divided
  · rw [boughtAmount_whole _ whole, floor_exactTokens_whole priced whole,
      Scaling.capped_divisor_exact_iff (by decide) (by decide) value.val_le_max, Price.Buys]
    constructor
    · intro fits
      exact ⟨fun _ => fits, fun narrow => absurd narrow (by omega)⟩
    · intro buys
      exact buys.1 whole
  · have vacuous : price.Buys decimals value ↔ (price.scale decimals < -38 →
        value.val = 0 ∨ (2 ^ 64 - 1) * price.price.toInt.toNat ≤ value.val) :=
      and_iff_right fun whole => absurd whole (not_le.mpr divided)
    rw [vacuous]
    rcases le_or_gt (-38) (price.scale decimals) with wide | narrow
    · have room : 2 ^ 64 - 1 ≤ (2 ^ 128 - 1) / price.price.toInt.toNat := by
        rw [Nat.le_div_iff_mul_le (by omega)]
        have := price.price.toInt_lt
        omega
      rw [boughtAmount_divided _ divided, checkedPow_places (by omega),
        floor_exactTokens_divided priced divided, Scaling.capped_quotient room]
      exact iff_of_true rfl fun narrow => absurd narrow (by omega)
    · rw [bought_narrow_iff priced narrow]
      exact ⟨fun enough _ => enough, fun enough => enough narrow⟩

end Buying

end Ranges

/-- Both conversions truncate the exact value and clamp it, and neither panics, in
exactly these ranges. -/
theorem conversions_exact_iff (price : Price) (decimals : U8) :
    (∀ amount, tokenUsd8dp amount price decimals =
        .ok (Uint.clamp 128 ⌊clampedUsd amount price decimals⌋₊) ↔
      price.InRange decimals ∧ price.Values decimals amount) ∧
    (0 < price.price.toInt → ∀ value, usd8dpToToken value price decimals =
        .ok (Uint.clamp 64 ⌊exactTokens value price decimals⌋₊) ↔
      price.InRange decimals ∧ price.Buys decimals value) := by
  rw [← converts_iff_inRange]
  constructor
  · intro amount
    rw [tokenUsd8dp_eq_iff, Uint.val_clamp]
    exact and_congr_right usdValue_exact_iff
  · intro priced value
    have exact_of_converts : price.converts decimals →
        (usd8dpToToken value price decimals =
            .ok (Uint.clamp 64 ⌊exactTokens value price decimals⌋₊) ↔
          price.Buys decimals value) := by
      intro converts
      rw [usd8dpToToken_eq converts priced, Except.ok.injEq, Fin.ext_iff, Uint.val_clamp,
        Uint.val_clamp]
      exact bought_exact_iff priced
    constructor
    · intro ran
      have converts := (usd8dpToToken_ok_iff priced).mp ⟨_, ran⟩
      exact ⟨converts, (exact_of_converts converts).mp ran⟩
    · intro holds
      exact (exact_of_converts holds.1).mpr holds.2

theorem conversions_exact_sol :
    tokenUsd8dp 1000000000 (dollars 10000000000) 9 =
        .ok (Uint.clamp 128 ⌊clampedUsd 1000000000 (dollars 10000000000) 9⌋₊) ∧
      usd8dpToToken 10000000000 (dollars 10000000000) 9 =
        .ok (Uint.clamp 64 ⌊exactTokens 10000000000 (dollars 10000000000) 9⌋₊) := by
  have exact_iff := conversions_exact_iff (dollars 10000000000) 9
  have inRange : (dollars 10000000000).InRange 9 := by
    unfold Price.InRange
    decide
  have values : (dollars 10000000000).Values 9 1000000000 := Or.inl (by decide)
  have buys : (dollars 10000000000).Buys 9 10000000000 :=
    ⟨fun whole => absurd whole (by decide), fun narrow => absurd narrow (by decide)⟩
  exact ⟨(exact_iff.1 _).mpr ⟨inRange, values⟩,
    (exact_iff.2 (by decide) _).mpr ⟨inRange, buys⟩⟩

def faint : Price := { dollars 1 with exponent := -38 }

def steepest : Price := { dollars 1 with exponent := 2147483647 }

/-- The fallback to one reads 39 places as none, and the largest exponent panics. -/
theorem conversions_fall_back :
    tokenUsd8dp 1 faint 9 = .ok 1 ∧ ⌊clampedUsd 1 faint 9⌋₊ = 0 ∧
      usd8dpToToken 1 faint 9 = .ok 1 ∧ ⌊exactTokens 1 faint 9⌋₊ = 10 ^ 39 ∧
      tokenUsd8dp 1 steepest 9 = .error .panicked ∧
      usd8dpToToken 1 steepest 9 = .error .panicked := by
  decide +kernel

section RoundTrip

variable {amount : U64} {price : Price} {decimals : U8}

theorem bought_back_le (converts : price.converts decimals) :
    boughtAmount (usdValue amount price decimals) price decimals ≤ amount.val := by
  rcases le_or_gt 0 (price.scale decimals) with whole | divided
  · rw [usdValue_whole converts whole, boughtAmount_whole _ whole, Nat.mul_assoc]
    exact Scaling.capped_round_trip _ _ _
  · rw [usdValue_divided converts divided, boughtAmount_divided _ divided]
    apply Nat.div_le_of_le_mul
    rw [Nat.mul_comm price.price.toInt.toNat]
    exact (min_le_left _ _).trans (Nat.div_mul_le_self _ _)

/-- A value that is not cut off buys back all of an amount that it was whole for. -/
theorem bought_back_whole (converts : price.converts decimals) (priced : 0 < price.price.toInt)
    (whole : 0 ≤ price.scale decimals) (fits : exactUsd amount price decimals < 2 ^ 128) :
    boughtAmount (usdValue amount price decimals) price decimals = amount.val := by
  rw [exactUsd_whole priced whole] at fits
  have product : amount.val * price.price.toInt.toNat * 10 ^ (price.scale decimals).toNat ≤
      2 ^ 128 - 1 := Nat.le_sub_one_of_lt (by exact_mod_cast fits)
  rw [usdValue_whole converts whole, boughtAmount_whole _ whole, min_eq_left product]
  rw [Nat.mul_assoc] at product ⊢
  rcases Nat.eq_zero_or_pos amount.val with zero | positive
  · rw [zero, Nat.zero_mul, Nat.zero_div]
  · have divisor : 0 < price.price.toInt.toNat * 10 ^ (price.scale decimals).toNat :=
      Nat.mul_pos (by omega) (Nat.pow_pos (by decide))
    rw [min_eq_left ((Nat.le_mul_of_pos_left _ positive).trans product),
      Nat.mul_div_cancel _ divisor]

/-- Otherwise the value of less than one unit of a dollar value is lost, and a unit. -/
theorem bought_back_divided (converts : price.converts decimals)
    (priced : 0 < price.price.toInt) (divided : price.scale decimals < 0)
    (wide : -38 ≤ price.scale decimals) :
    amount.val * price.price.toInt.toNat <
      (boughtAmount (usdValue amount price decimals) price decimals + 1) *
          price.price.toInt.toNat +
        10 ^ (-price.scale decimals).toNat := by
  have product := (raw_value amount price).symm.trans_le (Uint.val_le_max _)
  have fits : amount.val * price.price.toInt.toNat / 10 ^ (-price.scale decimals).toNat *
      10 ^ (-price.scale decimals).toNat ≤ 2 ^ 128 - 1 :=
    (Nat.div_mul_le_self _ _).trans product
  rw [usdValue_divided converts divided, boughtAmount_divided _ divided,
    checkedPow_places (by omega), min_eq_left fits]
  exact Scaling.divided_twice (by omega) (Nat.pow_pos (by decide))

end RoundTrip

/-- A conversion to dollars and back gains nothing and loses less than a unit of the
dollar value is worth, and a base unit. Only the value itself can saturate then. -/
theorem round_trip {price : Price} {decimals : U8} (priced : 0 < price.price.toInt)
    (converts : price.converts decimals) (amount : U64) :
    ∃ value back, tokenUsd8dp amount price decimals = .ok value ∧
      usd8dpToToken value price decimals = .ok back ∧ back.val ≤ amount.val ∧
      (-38 ≤ price.scale decimals → exactUsd amount price decimals < 2 ^ 128 →
        (amount.val - back.val : ℚ) <
          10 ^ (-price.scale decimals) / price.price.toInt + 1) := by
  rcases tokenUsd8dp_ok_iff.mpr converts with ⟨value, ran⟩
  have valued := usdValue_of_ok ran
  have gains : boughtAmount (usdValue amount price decimals) price decimals ≤ amount.val :=
    bought_back_le converts
  have back : (Uint.clamp 64 (boughtAmount value.val price decimals)).val =
      boughtAmount (usdValue amount price decimals) price decimals := by
    rw [Uint.val_clamp, valued, min_eq_left]
    rw [← valued]
    exact gains.trans amount.val_le_max
  refine ⟨value, _, ran, usd8dpToToken_eq converts priced value, back ▸ gains, ?_⟩
  intro wide fits
  have price_pos : (0 : ℚ) < price.price.toInt := by exact_mod_cast priced
  rw [back]
  rcases le_or_gt 0 (price.scale decimals) with whole | divided
  · rw [bought_back_whole converts priced whole fits, sub_self]
    positivity
  · have loss : ((amount.val * price.price.toInt.toNat : ℕ) : ℚ) < _ :=
      Nat.cast_lt.mpr (bought_back_divided converts priced divided wide)
    have places : (10 : ℚ) ^ (-price.scale decimals) =
        ((10 ^ (-price.scale decimals).toNat : ℕ) : ℚ) := by
      have power : ((10 : ℕ) : ℚ) ^ (-price.scale decimals) = _ :=
        Scaling.zpow_whole (by omega)
      rwa [Nat.cast_ofNat] at power
    rw [Nat.cast_add, Nat.cast_mul, Nat.cast_mul, Nat.cast_add, Nat.cast_one,
      Price.cast_toNat priced.le] at loss
    rw [places, ← sub_lt_iff_lt_add, lt_div_iff₀ price_pos]
    linarith

theorem round_trip_sol :
    ∃ value back, tokenUsd8dp 1234567890000 (dollars 10000000000) 9 = .ok value ∧
      usd8dpToToken value (dollars 10000000000) 9 = .ok back ∧ back.val ≤ 1234567890000 ∧
      (1234567890000 - back.val : ℚ) < 10 ^ 9 / 10000000000 + 1 := by
  have converts : (dollars 10000000000).converts 9 := by
    rw [converts_iff_inRange, Price.InRange]
    decide
  have fits : exactUsd 1234567890000 (dollars 10000000000) 9 < 2 ^ 128 := by decide +kernel
  rcases round_trip (by decide) converts 1234567890000 with
    ⟨value, back, there, backAgain, gains, loses⟩
  exact ⟨value, back, there, backAgain, gains, loses (by decide) fits⟩

end ShadowLend
