import ShadowLend.Foundation.Scaling
import ShadowLend.Devnet
import ShadowLend.Listing
import Mathlib.Algebra.Order.Field.Power
import Mathlib.Data.Nat.Cast.Order.Field
import Mathlib.Data.Rat.Floor
import Mathlib.Tactic.Linarith
import Mathlib.Tactic.NormNum
import Mathlib.Tactic.Positivity

/-! The conversion to dollars against the exact value in the rationals. It truncates
what it converts, a debt as well as a deposit, and reads a negative price as zero. -/

namespace ShadowLend

open Outcome Devnet

/-- The power of ten between base units at a price and dollars with eight decimals. -/
def Price.scale (price : Price) (decimals : U8) : ℤ := 8 + price.exponent.toInt - decimals.val

/-- The value of an amount, unrounded and with the sign of its price. -/
def exactUsd (amount : U64) (price : Price) (decimals : U8) : ℚ :=
  amount.val * price.price.toInt * 10 ^ price.scale decimals

def Contribution.exactDebt (e : Contribution) : ℚ := exactUsd e.borrowed e.price e.decimals

def Contribution.exactCollateral (e : Contribution) : ℚ :=
  exactUsd e.supplied e.price e.decimals * e.maxLtvBps.val / 10000

/-- What each side of the check keeps of the exact values of an entry. -/
structure Contribution.Truncated (e : Contribution) : Prop where
  debt : e.debt = min ⌊e.exactDebt⌋₊ (2 ^ 128 - 1)
  debt_le : (e.debt : ℚ) ≤ max e.exactDebt 0
  debt_close : e.debt < 2 ^ 128 - 1 → e.exactDebt < e.debt + 1
  debt_pos : 0 < e.debt ↔ 1 ≤ e.exactDebt
  collateral_le : (e.collateral : ℚ) ≤ max e.exactCollateral 0

section Conversions

variable {amount : U64} {price : Price} {decimals : U8}

theorem raw_value (amount : U64) (price : Price) :
    ((amount.widen u64_le_u128 : U128).saturatingMul (positivePart price.price)).val =
      amount.val * price.price.toInt.toNat := by
  have factor : price.price.toInt.toNat ≤ 2 ^ 63 := by
    have := price.price.toInt_lt
    omega
  have product : amount.val * price.price.toInt.toNat ≤ (2 ^ 64 - 1) * 2 ^ 63 :=
    Nat.mul_le_mul amount.val_le_max factor
  rw [Uint.val_saturatingMul, Uint.val_widen]
  exact min_eq_left (product.trans (by decide))

theorem Price.cast_toNat (priced : 0 ≤ price.price.toInt) :
    ((price.price.toInt.toNat : ℕ) : ℚ) = price.price.toInt := by
  exact_mod_cast Int.toNat_of_nonneg priced

theorem floor_exactUsd :
    ⌊exactUsd amount price decimals⌋₊ =
      ⌊((amount.val * price.price.toInt.toNat : ℕ) : ℚ) *
        ((10 : ℕ) : ℚ) ^ price.scale decimals⌋₊ := by
  rcases le_total price.price.toInt 0 with worthless | priced
  · have nothing : exactUsd amount price decimals ≤ 0 := by
      have price_le : (price.price.toInt : ℚ) ≤ 0 := by exact_mod_cast worthless
      have amount_le : (0 : ℚ) ≤ amount.val := Nat.cast_nonneg _
      have value_le := mul_nonpos_of_nonneg_of_nonpos amount_le price_le
      exact mul_nonpos_of_nonpos_of_nonneg value_le (by positivity)
    rw [Nat.floor_of_nonpos nothing, Int.toNat_of_nonpos worthless]
    simp
  · rw [exactUsd, Nat.cast_mul, Price.cast_toNat priced, Nat.cast_ofNat]

theorem checkedPow_ten (exponent : ℕ) :
    ((ten.checkedPow exponent).getD (Uint.max 128)).val = min (10 ^ exponent) (2 ^ 128 - 1) := by
  cases found : ten.checkedPow exponent with
  | none =>
      have large : 2 ^ 128 ≤ 10 ^ exponent := Uint.checked_eq_none.mp found
      rw [Option.getD_none, Uint.val_max]
      omega
  | some power =>
      have same : power.val = 10 ^ exponent := Uint.checked_eq_some.mp found
      have bound := power.val_le_max
      rw [Option.getD_some, same]
      omega

theorem checkedPow_places {places : ℕ} (few : places ≤ 38) :
    ((ten.checkedPow places).getD 1).val = 10 ^ places := by
  have fits : 10 ^ places < 2 ^ 128 :=
    (Nat.pow_le_pow_right (by decide) few).trans_lt (by decide)
  cases found : ten.checkedPow places with
  | none => exact absurd (Uint.checked_eq_none.mp found) (not_le.mpr fits)
  | some power => exact Uint.checked_eq_some.mp found

theorem usdValue_whole (converts : price.converts decimals) (whole : 0 ≤ price.scale decimals) :
    usdValue amount price decimals =
      min (amount.val * price.price.toInt.toNat * 10 ^ (price.scale decimals).toNat)
        (2 ^ 128 - 1) := by
  rcases converts with ⟨shift, shifted, low⟩
  have scaled : shift = price.scale decimals := (usdShift_ok shifted).1
  rw [← scaled] at whole ⊢
  rw [usdValue_of_ok (tokenUsd8dp_whole amount shifted whole), Uint.val_saturatingMul, raw_value,
    checkedPow_ten, Scaling.capped_factor]

theorem usdValue_divided (converts : price.converts decimals)
    (divided : price.scale decimals < 0) :
    usdValue amount price decimals =
      amount.val * price.price.toInt.toNat /
        ((ten.checkedPow (-price.scale decimals).toNat).getD 1).val := by
  rcases converts with ⟨shift, shifted, low⟩
  have scaled : shift = price.scale decimals := (usdShift_ok shifted).1
  rw [← scaled] at divided ⊢
  rw [usdValue_of_ok (tokenUsd8dp_divided amount shifted divided low), Uint.val_div, raw_value]

theorem usdValue_worthless (converts : price.converts decimals)
    (worthless : price.price.toInt ≤ 0) : usdValue amount price decimals = 0 := by
  have factor : price.price.toInt.toNat = 0 := Int.toNat_of_nonpos worthless
  rcases le_or_gt 0 (price.scale decimals) with whole | divided
  · rw [usdValue_whole converts whole, factor, Nat.mul_zero, Nat.zero_mul, Nat.zero_min]
  · rw [usdValue_divided converts divided, factor, Nat.mul_zero, Nat.zero_div]

/-- A conversion is the exact value truncated, and cut off at the ceiling. -/
theorem usdValue_floor (converts : price.converts decimals) (wide : -38 ≤ price.scale decimals) :
    usdValue amount price decimals = min ⌊exactUsd amount price decimals⌋₊ (2 ^ 128 - 1) := by
  rw [floor_exactUsd]
  rcases le_or_gt 0 (price.scale decimals) with whole | divided
  · rw [usdValue_whole converts whole, Scaling.floor_whole _ whole]
  · have product := (raw_value amount price).symm.trans_le (Uint.val_le_max _)
    rw [usdValue_divided converts divided, Scaling.floor_divided _ divided,
      checkedPow_places (by omega)]
    exact (min_eq_left ((Nat.div_le_self _ _).trans product)).symm

theorem usdValue_le_exact (converts : price.converts decimals)
    (wide : -38 ≤ price.scale decimals) :
    (usdValue amount price decimals : ℚ) ≤ max (exactUsd amount price decimals) 0 := by
  have floor : ((⌊exactUsd amount price decimals⌋₊ : ℕ) : ℚ) ≤
      max (exactUsd amount price decimals) 0 := by
    rcases le_total (exactUsd amount price decimals) 0 with nothing | something
    · rw [Nat.floor_of_nonpos nothing, Nat.cast_zero]
      exact le_max_right _ _
    · exact (Nat.floor_le something).trans (le_max_left _ _)
  rw [usdValue_floor converts wide]
  exact (Nat.cast_le.mpr (min_le_left _ _)).trans floor

end Conversions

section Amounts

variable {price : Price} {decimals : U8}

theorem exactUsd_zero {amount : U64} (nothing : amount.val = 0) :
    exactUsd amount price decimals = 0 := by
  rw [exactUsd, nothing, Nat.cast_zero, zero_mul, zero_mul]

theorem exactUsd_add {whole part rest : U64} (split : rest.val + part.val = whole.val) :
    exactUsd rest price decimals + exactUsd part price decimals =
      exactUsd whole price decimals := by
  have sum : (rest.val : ℚ) + part.val = whole.val := by exact_mod_cast split
  rw [exactUsd, exactUsd, exactUsd, ← sum]
  ring

theorem exactUsd_nonneg {amount : U64} (priced : 0 < price.price.toInt) :
    0 ≤ exactUsd amount price decimals := by
  have price_pos : (0 : ℚ) < price.price.toInt := by exact_mod_cast priced
  unfold exactUsd
  positivity

theorem exactUsd_mono {amount larger : U64} (priced : 0 < price.price.toInt)
    (below : amount.val ≤ larger.val) :
    exactUsd amount price decimals ≤ exactUsd larger price decimals := by
  have price_pos : (0 : ℚ) < price.price.toInt := by exact_mod_cast priced
  have amount_le : (amount.val : ℚ) ≤ larger.val := Nat.cast_le.mpr below
  unfold exactUsd
  gcongr

end Amounts

section Buying

variable {price : Price} {decimals : U8} {shift : ℤ} {value : U128}

theorem usd8dpToToken_worthless (worthless : price.price.toInt ≤ 0) :
    usd8dpToToken value price decimals = .ok 0 := by
  simp only [usd8dpToToken, if_pos worthless]
  rfl

theorem usd8dpToToken_whole (priced : 0 < price.price.toInt)
    (shifted : usdShift price decimals = .ok shift) (whole : 0 ≤ shift) :
    usd8dpToToken value price decimals =
      .ok (((value.div ((positivePart price.price).saturatingMul
        ((ten.checkedPow shift.toNat).getD (Uint.max 128)))).tryInto 64).getD (Uint.max 64)) := by
  have quotient (denom : U128) :
      (if denom.val = 0 then 0 else value.div denom) = value.div denom := by
    split
    · rename_i zero
      apply Fin.ext
      rw [Uint.val_div, zero, Nat.div_zero]
      rfl
    · rfl
  simp only [usd8dpToToken, if_neg (not_le.mpr priced), shifted, bind, Except.bind, if_pos whole,
    quotient]
  rfl

theorem usd8dpToToken_divided (priced : 0 < price.price.toInt)
    (shifted : usdShift price decimals = .ok shift) (divided : shift < 0)
    (low : -2 ^ 31 < shift) :
    usd8dpToToken value price decimals =
      .ok ((((value.saturatingMul ((ten.checkedPow (-shift).toNat).getD 1)).div
        (positivePart price.price)).tryInto 64).getD (Uint.max 64)) := by
  have negated : checkedI32 (-shift) = .ok (-shift) := checkedI32_ok.mpr ⟨rfl, by omega, by omega⟩
  simp only [usd8dpToToken, if_neg (not_le.mpr priced), shifted, bind, Except.bind,
    if_neg (not_le.mpr divided), negated]
  rfl

theorem checkedPow_le (places : ℕ) : ((ten.checkedPow places).getD 1).val ≤ 10 ^ places := by
  cases found : ten.checkedPow places with
  | none => exact Nat.one_le_pow _ _ (by decide)
  | some power => exact (Uint.checked_eq_some.mp found).le

theorem exactUsd_whole {amount : U64} (priced : 0 < price.price.toInt)
    (whole : 0 ≤ price.scale decimals) :
    exactUsd amount price decimals =
      ((amount.val * price.price.toInt.toNat * 10 ^ (price.scale decimals).toNat : ℕ) : ℚ) := by
  have power : ((10 : ℕ) : ℚ) ^ price.scale decimals =
      ((10 ^ (price.scale decimals).toNat : ℕ) : ℚ) := Scaling.zpow_whole whole
  rw [Nat.cast_ofNat] at power
  rw [exactUsd, power, Nat.cast_mul, Nat.cast_mul, Price.cast_toNat priced.le]

theorem exactUsd_divided {amount : U64} (priced : 0 < price.price.toInt)
    (divided : price.scale decimals < 0) :
    exactUsd amount price decimals =
      ((amount.val * price.price.toInt.toNat : ℕ) : ℚ) /
        ((10 ^ (-price.scale decimals).toNat : ℕ) : ℚ) := by
  have power : ((10 : ℕ) : ℚ) ^ price.scale decimals =
      ((10 ^ (-price.scale decimals).toNat : ℕ) : ℚ)⁻¹ := Scaling.zpow_divided divided
  rw [Nat.cast_ofNat] at power
  rw [exactUsd, power, Nat.cast_mul, Price.cast_toNat priced.le, div_eq_mul_inv]

/-- What a value buys at a positive price, as a number and before it is clamped. -/
def boughtAmount (value : ℕ) (price : Price) (decimals : U8) : ℕ :=
  if 0 ≤ price.scale decimals then
    value / min (price.price.toInt.toNat * 10 ^ (price.scale decimals).toNat) (2 ^ 128 - 1)
  else
    min (value * ((ten.checkedPow (-price.scale decimals).toNat).getD 1).val) (2 ^ 128 - 1) /
      price.price.toInt.toNat

theorem boughtAmount_whole (value : ℕ) (whole : 0 ≤ price.scale decimals) :
    boughtAmount value price decimals =
      value / min (price.price.toInt.toNat * 10 ^ (price.scale decimals).toNat) (2 ^ 128 - 1) :=
  if_pos whole

theorem boughtAmount_divided (value : ℕ) (divided : price.scale decimals < 0) :
    boughtAmount value price decimals =
      min (value * ((ten.checkedPow (-price.scale decimals).toNat).getD 1).val) (2 ^ 128 - 1) /
        price.price.toInt.toNat :=
  if_neg (not_le.mpr divided)

theorem boughtAmount_zero : boughtAmount 0 price decimals = 0 := by
  unfold boughtAmount
  split
  · exact Nat.zero_div _
  · rw [Nat.zero_mul, Nat.zero_min, Nat.zero_div]

/-- The one step from the program's arithmetic to numbers. -/
theorem usd8dpToToken_eq (converts : price.converts decimals) (priced : 0 < price.price.toInt)
    (value : U128) :
    usd8dpToToken value price decimals =
      .ok (Uint.clamp 64 (boughtAmount value.val price decimals)) := by
  rcases converts with ⟨shift, shifted, low⟩
  have scaled : shift = price.scale decimals := (usdShift_ok shifted).1
  by_cases whole : 0 ≤ shift
  · rw [usd8dpToToken_whole priced shifted whole, Except.ok.injEq]
    apply Fin.ext
    rw [Uint.val_tryInto_getD_max, Uint.val_div, Uint.val_saturatingMul, checkedPow_ten,
      val_positivePart, Scaling.capped_factor, Uint.val_clamp,
      boughtAmount_whole _ (scaled ▸ whole), ← scaled]
  · have divided : shift < 0 := not_le.mp whole
    rw [usd8dpToToken_divided priced shifted divided low, Except.ok.injEq]
    apply Fin.ext
    rw [Uint.val_tryInto_getD_max, Uint.val_div, Uint.val_saturatingMul, val_positivePart,
      Uint.val_clamp, boughtAmount_divided _ (scaled ▸ divided), ← scaled]

theorem usd8dpToToken_ok_iff (priced : 0 < price.price.toInt) :
    (∃ bought, usd8dpToToken value price decimals = .ok bought) ↔ price.converts decimals := by
  constructor
  · intro converted
    rcases converted with ⟨bought, ran⟩
    simp only [usd8dpToToken, if_neg (not_le.mpr priced), bind_ok] at ran
    rcases ran with ⟨shift, shifted, ran⟩
    apply converts_of_negated shifted
    intro divided
    rw [if_neg (not_le.mpr divided), bind_ok] at ran
    rcases ran with ⟨places, negated, _⟩
    exact ⟨places, negated⟩
  · intro converts
    exact ⟨_, usd8dpToToken_eq converts priced value⟩

theorem boughtAmount_mono {value larger : ℕ} (below : value ≤ larger) :
    boughtAmount value price decimals ≤ boughtAmount larger price decimals := by
  unfold boughtAmount
  split
  · exact Nat.div_le_div_right below
  · apply Nat.div_le_div_right
    exact min_le_min_right _ (Nat.mul_le_mul_right _ below)

/-- What a value buys is worth no more than it, as long as the value is below the
ceiling, where a denominator that was cut off would buy too much. -/
theorem bought_le_value {value : U128} {bought : U64} (converts : price.converts decimals)
    (ran : usd8dpToToken value price decimals = .ok bought)
    (below : value.val < 2 ^ 128 - 1) : exactUsd bought price decimals ≤ value.val := by
  rcases le_or_gt price.price.toInt 0 with worthless | priced
  · rw [usd8dpToToken_worthless worthless, Except.ok.injEq] at ran
    rw [exactUsd_zero (congrArg Fin.val ran.symm)]
    exact Nat.cast_nonneg _
  · rw [usd8dpToToken_eq converts priced, Except.ok.injEq] at ran
    have amount : bought.val ≤ boughtAmount value.val price decimals := by
      rw [← ran, Uint.val_clamp]
      exact min_le_left _ _
    rcases le_or_gt 0 (price.scale decimals) with whole | divided
    · rw [boughtAmount_whole _ whole] at amount
      rw [exactUsd_whole priced whole, mul_assoc]
      apply Nat.cast_le.mpr
      exact (Nat.mul_le_mul_right _ amount).trans (Scaling.capped_divisor below)
    · rw [boughtAmount_divided _ divided] at amount
      have places : (0 : ℚ) < ((10 ^ (-price.scale decimals).toNat : ℕ) : ℚ) := by positivity
      rw [exactUsd_divided priced divided, div_le_iff₀ places, ← Nat.cast_mul]
      apply Nat.cast_le.mpr
      calc
        _ ≤ min (value.val * ((ten.checkedPow (-price.scale decimals).toNat).getD 1).val)
                (2 ^ 128 - 1) / price.price.toInt.toNat * price.price.toInt.toNat :=
          Nat.mul_le_mul_right _ amount
        _ ≤ min (value.val * ((ten.checkedPow (-price.scale decimals).toNat).getD 1).val)
              (2 ^ 128 - 1) := Nat.div_mul_le_self _ _
        _ ≤ value.val * ((ten.checkedPow (-price.scale decimals).toNat).getD 1).val :=
          min_le_left _ _
        _ ≤ value.val * 10 ^ (-price.scale decimals).toNat :=
          Nat.mul_le_mul_left _ (checkedPow_le _)

end Buying

theorem truncated_of_converts {e : Contribution} (converts : e.price.converts e.decimals)
    (wide : -38 ≤ e.price.scale e.decimals) : e.Truncated := by
  have debt : e.debt = min ⌊e.exactDebt⌋₊ (2 ^ 128 - 1) := usdValue_floor converts wide
  refine ⟨debt, usdValue_le_exact converts wide, ?_, ?_, ?_⟩
  · intro below
    have truncated : e.debt = ⌊e.exactDebt⌋₊ := by omega
    rw [truncated]
    exact Nat.lt_floor_add_one e.exactDebt
  · have positive : 0 < e.debt ↔ 0 < ⌊e.exactDebt⌋₊ := by omega
    rw [positive, Nat.floor_pos]
  · have worth : (usdValue e.supplied e.price e.decimals : ℚ) ≤
        max (exactUsd e.supplied e.price e.decimals) 0 := usdValue_le_exact converts wide
    have weight : (0 : ℚ) ≤ (e.maxLtvBps.val : ℚ) / 10000 := by positivity
    calc
      (e.collateral : ℚ) ≤
          ((usdValue e.supplied e.price e.decimals * e.maxLtvBps.val / 10000 : ℕ) : ℚ) :=
        Nat.cast_le.mpr (Nat.div_le_div_right (min_le_left _ _))
      _ ≤ usdValue e.supplied e.price e.decimals * e.maxLtvBps.val / 10000 := by
        exact_mod_cast Nat.cast_div_le
      _ = usdValue e.supplied e.price e.decimals * (e.maxLtvBps.val / 10000) := mul_div_assoc ..
      _ ≤ max (exactUsd e.supplied e.price e.decimals) 0 * (e.maxLtvBps.val / 10000) :=
        mul_le_mul_of_nonneg_right worth weight
      _ = max e.exactCollateral 0 := by
        rw [max_mul_of_nonneg _ _ weight, zero_mul, Contribution.exactCollateral, mul_div_assoc]

/-- Neither side of the check of a loan or a withdrawal is rounded up. -/
theorem check_truncates {rt : Runtime} {s s' : State} {a : Action} {kind : MarketActionKind}
    {user : Signer} {mint : Pubkey} (acts : a.touch = some (kind, user, mint))
    (checked : kind = .withdraw ∨ kind = .borrow) (step : Step rt s a s') :
    ∃ log totals, a.counted rt s = .ok log ∧ accumulateAll log .zero = .ok totals ∧
      totals.debt.val ≤ totals.collatAtLtv.val ∧
      totals.debt.val = min (log.map Contribution.debt).sum (2 ^ 128 - 1) ∧
      totals.collatAtLtv.val = min (log.map Contribution.collateral).sum (2 ^ 128 - 1) ∧
      ∀ e ∈ log, -38 ≤ e.price.scale e.decimals → e.Truncated := by
  rcases owner_check acts checked step with ⟨log, counted, ⟨check⟩⟩
  rcases accumulateAll_zero check.summed with ⟨collateral, debt⟩
  refine ⟨log, check.totals, counted, check.summed, check.healthy, debt, collateral, ?_⟩
  intro e member wide
  exact truncated_of_converts (accumulateAll_ok_iff.mp ⟨_, check.summed⟩ e member) wide

theorem check_truncates_loan :
    ∃ s', Step devnet (ledger lenders) (borrowUsdc 8000000000000) s' ∧
      ∃ log totals, (borrowUsdc 8000000000000).counted devnet (ledger lenders) = .ok log ∧
        accumulateAll log .zero = .ok totals ∧
        totals.debt.val ≤ totals.collatAtLtv.val ∧
        totals.debt.val = min (log.map Contribution.debt).sum (2 ^ 128 - 1) ∧
        totals.collatAtLtv.val = min (log.map Contribution.collateral).sum (2 ^ 128 - 1) ∧
        ∀ e ∈ log, -38 ≤ e.price.scale e.decimals → e.Truncated := by
  have ran : ∃ s', Step devnet (ledger lenders) (borrowUsdc 8000000000000) s' ∧
      s'.userDebt (quoted 10000000000) alice.pubkey = 800000000000 := ok_where (by decide +kernel)
  rcases ran with ⟨s', ran, _⟩
  exact ⟨s', ran, check_truncates rfl (Or.inr rfl) ran⟩

def tinyLoan : Action := .borrow alice usdc.pubkey usdcPrice [] 1

/-- Alice lists no collateral, and her debt of one base unit counts for nothing. -/
theorem check_drops_debt :
    ∃ s' log e, Reachable devnet (ledger lenders) ∧ Step devnet (ledger lenders) tinyLoan s' ∧
      tinyLoan.counted devnet (ledger lenders) = .ok log ∧ e ∈ log ∧ 0 < e.borrowed.val ∧
      e.debt = 0 ∧ 0 < e.exactDebt := by
  have ran : ∃ s', Step devnet (ledger lenders) tinyLoan s' ∧
      s'.userDebt (quoted 10000000000) alice.pubkey = 0 := ok_where (by decide +kernel)
  have counted : ∃ log, tinyLoan.counted devnet (ledger lenders) = .ok log ∧
      ∃ e ∈ log, 0 < e.borrowed.val ∧ e.debt = 0 ∧ 0 < e.exactDebt := ok_where (by decide +kernel)
  rcases ran with ⟨s', ran, _⟩
  rcases counted with ⟨log, counted, e, member, owes, nothing, something⟩
  exact ⟨s', log, e, ledger_reachable _, ran, counted, member, owes, nothing, something⟩

end ShadowLend
