import ShadowLend.Growth
import Mathlib.Algebra.BigOperators.Ring.List

/-! Restating a debt at many indices on the way to the last one. Every touch rounds
the debt down, so a position that is touched often owes no more than one that is
left alone, and less by no more than the roundings it went through. -/

namespace ShadowLend

open Compounding Devnet

def restatedDebt (position : Position) (index : ℕ) : ℕ :=
  if position.borrowIndexSnapshotE18.val = index then
    position.borrowed.val
  else
    min (min (position.borrowed.val * index) (2 ^ 128 - 1) / position.borrowIndexSnapshotE18.val)
      (2 ^ 64 - 1)

theorem accruePosition_restatedDebt {position : Position}
    (snapshot : 0 < position.borrowIndexSnapshotE18.val) (market : Market) :
    (accruePosition position market).borrowed.val =
      restatedDebt position market.borrowIndexE18.val := by
  unfold restatedDebt
  split
  · rename_i fresh
    rw [accruePosition_fresh _ _ fresh]
  · rename_i stale
    by_cases debtless : position.borrowed.val = 0
    · rw [accruePosition_debtless _ _ debtless, debtless, Nat.zero_mul, Nat.zero_min, Nat.zero_div,
        Nat.zero_min]
    · exact accruePosition_debt position market snapshot.ne' debtless stale

section Steps

variable {origin current : Position} {index : ℕ}

/-- A detour over an index in between cannot make the debt larger. -/
theorem restatedDebt_detour (snapshot : 0 < origin.borrowIndexSnapshotE18.val)
    (risen : origin.borrowIndexSnapshotE18.val ≤ current.borrowIndexSnapshotE18.val)
    (rises : current.borrowIndexSnapshotE18.val ≤ index)
    (below : current.borrowed.val ≤
      restatedDebt origin current.borrowIndexSnapshotE18.val) :
    restatedDebt current index ≤ restatedDebt origin index := by
  by_cases still : current.borrowIndexSnapshotE18.val = index
  · rw [restatedDebt, if_pos still, ← still]
    exact below
  · have apart : origin.borrowIndexSnapshotE18.val ≠ index := by omega
    rw [restatedDebt, restatedDebt, if_neg still, if_neg apart]
    apply min_le_min_right
    by_cases untouched :
        origin.borrowIndexSnapshotE18.val = current.borrowIndexSnapshotE18.val
    · rw [restatedDebt, if_pos untouched] at below
      rw [untouched]
      exact Nat.div_le_div_right (min_le_min_right _ (Nat.mul_le_mul_right _ below))
    · rw [restatedDebt, if_neg untouched] at below
      have owed : current.borrowed.val * origin.borrowIndexSnapshotE18.val ≤
          origin.borrowed.val * current.borrowIndexSnapshotE18.val := by
        calc
          _ ≤ min (origin.borrowed.val * current.borrowIndexSnapshotE18.val) (2 ^ 128 - 1) /
              origin.borrowIndexSnapshotE18.val * origin.borrowIndexSnapshotE18.val :=
            Nat.mul_le_mul_right _ (below.trans (min_le_left _ _))
          _ ≤ min (origin.borrowed.val * current.borrowIndexSnapshotE18.val) (2 ^ 128 - 1) :=
            Nat.div_mul_le_self _ _
          _ ≤ _ := min_le_left _ _
      have quotient := Nat.div_mul_le_self
        (min (current.borrowed.val * index) (2 ^ 128 - 1)) current.borrowIndexSnapshotE18.val
      rw [Nat.le_div_iff_mul_le snapshot]
      apply le_min
      · have positive : 0 < current.borrowIndexSnapshotE18.val := snapshot.trans_le risen
        apply Nat.le_of_mul_le_mul_right ?_ positive
        calc
          _ = min (current.borrowed.val * index) (2 ^ 128 - 1) /
                current.borrowIndexSnapshotE18.val * current.borrowIndexSnapshotE18.val *
              origin.borrowIndexSnapshotE18.val := by ring
          _ ≤ current.borrowed.val * index * origin.borrowIndexSnapshotE18.val :=
            Nat.mul_le_mul_right _ (quotient.trans (min_le_left _ _))
          _ = current.borrowed.val * origin.borrowIndexSnapshotE18.val * index := by ring
          _ ≤ origin.borrowed.val * current.borrowIndexSnapshotE18.val * index :=
            Nat.mul_le_mul_right _ owed
          _ = _ := by ring
      · calc
          _ ≤ min (current.borrowed.val * index) (2 ^ 128 - 1) /
                current.borrowIndexSnapshotE18.val * current.borrowIndexSnapshotE18.val :=
            Nat.mul_le_mul_left _ risen
          _ ≤ 2 ^ 128 - 1 := quotient.trans (min_le_right _ _)

theorem restatedDebt_exact (snapshot : 0 < current.borrowIndexSnapshotE18.val)
    (fits : current.borrowed.val * index ≤ 2 ^ 128 - 1) :
    restatedDebt current index =
      min (current.borrowed.val * index / current.borrowIndexSnapshotE18.val) (2 ^ 64 - 1) := by
  unfold restatedDebt
  split
  · rename_i fresh
    rw [← fresh, Nat.mul_div_cancel _ snapshot, min_eq_left current.borrowed.val_le_max]
  · rw [min_eq_left fits]

theorem restatedDebt_le (snapshot : 0 < current.borrowIndexSnapshotE18.val) :
    restatedDebt current index ≤
      min (current.borrowed.val * index / current.borrowIndexSnapshotE18.val) (2 ^ 64 - 1) := by
  unfold restatedDebt
  split
  · rename_i fresh
    rw [← fresh, Nat.mul_div_cancel _ snapshot, min_eq_left current.borrowed.val_le_max]
  · exact min_le_min_right _ (Nat.div_le_div_right (min_le_left _ _))

/-- A touch gives up less than the share of one unit, unless the debt is at the
width of its type, where it stays. -/
theorem restatedDebt_lost (snapshot : 0 < current.borrowIndexSnapshotE18.val)
    (rises : current.borrowIndexSnapshotE18.val ≤ index)
    (fits : current.borrowed.val * index ≤ 2 ^ 128 - 1) :
    restatedDebt current index = 2 ^ 64 - 1 ∨
      current.borrowed.val ≠ 2 ^ 64 - 1 ∧
        current.shares - 1 / (index : ℚ) < (restatedDebt current index : ℚ) / index := by
  rw [restatedDebt_exact snapshot fits]
  rcases le_total (2 ^ 64 - 1)
      (current.borrowed.val * index / current.borrowIndexSnapshotE18.val) with capped | below
  · exact Or.inl (min_eq_right capped)
  · rw [min_eq_left below]
    by_cases full : current.borrowed.val = 2 ^ 64 - 1
    · left
      apply le_antisymm below
      rw [Nat.le_div_iff_mul_le snapshot, full]
      exact Nat.mul_le_mul_left _ rises
    · right
      refine ⟨full, shares_lost snapshot (snapshot.trans_le rises) ?_⟩
      exact Nat.lt_mul_of_div_lt (Nat.lt_succ_self _) snapshot

end Steps

/-- A position on the way: restated from the origin at least once or not at all. -/
structure Detour (origin current : Position) : Prop where
  risen : origin.borrowIndexSnapshotE18.val ≤ current.borrowIndexSnapshotE18.val
  below : current.borrowed.val ≤ restatedDebt origin current.borrowIndexSnapshotE18.val

def ProductFits (origin : Position) (last : ℕ) : Prop :=
  min (origin.borrowed.val * last / origin.borrowIndexSnapshotE18.val) (2 ^ 64 - 1) * last ≤
    2 ^ 128 - 1

/-- The product of any debt fits while the index is below 18 times where it started. -/
theorem productFits_of_index {origin : Position} {last : ℕ} (small : last ≤ 2 ^ 64) :
    ProductFits origin last := by
  calc
    _ ≤ (2 ^ 64 - 1) * 2 ^ 64 := Nat.mul_le_mul (min_le_right _ _) small
    _ ≤ 2 ^ 128 - 1 := by decide

def roundings (touches : List Market) : ℚ :=
  (touches.map fun market => 1 / (market.borrowIndexE18.val : ℚ)).sum

theorem roundings_scaled (touches : List Market) (index : ℚ) :
    (touches.map fun market => index / (market.borrowIndexE18.val : ℚ)).sum =
      index * roundings touches := by
  rw [roundings, ← List.sum_map_mul_left]
  congr 1
  apply List.map_congr_left
  intro market _
  rw [mul_one_div]

theorem roundings_pos (touches : List Market) {last : Market}
    (positive : (0 : ℚ) < last.borrowIndexE18.val) : 0 < roundings (touches ++ [last]) := by
  have others : 0 ≤ roundings touches := by
    apply List.sum_nonneg
    intro share member
    rcases List.mem_map.mp member with ⟨market, _, rfl⟩
    positivity
  have split : roundings (touches ++ [last]) =
      roundings touches + 1 / (last.borrowIndexE18.val : ℚ) := by simp [roundings]
  rw [split]
  exact add_pos_of_nonneg_of_pos others (one_div_pos.mpr positive)

theorem restatedDebt_le_shares {position : Position} {index : ℕ}
    (snapshot : 0 < position.borrowIndexSnapshotE18.val) :
    (restatedDebt position index : ℚ) ≤ position.shares * index := by
  calc
    (restatedDebt position index : ℚ) ≤
        ((position.borrowed.val * index / position.borrowIndexSnapshotE18.val : ℕ) : ℚ) :=
      Nat.cast_le.mpr ((restatedDebt_le snapshot).trans (min_le_left _ _))
    _ ≤ ((position.borrowed.val * index : ℕ) : ℚ) / position.borrowIndexSnapshotE18.val :=
      Nat.cast_div_le
    _ = position.shares * index := by
      rw [Nat.cast_mul, Position.shares]
      ring

section Runs

variable {origin current : Position} {last : Market}

theorem Detour.start (origin : Position) : Detour origin origin :=
  ⟨le_rfl, by rw [restatedDebt, if_pos rfl]⟩

theorem Detour.touch (detour : Detour origin current)
    (snapshot : 0 < origin.borrowIndexSnapshotE18.val) {market : Market}
    (rises : current.borrowIndexSnapshotE18 ≤ market.borrowIndexE18) :
    Detour origin (accruePosition current market) := by
  constructor
  · rw [accruePosition_snapshot]
    exact detour.risen.trans rises
  · rw [accruePosition_snapshot, accruePosition_restatedDebt (snapshot.trans_le detour.risen)]
    exact restatedDebt_detour snapshot detour.risen rises detour.below

theorem Detour.product_le (detour : Detour origin current)
    (snapshot : 0 < origin.borrowIndexSnapshotE18.val) {index limit : ℕ}
    (fits : ProductFits origin limit) (rises : current.borrowIndexSnapshotE18.val ≤ index)
    (within : index ≤ limit) : current.borrowed.val * index ≤ 2 ^ 128 - 1 := by
  have owed : current.borrowed.val ≤
      min (origin.borrowed.val * limit / origin.borrowIndexSnapshotE18.val) (2 ^ 64 - 1) := by
    calc
      current.borrowed.val ≤ restatedDebt origin current.borrowIndexSnapshotE18.val := detour.below
      _ ≤ min (origin.borrowed.val * current.borrowIndexSnapshotE18.val /
            origin.borrowIndexSnapshotE18.val) (2 ^ 64 - 1) := restatedDebt_le snapshot
      _ ≤ _ := min_le_min_right _
        (Nat.div_le_div_right (Nat.mul_le_mul_left _ (rises.trans within)))
  exact (Nat.mul_le_mul owed within).trans fits

/-- What one touch adds to the shares lost on the way. -/
theorem Detour.lost (detour : Detour origin current)
    (snapshot : 0 < origin.borrowIndexSnapshotE18.val) {market : Market} {limit : ℕ}
    (fits : ProductFits origin limit)
    (rises : current.borrowIndexSnapshotE18 ≤ market.borrowIndexE18)
    (within : market.borrowIndexE18.val ≤ limit) {lost : ℚ}
    (kept : current.borrowed.val = 2 ^ 64 - 1 ∨ origin.shares - lost ≤ current.shares) :
    (accruePosition current market).borrowed.val = 2 ^ 64 - 1 ∨
      origin.shares - (lost + 1 / (market.borrowIndexE18.val : ℚ)) <
        (accruePosition current market).shares := by
  have positive := snapshot.trans_le detour.risen
  have worth : (accruePosition current market).shares =
      (restatedDebt current market.borrowIndexE18.val : ℚ) / market.borrowIndexE18.val := by
    rw [← accruePosition_restatedDebt positive, Position.shares, accruePosition_snapshot]
  rw [worth, accruePosition_restatedDebt positive]
  rcases restatedDebt_lost positive rises (detour.product_le snapshot fits rises within) with
    full | ⟨notFull, less⟩
  · exact Or.inl full
  · right
    rcases kept with full | kept
    · exact absurd full notFull
    · linarith

/-- The induction over the touches, the last of them included. -/
theorem Detour.run (snapshot : 0 < origin.borrowIndexSnapshotE18.val) (touches : List Market)
    {current : Position} (detour : Detour origin current)
    (rising : (current.borrowIndexSnapshotE18 ::
      (touches ++ [last]).map Market.borrowIndexE18).Pairwise (· ≤ ·)) :
    Detour origin ((touches ++ [last]).foldl accruePosition current) ∧
      ∀ lost : ℚ, ProductFits origin last.borrowIndexE18.val →
        (current.borrowed.val = 2 ^ 64 - 1 ∨ origin.shares - lost ≤ current.shares) →
        ((touches ++ [last]).foldl accruePosition current).borrowed.val = 2 ^ 64 - 1 ∨
          origin.shares - (lost + roundings (touches ++ [last])) <
            ((touches ++ [last]).foldl accruePosition current).shares := by
  induction touches generalizing current with
  | nil =>
      have rises : current.borrowIndexSnapshotE18 ≤ last.borrowIndexE18 :=
        (List.pairwise_cons.mp rising).1 _ (by simp)
      refine ⟨detour.touch snapshot rises, ?_⟩
      intro lost fits kept
      simpa [roundings] using detour.lost snapshot fits rises le_rfl kept
  | cons market tail ih =>
      rcases List.pairwise_cons.mp rising with ⟨first, rest⟩
      have rises : current.borrowIndexSnapshotE18 ≤ market.borrowIndexE18 := first _ (by simp)
      have within : market.borrowIndexE18 ≤ last.borrowIndexE18 :=
        (List.pairwise_cons.mp rest).1 _ (by simp)
      have onward : ((accruePosition current market).borrowIndexSnapshotE18 ::
          (tail ++ [last]).map Market.borrowIndexE18).Pairwise (· ≤ ·) := by
        rw [accruePosition_snapshot]
        exact rest
      rcases ih (detour.touch snapshot rises) onward with ⟨reached, loses⟩
      refine ⟨reached, ?_⟩
      intro lost fits kept
      have after := detour.lost snapshot fits rises within kept
      have next := loses (lost + 1 / (market.borrowIndexE18.val : ℚ)) fits
        (after.imp_right fun less => less.le)
      have total : roundings (market :: tail ++ [last]) =
          1 / (market.borrowIndexE18.val : ℚ) + roundings (tail ++ [last]) := by
        simp [roundings]
      rw [total, ← add_assoc]
      exact next

end Runs

theorem touching_costs_roundings {position : Position} {touches : List Market} {last : Market}
    (scaled : rateScaleE18.val ≤ position.borrowIndexSnapshotE18.val)
    (rising : (position.borrowIndexSnapshotE18 ::
      (touches ++ [last]).map Market.borrowIndexE18).Pairwise (· ≤ ·)) :
    ((touches ++ [last]).foldl accruePosition position).borrowed.val ≤
        (accruePosition position last).borrowed.val ∧
      (ProductFits position last.borrowIndexE18.val →
        ((accruePosition position last).borrowed.val : ℚ) <
          ((touches ++ [last]).foldl accruePosition position).borrowed.val +
            ((touches ++ [last]).map fun market =>
              (last.borrowIndexE18.val : ℚ) / market.borrowIndexE18.val).sum) := by
  have snapshot := rateScale_pos.trans_le scaled
  have index : position.borrowIndexSnapshotE18.val ≤ last.borrowIndexE18.val :=
    (List.pairwise_cons.mp rising).1 _ (by simp)
  have positive : (0 : ℚ) < last.borrowIndexE18.val := Nat.cast_pos.mpr (snapshot.trans_le index)
  rcases (Detour.start position).run snapshot touches rising with ⟨detour, loses⟩
  have renewed : ((touches ++ [last]).foldl accruePosition position).borrowIndexSnapshotE18 =
      last.borrowIndexE18 := by
    rw [List.foldl_append, List.foldl_cons, List.foldl_nil, accruePosition_snapshot]
  rw [accruePosition_restatedDebt snapshot]
  constructor
  · rw [← renewed]
    exact detour.below
  · intro fits
    have loss := mul_pos positive (roundings_pos touches positive)
    rw [roundings_scaled]
    rcases loses 0 fits (Or.inr (by rw [sub_zero])) with full | less
    · rw [full]
      have capped : (restatedDebt position last.borrowIndexE18.val : ℚ) ≤
          ((2 ^ 64 - 1 : ℕ) : ℚ) :=
        Nat.cast_le.mpr ((restatedDebt_le snapshot).trans (min_le_right _ _))
      linarith
    · have worth : (restatedDebt position last.borrowIndexE18.val : ℚ) ≤
          position.shares * last.borrowIndexE18.val := restatedDebt_le_shares snapshot
      rw [zero_add] at less
      have scaledLess := mul_lt_mul_of_pos_right less positive
      rw [Position.shares, Position.shares, renewed, sub_mul, div_mul_cancel₀ _ positive.ne']
        at scaledLess
      rw [Position.shares] at worth
      linarith

def usdcAt (index : U128) : Market where
  admin := admin.pubkey
  mint := usdc.pubkey
  amountPerClaim := 50000000000000
  maxLtvBps := 8500
  feedId := usdcFeed
  borrowRatePerSlotE18 := 25367833587
  borrowIndexE18 := index
  lastUpdateSlot := 100
  totalSupplied := 0
  totalBorrowed := 0
  claimCount := 0
  bump := 255
  authorityBump := 255

def owing (borrowed : U64) : Position :=
  { Position.zeroed with borrowed := borrowed, borrowIndexSnapshotE18 := rateScaleE18 }

theorem touching_costs_roundings_twice :
    ((accruePosition (owing 1000) (usdcAt 2000000000000000000)).borrowed.val : ℚ) <
      (([usdcAt 1500000000000000000] ++ [usdcAt 2000000000000000000]).foldl accruePosition
          (owing 1000)).borrowed.val +
        (([usdcAt 1500000000000000000] ++ [usdcAt 2000000000000000000]).map fun market =>
          ((usdcAt 2000000000000000000).borrowIndexE18.val : ℚ) / market.borrowIndexE18.val).sum :=
  (touching_costs_roundings (by decide) (by decide)).2 (productFits_of_index (by decide))

def touchedHalfWay : List Action :=
  [reach 20000100 10000000000, .supply alice usdc.pubkey 1, reach 40000100 10000000000]

theorem touching_forgives :
    rateScaleE18.val ≤ (owing 1).borrowIndexSnapshotE18.val ∧
      ((owing 1).borrowIndexSnapshotE18 ::
        ([usdcAt 1500000000000000000] ++ [usdcAt 2000000000000000000]).map
          Market.borrowIndexE18).Pairwise (· ≤ ·) ∧
      ([usdcAt 1500000000000000000, usdcAt 2000000000000000000].foldl accruePosition
        (owing 1)).borrowed.val = 1 ∧
      (accruePosition (owing 1) (usdcAt 2000000000000000000)).borrowed.val = 2 ∧
      (ledger (indebted 1 ++ touchedHalfWay)).owed (alice.pubkey, usdc.pubkey) = 1 ∧
      (ledger (indebted 1 ++ [reach 40000100 10000000000])).owed (alice.pubkey, usdc.pubkey) = 2 :=
  ⟨by decide, by decide, by decide, by decide, by decide +kernel, by decide +kernel⟩

end ShadowLend
