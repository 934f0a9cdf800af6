import ShadowLend.Accounts
import ShadowLend.Foundation.Instalments
import ShadowLend.Foundation.Scaling

/-! The borrow index of a market and the restatement of a debt to it. -/

namespace ShadowLend

def rateScaleE18 : U128 := ⟨1000000000000000000, by decide⟩

def accrueMarket (market : Market) (clock : Clock) : Market :=
  if clock.slot.val ≤ market.lastUpdateSlot.val then
    market
  else
    let slots : U128 := (clock.slot.saturatingSub market.lastUpdateSlot).widen u64_le_u128
    let growth :=
      ((market.borrowIndexE18.saturatingMul
        (market.borrowRatePerSlotE18.widen u64_le_u128)).saturatingMul slots).div rateScaleE18
    { market with
      borrowIndexE18 := market.borrowIndexE18.saturatingAdd growth
      lastUpdateSlot := clock.slot }

/-- Restates `borrowed` from the position's snapshot to the market's index. -/
def accruePosition (position : Position) (market : Market) : Position :=
  if position.borrowIndexSnapshotE18.val = 0 ∨ position.borrowed.val = 0 ∨
      position.borrowIndexSnapshotE18.val = market.borrowIndexE18.val then
    { position with borrowIndexSnapshotE18 := market.borrowIndexE18 }
  else
    let current :=
      ((position.borrowed.widen u64_le_u128 : U128).saturatingMul market.borrowIndexE18).div
        position.borrowIndexSnapshotE18
    { position with
      borrowed := (current.tryInto 64).getD (Uint.max 64)
      borrowIndexSnapshotE18 := market.borrowIndexE18 }

section Market

variable (market : Market) (clock : Clock)

theorem accrueMarket_fields :
    accrueMarket market clock =
      { market with
        borrowIndexE18 := (accrueMarket market clock).borrowIndexE18
        lastUpdateSlot := (accrueMarket market clock).lastUpdateSlot } := by
  unfold accrueMarket
  split <;> rfl

@[simp] theorem accrueMarket_admin : (accrueMarket market clock).admin = market.admin := by
  rw [accrueMarket_fields]

@[simp] theorem accrueMarket_mint : (accrueMarket market clock).mint = market.mint := by
  rw [accrueMarket_fields]

@[simp] theorem accrueMarket_amountPerClaim :
    (accrueMarket market clock).amountPerClaim = market.amountPerClaim := by
  rw [accrueMarket_fields]

@[simp] theorem accrueMarket_maxLtvBps :
    (accrueMarket market clock).maxLtvBps = market.maxLtvBps := by
  rw [accrueMarket_fields]

@[simp] theorem accrueMarket_feedId : (accrueMarket market clock).feedId = market.feedId := by
  rw [accrueMarket_fields]

@[simp] theorem accrueMarket_borrowRatePerSlotE18 :
    (accrueMarket market clock).borrowRatePerSlotE18 = market.borrowRatePerSlotE18 := by
  rw [accrueMarket_fields]

@[simp] theorem accrueMarket_totalSupplied :
    (accrueMarket market clock).totalSupplied = market.totalSupplied := by
  rw [accrueMarket_fields]

@[simp] theorem accrueMarket_totalBorrowed :
    (accrueMarket market clock).totalBorrowed = market.totalBorrowed := by
  rw [accrueMarket_fields]

@[simp] theorem accrueMarket_claimCount :
    (accrueMarket market clock).claimCount = market.claimCount := by
  rw [accrueMarket_fields]

@[simp] theorem accrueMarket_bump : (accrueMarket market clock).bump = market.bump := by
  rw [accrueMarket_fields]

@[simp] theorem accrueMarket_authorityBump :
    (accrueMarket market clock).authorityBump = market.authorityBump := by
  rw [accrueMarket_fields]

theorem accrueMarket_current (current : clock.slot.val ≤ market.lastUpdateSlot.val) :
    accrueMarket market clock = market := if_pos current

theorem accrueMarket_slot_le : clock.slot.val ≤ (accrueMarket market clock).lastUpdateSlot.val := by
  unfold accrueMarket
  split
  · assumption
  · exact le_rfl

/-- As a number, the index is advanced once over the slots that passed. -/
theorem accrueMarket_index_val :
    (accrueMarket market clock).borrowIndexE18.val =
      Instalments.advance
        (Instalments.truncated market.borrowRatePerSlotE18.val rateScaleE18.val (2 ^ 128 - 1))
        (2 ^ 128 - 1) market.borrowIndexE18.val (clock.slot.val - market.lastUpdateSlot.val) := by
  unfold accrueMarket
  split
  · rename_i current
    rw [Nat.sub_eq_zero_of_le current, Instalments.advance, Instalments.truncated, Nat.mul_zero,
      Nat.zero_min, Nat.zero_div, Nat.add_zero, min_eq_left market.borrowIndexE18.val_le_max]
  · have product := Scaling.capped_factor (clock.slot.val - market.lastUpdateSlot.val)
      (market.borrowIndexE18.val * market.borrowRatePerSlotE18.val) (2 ^ 128 - 1)
    rw [Nat.mul_comm, Nat.mul_comm _ (_ * _)] at product
    simp only [Uint.val_saturatingAdd, Uint.val_div, Uint.val_saturatingMul, Uint.val_widen,
      Uint.val_saturatingSub, Instalments.advance, Instalments.truncated, product]

theorem accrueMarket_index_le :
    market.borrowIndexE18.val ≤ (accrueMarket market clock).borrowIndexE18.val := by
  rw [accrueMarket_index_val]
  exact Instalments.le_advance market.borrowIndexE18.val_le_max _

/-- Within a slot an index moves once. -/
@[simp] theorem accrueMarket_idem :
    accrueMarket (accrueMarket market clock) clock = accrueMarket market clock :=
  accrueMarket_current _ _ (accrueMarket_slot_le market clock)

end Market

section Position

variable (position : Position) (market : Market)

theorem accruePosition_fields :
    accruePosition position market =
      { position with
        borrowed := (accruePosition position market).borrowed
        borrowIndexSnapshotE18 := market.borrowIndexE18 } := by
  unfold accruePosition
  split <;> rfl

@[simp] theorem accruePosition_user : (accruePosition position market).user = position.user := by
  rw [accruePosition_fields]

@[simp] theorem accruePosition_market :
    (accruePosition position market).market = position.market := by
  rw [accruePosition_fields]

@[simp] theorem accruePosition_supplied :
    (accruePosition position market).supplied = position.supplied := by
  rw [accruePosition_fields]

@[simp] theorem accruePosition_feedId :
    (accruePosition position market).feedId = position.feedId := by
  rw [accruePosition_fields]

@[simp] theorem accruePosition_maxLtvBps :
    (accruePosition position market).maxLtvBps = position.maxLtvBps := by
  rw [accruePosition_fields]

@[simp] theorem accruePosition_decimals :
    (accruePosition position market).decimals = position.decimals := by
  rw [accruePosition_fields]

@[simp] theorem accruePosition_bump : (accruePosition position market).bump = position.bump := by
  rw [accruePosition_fields]

@[simp] theorem accruePosition_snapshot :
    (accruePosition position market).borrowIndexSnapshotE18 = market.borrowIndexE18 := by
  rw [accruePosition_fields]

theorem accruePosition_fresh
    (fresh : position.borrowIndexSnapshotE18.val = market.borrowIndexE18.val) :
    (accruePosition position market).borrowed = position.borrowed := by
  unfold accruePosition
  rw [if_pos (Or.inr (Or.inr fresh))]

theorem accruePosition_debtless (debtless : position.borrowed.val = 0) :
    (accruePosition position market).borrowed = position.borrowed := by
  unfold accruePosition
  rw [if_pos (Or.inr (Or.inl debtless))]

theorem accruePosition_debt (snapshot : position.borrowIndexSnapshotE18.val ≠ 0)
    (debt : position.borrowed.val ≠ 0)
    (stale : position.borrowIndexSnapshotE18.val ≠ market.borrowIndexE18.val) :
    (accruePosition position market).borrowed.val =
      min (min (position.borrowed.val * market.borrowIndexE18.val) (2 ^ 128 - 1) /
        position.borrowIndexSnapshotE18.val) (2 ^ 64 - 1) := by
  unfold accruePosition
  rw [if_neg (by simp only [not_or]; exact ⟨snapshot, debt, stale⟩)]
  simp

@[simp] theorem accruePosition_idem :
    accruePosition (accruePosition position market) market = accruePosition position market := by
  rw [accruePosition_fields (accruePosition position market),
    accruePosition_fresh (accruePosition position market) market (by simp)]
  conv_rhs => rw [accruePosition_fields position market]
  conv_lhs => rw [accruePosition_fields position market]

end Position

end ShadowLend
