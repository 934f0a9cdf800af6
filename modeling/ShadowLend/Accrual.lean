import ShadowLend.Touching

/-! Interest at the widths of its types. However a market is updated on the way its
index falls behind by a unit an update at most; what the two products lose when they
saturate is interest in the one case and debt in the other. -/

namespace ShadowLend

open Outcome Devnet

def Market.exactGrowth (market : Market) (clock : Clock) : ℕ :=
  market.borrowIndexE18.val * market.borrowRatePerSlotE18.val *
    (clock.slot.val - market.lastUpdateSlot.val) / rateScaleE18.val

section Pokes

variable {market : Market}

theorem accrueMarket_poke {poke target : Clock} (before : poke.slot.val ≤ target.slot.val) :
    (accrueMarket market target).borrowIndexE18.val ≤
      (accrueMarket (accrueMarket market poke) target).borrowIndexE18.val + 1 := by
  by_cases current : poke.slot.val ≤ market.lastUpdateSlot.val
  · rw [accrueMarket_current market poke current]
    exact Nat.le_succ _
  · have past : market.lastUpdateSlot.val ≤ poke.slot.val := (not_le.mp current).le
    have elapsed : target.slot.val - market.lastUpdateSlot.val =
        (poke.slot.val - market.lastUpdateSlot.val) + (target.slot.val - poke.slot.val) := by omega
    rw [accrueMarket_index_val market, accrueMarket_index_val (accrueMarket market poke),
      accrueMarket_index_val market, accrueMarket_borrowRatePerSlotE18, accrueMarket_slot past,
      elapsed]
    exact Instalments.advance_split (Instalments.truncated_splits _ _ _) _ _ _

end Pokes

/-- Updating a market on the way to a slot costs at most one unit of its index for
each update, whatever the rate, and whether or not an update saturates. -/
theorem poking_costs_units (market : Market) (pokes : List Clock) (target : Clock)
    (rising : (pokes ++ [target]).Pairwise fun earlier later =>
      earlier.slot.val ≤ later.slot.val) :
    (accrueMarket market target).borrowIndexE18.val ≤
      ((pokes ++ [target]).foldl accrueMarket market).borrowIndexE18.val + pokes.length := by
  induction pokes generalizing market with
  | nil => exact le_rfl
  | cons poke tail ih =>
      rcases List.pairwise_cons.mp rising with ⟨first, rest⟩
      have before : poke.slot.val ≤ target.slot.val := first target (by simp)
      have later := ih (accrueMarket market poke) rest
      calc
        (accrueMarket market target).borrowIndexE18.val ≤
            (accrueMarket (accrueMarket market poke) target).borrowIndexE18.val + 1 :=
          accrueMarket_poke before
        _ ≤ ((tail ++ [target]).foldl accrueMarket (accrueMarket market poke)).borrowIndexE18.val +
              tail.length + 1 := Nat.add_le_add_right later 1
        _ = _ := by rw [List.cons_append, List.foldl_cons, List.length_cons, Nat.add_assoc]

theorem poking_costs_units_twice :
    (accrueMarket (usdcAt rateScaleE18) ⟨103, 0⟩).borrowIndexE18.val ≤
      (([⟨101, 0⟩, ⟨102, 0⟩] ++ [⟨103, 0⟩] : List Clock).foldl accrueMarket
        (usdcAt rateScaleE18)).borrowIndexE18.val + 2 :=
  poking_costs_units (usdcAt rateScaleE18) [⟨101, 0⟩, ⟨102, 0⟩] ⟨103, 0⟩ (by decide)

section Growths

variable {market : Market} {clock : Clock}

/-- The saturating products drop interest from a growth of `2^128 / 10^18` on. -/
theorem accrual_exact_iff
    (fits : market.borrowIndexE18.val + market.exactGrowth clock ≤ 2 ^ 128 - 1) :
    (accrueMarket market clock).borrowIndexE18.val =
        market.borrowIndexE18.val + market.exactGrowth clock ↔
      market.exactGrowth clock ≤ (2 ^ 128 - 1) / rateScaleE18.val := by
  have cut : Instalments.truncated market.borrowRatePerSlotE18.val rateScaleE18.val (2 ^ 128 - 1)
      market.borrowIndexE18.val (clock.slot.val - market.lastUpdateSlot.val) ≤
        market.exactGrowth clock := Instalments.truncated_le
  rw [accrueMarket_index_val, Instalments.advance,
    min_eq_left ((Nat.add_le_add_left cut _).trans fits), Nat.add_left_cancel_iff]
  exact Instalments.truncated_exact_iff

theorem accrual_exact_iff_hundred :
    (accrueMarket (usdcAt rateScaleE18) ⟨200, 0⟩).borrowIndexE18.val =
        (usdcAt rateScaleE18).borrowIndexE18.val + (usdcAt rateScaleE18).exactGrowth ⟨200, 0⟩ ↔
      (usdcAt rateScaleE18).exactGrowth ⟨200, 0⟩ ≤ (2 ^ 128 - 1) / rateScaleE18.val :=
  accrual_exact_iff (by decide)

def Market.Still (market : Market) (clock : Clock) : Prop :=
  market.borrowRatePerSlotE18.val = 0 ∨ clock.slot.val ≤ market.lastUpdateSlot.val ∨
    market.borrowIndexE18.val = 2 ^ 128 - 1

theorem accrueMarket_still_iff (scaled : rateScaleE18.val ≤ market.borrowIndexE18.val) :
    (accrueMarket market clock).borrowIndexE18.val = market.borrowIndexE18.val ↔
      market.Still clock := by
  have bound := market.borrowIndexE18.val_le_max
  have room : rateScaleE18.val ≤ 2 ^ 128 - 1 := by decide
  have idle : Instalments.truncated market.borrowRatePerSlotE18.val rateScaleE18.val (2 ^ 128 - 1)
        market.borrowIndexE18.val (clock.slot.val - market.lastUpdateSlot.val) = 0 ↔
      market.borrowRatePerSlotE18.val = 0 ∨ clock.slot.val ≤ market.lastUpdateSlot.val := by
    rw [Instalments.truncated_eq_zero_iff rateScale_pos room, ← Nat.sub_eq_zero_iff_le]
    constructor
    · intro small
      by_contra moves
      rw [not_or] at moves
      rw [Nat.mul_assoc] at small
      have periods := Nat.mul_pos (Nat.pos_of_ne_zero moves.1) (Nat.pos_of_ne_zero moves.2)
      exact absurd (scaled.trans (Nat.le_mul_of_pos_right _ periods)) (not_le.mpr small)
    · intro none
      rcases none with none | none <;> simp only [none, Nat.mul_zero, Nat.zero_mul, rateScale_pos]
  rw [Market.Still, ← or_assoc, ← idle, accrueMarket_index_val, Instalments.advance]
  omega

end Growths

/-- A restated debt is no smaller exactly when its product with the old snapshot fits,
or when there is nothing to restate. -/
theorem accrual_keeps_debt_iff {rt : Runtime} {s : State} (reached : Reachable rt s)
    {user mint : Pubkey} {market : Market} {position : Position}
    (listed : s.markets.lookup mint = some market)
    (stored : s.positions.lookup (user, mint) = some position)
    (owes : 0 < position.borrowed.val) (clock : Clock) :
    position.borrowed.val ≤ (accruePosition position (accrueMarket market clock)).borrowed.val ↔
      position.borrowed.val * position.borrowIndexSnapshotE18.val ≤ 2 ^ 128 - 1 ∨
        position.borrowIndexSnapshotE18 = market.borrowIndexE18 ∧ market.Still clock := by
  have scaled := reached.indexed.market mint market listed
  rcases reached.indexed.position user mint position market stored listed with ⟨low, behind⟩
  have snapshot : 0 < position.borrowIndexSnapshotE18.val := rateScale_pos.trans_le low
  have risen := accrueMarket_index_le market clock
  by_cases fresh :
      position.borrowIndexSnapshotE18.val = (accrueMarket market clock).borrowIndexE18.val
  · rw [accruePosition_fresh _ _ fresh]
    have same : position.borrowIndexSnapshotE18 = market.borrowIndexE18 := Fin.ext (by omega)
    have still : market.Still clock := (accrueMarket_still_iff scaled).mp (by omega)
    exact iff_of_true le_rfl (Or.inr ⟨same, still⟩)
  · have moved : ¬ (position.borrowIndexSnapshotE18 = market.borrowIndexE18 ∧
        market.Still clock) := by
      intro unmoved
      have still := (accrueMarket_still_iff scaled).mpr unmoved.2
      exact fresh (by rw [still, unmoved.1])
    have product := Nat.mul_le_mul_left position.borrowed.val (behind.trans risen)
    rw [or_iff_left moved, accruePosition_debt _ _ snapshot.ne' owes.ne' fresh,
      le_min_iff, and_iff_left position.borrowed.val_le_max, Nat.le_div_iff_mul_le snapshot,
      le_min_iff, and_iff_right product]

theorem accrual_keeps_debt_loan :
    ∃ market position, (ledger (indebted 4000000000000)).markets.lookup usdc.pubkey = some market ∧
      (ledger (indebted 4000000000000)).positions.lookup (alice.pubkey, usdc.pubkey) =
        some position ∧
      ∀ clock,
        position.borrowed.val ≤
          (accruePosition position (accrueMarket market clock)).borrowed.val := by
  have position : ∃ position, (ledger (indebted 4000000000000)).positions.lookup
      (alice.pubkey, usdc.pubkey) = some position ∧ 0 < position.borrowed.val ∧
        position.borrowed.val * position.borrowIndexSnapshotE18.val ≤ 2 ^ 128 - 1 :=
    some_where (by decide +kernel)
  have market : ∃ market, (ledger (indebted 4000000000000)).markets.lookup usdc.pubkey =
      some market ∧ market.lastUpdateSlot.val = 100 := some_where (by decide +kernel)
  rcases position with ⟨position, stored, owes, fits⟩
  rcases market with ⟨market, listed, _⟩
  refine ⟨market, position, listed, stored, ?_⟩
  intro clock
  exact (accrual_keeps_debt_iff (ledger_reachable _) listed stored owes clock).mpr (Or.inl fits)

/-- A market of USDC at the largest rate there is, with SOL at ten billion dollars. -/
def fastMarket : List Action :=
  [reach 100 1000000000000000000,
    .initializeMarket admin sol 1000000000000 8000 solFeed 12683916794,
    .initializeMarket admin usdc 5000000000000000000 8500 usdcFeed 18446744073709551615]

/-- Its index a hundred slots on gets less than a fifth of the way there. -/
theorem accrual_drops_growth :
    ∃ market, Reachable devnet (ledger fastMarket) ∧
      (ledger fastMarket).markets.lookup usdc.pubkey = some market ∧
      rateScaleE18.val ≤ market.borrowIndexE18.val ∧ market.lastUpdateSlot.val < 200 ∧
      market.borrowIndexE18.val + market.exactGrowth ⟨200, 0⟩ ≤ 2 ^ 128 - 1 ∧
      (accrueMarket market ⟨200, 0⟩).borrowIndexE18.val * 5 <
        market.borrowIndexE18.val + market.exactGrowth ⟨200, 0⟩ := by
  have found : ∃ market, (ledger fastMarket).markets.lookup usdc.pubkey = some market ∧
      rateScaleE18.val ≤ market.borrowIndexE18.val ∧ market.lastUpdateSlot.val < 200 ∧
      market.borrowIndexE18.val + market.exactGrowth ⟨200, 0⟩ ≤ 2 ^ 128 - 1 ∧
      (accrueMarket market ⟨200, 0⟩).borrowIndexE18.val * 5 <
        market.borrowIndexE18.val + market.exactGrowth ⟨200, 0⟩ := some_where (by decide +kernel)
  rcases found with ⟨market, listed, facts⟩
  exact ⟨market, ledger_reachable _, listed, facts⟩

def fastLoan : State :=
  ledger (fastMarket ++
    [.claimFaucet bob usdc.pubkey, .supply bob usdc.pubkey 5000000000000000000,
      .claimFaucet alice sol.pubkey, .supply alice sol.pubkey 100000000000] ++
    openPosition alice usdc usdcPrice ++
    [reach 200 1000000000000000000, borrowUsdc 4000000000000000000])

/-- A slot after the loan three quarters of the debt are gone. -/
theorem accrual_forgives_debt :
    ∃ market position, Reachable devnet fastLoan ∧
      fastLoan.markets.lookup usdc.pubkey = some market ∧
      fastLoan.positions.lookup (alice.pubkey, usdc.pubkey) = some position ∧
      fastLoan.clock.slot.val < 201 ∧ position.borrowed.val = 4000000000000000000 ∧
      (accruePosition position (accrueMarket market ⟨201, 0⟩)).borrowed.val =
        997069874986445871 := by
  have found : ∃ market, fastLoan.markets.lookup usdc.pubkey = some market ∧
      ((fastLoan.positions.lookup (alice.pubkey, usdc.pubkey)).any fun position =>
        position.borrowed.val = 4000000000000000000 ∧
          (accruePosition position (accrueMarket market ⟨201, 0⟩)).borrowed.val =
            997069874986445871) = true := some_where (by decide +kernel)
  rcases found with ⟨market, listed, stored⟩
  rcases some_where stored with ⟨position, held, before, after⟩
  exact ⟨market, position, ledger_reachable _, listed, held, by decide +kernel, before, after⟩

end ShadowLend
