import ShadowLend.Settlement

/-! The accounting laws of a market, read off its pool: the vault and the loans
cover the deposits, and each counter is the sum it stands for. -/

namespace ShadowLend

open Outcome Devnet

section Errors

variable {rt : Runtime} {s : State}

/-- The failure a wrong counter would show itself by. -/
abbrev NoOverflow {α : Type} (x : Except ProgramError α) : Prop :=
  Avoids (· = .market .overflow) x

theorem tokenUsd8dp_noOverflow (amount : U64) (price : Price) (decimals : U8) :
    NoOverflow (tokenUsd8dp amount price decimals) := by
  simp only [NoOverflow, tokenUsd8dp, usdShift, checkedI32, avoids_bind]
  refine ⟨⟨?_, fun _ _ => ?_⟩, fun _ _ => ?_⟩
  · split <;> simp
  · split <;> simp
  · split
    · simp
    · simp only [avoids_bind, avoids_pure, implies_true, and_true]
      split <;> simp

theorem accumulatePosition_noOverflow (supplied borrowed : U64) (price : Price) (decimals : U8)
    (maxLtvBps : U16) (totals : Totals) :
    NoOverflow (accumulatePosition supplied borrowed price decimals maxLtvBps totals) := by
  simp only [NoOverflow, accumulatePosition, avoids_bind, avoids_pure, implies_true, and_true]
  exact ⟨tokenUsd8dp_noOverflow _ _ _, fun _ _ => tokenUsd8dp_noOverflow _ _ _⟩

theorem readPair_noOverflow (skip : Pubkey → Bool) (user : Pubkey) (clock : Clock)
    (pair : AccountInfo × AccountInfo) : NoOverflow (readPair rt skip user clock pair) := by
  unfold NoOverflow readPair
  dsimp only
  split
  · simp
  · simp only [avoids_bind, avoids_require, avoids_okOr, ProgramError.market.injEq, reduceCtorEq,
      false_implies, true_and]
    intros
    split <;> simp

theorem walkRemaining_noOverflow (ras : List AccountInfo) (user : Pubkey) (skip : Pubkey → Bool)
    (clock : Clock) (totals : Totals) :
    NoOverflow (walkRemaining rt ras user skip clock totals) := by
  simp only [NoOverflow, walkRemaining, avoids_bind, avoids_require, ProgramError.market.injEq,
    reduceCtorEq, false_implies, true_and]
  intros
  apply avoids_foldlM
  intro totals pair _
  rw [avoids_bind]
  refine ⟨readPair_noOverflow _ _ _ _, ?_⟩
  rintro (_ | c) _
  · simp [visit]
  · exact accumulatePosition_noOverflow _ _ _ _ _ _

theorem transferTokens_noOverflow (tokens : Tokens) (source destination authority : Pubkey)
    (amount : U64) : NoOverflow (transferTokens tokens source destination authority amount) := by
  simp only [NoOverflow, transferTokens, avoids_bind, avoids_require, avoids_okOr, reduceCtorEq,
    false_implies, true_and]
  intros
  split <;> simp

theorem initAssociatedToken_noOverflow (tokens : Tokens) (owner mint : Pubkey) :
    NoOverflow (initAssociatedToken tokens owner mint) := by
  unfold NoOverflow initAssociatedToken
  split <;> simp

theorem load_noOverflow (user : Signer) (mint priceUpdate : Pubkey) :
    NoOverflow (ModifyPositionWithPrice.load rt s user mint priceUpdate) := by
  simp only [NoOverflow, ModifyPositionWithPrice.load, loadMarket, loadPosition, loadTokenAccount,
    loadPriceUpdate, avoids_bind, avoids_require, avoids_okOr, avoids_pure, ProgramError.market.injEq,
    reduceCtorEq, false_implies, implies_true, true_and, and_true]
  intros
  exact initAssociatedToken_noOverflow _ _ _

theorem withdraw_noOverflow (reached : Reachable rt s) (user : Signer) (mint priceUpdate : Pubkey)
    (remaining : List Pubkey) (amount : U64) :
    NoOverflow (withdraw rt s user mint priceUpdate remaining amount) := by
  simp only [NoOverflow, withdraw, avoids_bind, avoids_require, avoids_okOr, avoids_pure,
    ProgramError.market.injEq, reduceCtorEq, false_implies, implies_true, true_and, and_true,
    okOr_ok]
  refine ⟨load_noOverflow _ _ _, ?_⟩
  intro ctx loaded _ _ newSupplied taken price _
  refine ⟨accumulatePosition_noOverflow _ _ _ _ _ _, fun _ _ => ?_⟩
  refine ⟨walkRemaining_noOverflow _ _ _ _ _, fun _ _ _ _ => ?_⟩
  refine ⟨transferTokens_noOverflow _ _ _ _ _, ?_⟩
  intro tokens paid _
  rcases ModifyPositionWithPrice.load_ok loaded with ⟨found, _, held, _⟩
  have accrued : Accrued s user.pubkey mint (accrueMarket ctx.market s.clock)
      (accruePosition ctx.position (accrueMarket ctx.market s.clock)) :=
    ⟨⟨_, found, rfl⟩, Or.inl ⟨_, held, rfl⟩⟩
  have mine := accrued.supplied_le
  have booked := accrued.totalSupplied
  have balanced := Reachable.balanced reached mint
  simp only [Pool.Balanced, State.pool] at balanced
  rw [Uint.checkedSub_eq_some] at taken
  have enough : amount.val ≤ (accrueMarket ctx.market s.clock).totalSupplied.val := by omega
  exact ⟨_, Uint.checkedSub_of_le enough⟩

end Errors

section Laws

variable {rt : Runtime} {s : State}

/-- A vault and the recorded loans of its market always cover the deposits. -/
theorem vault_solvent (reached : Reachable rt s) {mint : Pubkey} {market : Market}
    (found : s.markets.lookup mint = some market) :
    ∃ vault, s.tokens.lookup (.vault mint) = some vault ∧
      s.suppliedIn mint ≤ vault.amount.val + market.totalBorrowed.val := by
  have owned := (Reachable.linked reached).vault mint
  rw [marketTerms_of_lookup found] at owned
  rcases Option.map_eq_some_iff.mp owned with ⟨vault, banked, _⟩
  have solvent := Reachable.solvent reached mint
  simp only [Pool.Solvent, State.pool, State.cash, amountAt_of_lookup banked,
    totalBorrowed_of_lookup found] at solvent
  exact ⟨vault, banked, solvent⟩

theorem vault_solvent_usdc :
    ∃ market vault, (ledger (indebted 8000000000000)).markets.lookup usdc.pubkey = some market ∧
      (ledger (indebted 8000000000000)).tokens.lookup (.vault usdc.pubkey) = some vault ∧
      market.totalBorrowed.val = 8000000000000 ∧
      (ledger (indebted 8000000000000)).suppliedIn usdc.pubkey ≤
        vault.amount.val + market.totalBorrowed.val := by
  have lent : ∃ market,
      (ledger (indebted 8000000000000)).markets.lookup usdc.pubkey = some market ∧
        market.totalBorrowed.val = 8000000000000 := some_where (by decide +kernel)
  rcases lent with ⟨market, found, lent⟩
  rcases vault_solvent (ledger_reachable _) found with ⟨vault, banked, covered⟩
  exact ⟨market, vault, found, banked, lent, covered⟩

/-- The deposit counter is the sum of the deposits, so neither the checked nor the
saturating subtractions from it are ever short. -/
theorem total_supplied_exact (reached : Reachable rt s) :
    (∀ mint market, s.markets.lookup mint = some market →
      market.totalSupplied.val = s.suppliedIn mint) ∧
    (∀ user mint priceUpdate remaining amount,
      withdraw rt s user mint priceUpdate remaining amount ≠ .error (.market .overflow)) ∧
    ∀ accounts remaining repayAmount s',
      liquidate rt s accounts remaining repayAmount = .ok s' →
        ∃ repaid seized, Moves s accounts repaid seized s' ∧
          CollateralSettled s accounts seized s' := by
  refine ⟨?_, ?_, ?_⟩
  · intro mint market found
    rw [← totalSupplied_of_lookup found]
    exact Reachable.balanced reached mint
  · intro user mint priceUpdate remaining amount failed
    exact withdraw_noOverflow reached _ _ _ _ _ _ failed rfl
  · intro accounts remaining repayAmount s' ran
    rcases liquidate_ok ran with ⟨run⟩
    exact ⟨_, _, run.moves, run.collateral_settled reached⟩

theorem total_supplied_exact_usdc :
    ∃ market, (ledger (indebted 8000000000000)).markets.lookup usdc.pubkey = some market ∧
      market.totalSupplied.val = 40000000000000 ∧
      market.totalSupplied.val = (ledger (indebted 8000000000000)).suppliedIn usdc.pubkey ∧
      withdraw devnet (ledger (indebted 8000000000000)) bob usdc.pubkey usdcPrice [] 1 ≠
        .error (.market .overflow) := by
  have lent : ∃ market,
      (ledger (indebted 8000000000000)).markets.lookup usdc.pubkey = some market ∧
        market.totalSupplied.val = 40000000000000 := some_where (by decide +kernel)
  rcases lent with ⟨market, found, supplied⟩
  obtain ⟨balanced, checked, _⟩ :=
    total_supplied_exact (ledger_reachable (indebted 8000000000000))
  exact ⟨market, found, supplied, balanced _ _ found, checked _ _ _ _ _⟩

def repayable (s : State) (market : Market) (position : Position) (amount : U64) : ℕ :=
  min amount.val (accruePosition position (accrueMarket market s.clock)).borrowed.val

theorem repayable_le (reached : ReachableBy rt InterestFree s) {a : Action} {user mint : Pubkey}
    {market : Market} {position : Position} (free : InterestFree s a)
    (restated : (user, mint) ∈ a.restated) (stored : Stored s user mint market position)
    (amount : U64) : repayable s market position amount ≤ market.totalBorrowed.val := by
  have recorded := ReachableBy.recorded reached mint
  have mine := inMarket_le_total (fun p => p.borrowed.val) stored.position
  have unchanged := free _ restated position stored.position market stored.market
  simp only [Pool.Recorded, State.pool, totalBorrowed_of_lookup stored.market,
    State.borrowedIn] at recorded
  rw [repayable, unchanged]
  calc
    min amount.val position.borrowed.val ≤ position.borrowed.val := min_le_right _ _
    _ ≤ s.positions.total (inMarket (fun p => p.borrowed.val) mint) := mine
    _ = market.totalBorrowed.val := recorded.symm

/-- In runs whose steps find no interest due, the loan counter is the sum of the
debts, no repayment is more than it holds, and it is zero when nobody owes. -/
theorem total_borrowed_exact (reached : ReachableBy rt InterestFree s) :
    (∀ mint market, s.markets.lookup mint = some market →
      market.totalBorrowed.val = s.borrowedIn mint) ∧
    (∀ user mint amount market position, InterestFree s (.repay user mint amount) →
      Stored s user.pubkey mint market position →
        repayable s market position amount ≤ market.totalBorrowed.val) ∧
    (∀ accounts remaining repayAmount market position,
      InterestFree s (.liquidate accounts remaining repayAmount) →
      Stored s accounts.borrower accounts.debtMint market position →
        repayable s market position repayAmount ≤ market.totalBorrowed.val) ∧
    ∀ mint market, s.markets.lookup mint = some market →
      (market.totalBorrowed.val = 0 ↔ ∀ user position,
        s.positions.lookup (user, mint) = some position → position.borrowed.val = 0) := by
  have sums (mint : Pubkey) (market : Market) (found : s.markets.lookup mint = some market) :
      market.totalBorrowed.val = s.borrowedIn mint := by
    rw [← totalBorrowed_of_lookup found]
    exact ReachableBy.recorded reached mint
  refine ⟨sums, ?_, ?_, ?_⟩
  · intro user mint amount market position free stored
    exact repayable_le reached free (by simp [Action.restated]) stored amount
  · intro accounts remaining repayAmount market position free stored
    exact repayable_le reached free (by simp [Action.restated]) stored repayAmount
  · intro mint market found
    rw [sums mint market found, State.borrowedIn, Table.total_eq_zero_iff]
    constructor
    · intro none user position held
      have share := none (user, mint) position held
      rwa [inMarket, if_pos rfl] at share
    · rintro none ⟨user, other⟩ position held
      rw [inMarket]
      split
      · rename_i here
        obtain rfl : other = mint := here
        exact none user position held
      · rfl

theorem total_borrowed_exact_usdc :
    ∃ market, (replay devnet InterestFree .empty (indebted 4000000000000)).markets.lookup
        usdc.pubkey = some market ∧
      market.totalBorrowed.val = 4000000000000 ∧
      market.totalBorrowed.val =
        (replay devnet InterestFree .empty (indebted 4000000000000)).borrowedIn usdc.pubkey := by
  have lent : ∃ market, (replay devnet InterestFree .empty (indebted 4000000000000)).markets.lookup
      usdc.pubkey = some market ∧ market.totalBorrowed.val = 4000000000000 :=
    some_where (by decide +kernel)
  rcases lent with ⟨market, found, lent⟩
  obtain ⟨recorded, _⟩ := total_borrowed_exact (replay_reaches (.start rfl) (indebted 4000000000000))
  exact ⟨market, found, lent, recorded _ _ found⟩

def repaidLate : State :=
  ledger (indebted 4000000000000 ++ [reach 1000100 10000000000, .repay alice usdc.pubkey 1])

/-- The interest is added to the debt and not to the counter. -/
theorem total_borrowed_behind :
    ∃ market, Reachable devnet repaidLate ∧
      repaidLate.markets.lookup usdc.pubkey = some market ∧
      market.totalBorrowed.val = 3999999999999 ∧
      repaidLate.borrowedIn usdc.pubkey = 4101471334347 := by
  have counted : ∃ market, repaidLate.markets.lookup usdc.pubkey = some market ∧
      market.totalBorrowed.val = 3999999999999 := some_where (by decide +kernel)
  have owed : repaidLate.borrowedIn usdc.pubkey = 4101471334347 := by decide +kernel
  rcases counted with ⟨market, found, counted⟩
  exact ⟨market, ledger_reachable _, found, counted, owed⟩

end Laws

section Books

variable {rt : Runtime} {guard : State → Action → Prop} {s s' : State}

/-- Whatever is done to a ledger, the books of each market go through moves of the abstract
pool, and through moves without interest when no step of the run charges any. -/
theorem ledger_refines_pool (reached : Reachable rt s) (later : Leads rt guard s s')
    (mint : Pubkey) :
    Pool.Moves (fun move => (∀ s a, guard s a → InterestFree s a) → move.InterestFree)
      (s.pool mint) (s'.pool mint) := by
  -- reachability goes along, since a step is only simulated where the books tie up
  have simulated := later.frame (R := fun s s' => Reachable rt s → Reachable rt s' ∧
    Pool.Moves (fun move => (∀ s a, guard s a → InterestFree s a) → move.InterestFree)
      (s.pool mint) (s'.pool mint)) ?_ ?_ ?_
  · exact (simulated reached).2
  · exact fun s reached => ⟨reached, .refl _⟩
  · intro s s' s'' first rest reached
    obtain ⟨between, moves⟩ := first reached
    obtain ⟨ends, moves'⟩ := rest between
    exact ⟨ends, moves.trans moves'⟩
  · intro s a s' allowed step reached
    refine ⟨reached.next trivial step, ?_⟩
    have moves := step_pool reached.linked reached.balanced step mint
    exact moves.mono fun move free unguarded => free (unguarded s a allowed)

end Books

theorem ledger_refines_pool_usdc :
    Pool.Moves Pool.Move.InterestFree ((ledger lenders).pool usdc.pubkey)
        ((replay devnet InterestFree (ledger lenders) [borrowUsdc 8000000000000]).pool
          usdc.pubkey) ∧
      ((replay devnet InterestFree (ledger lenders) [borrowUsdc 8000000000000]).pool
        usdc.pubkey).cash = 32000000000000 := by
  have later : Leads devnet InterestFree (ledger lenders)
      (replay devnet InterestFree (ledger lenders) [borrowUsdc 8000000000000]) :=
    replay_leads _ _ _ _
  refine ⟨?_, by decide +kernel⟩
  exact (ledger_refines_pool (ledger_reachable _) later usdc.pubkey).mono fun _ free =>
    free fun _ _ charges => charges

end ShadowLend
