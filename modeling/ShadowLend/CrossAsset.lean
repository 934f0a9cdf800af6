import ShadowLend.Devnet
import ShadowLend.Effects

/-! Keeping a user's debt in a market apart from the same user's collateral in it.
`borrow` refuses the one order of the two; nothing refuses the other. -/

namespace ShadowLend

open Outcome Devnet

def Position.OneSided (position : Position) : Prop :=
  position.supplied.val = 0 ∨ position.borrowed.val = 0

/-- No position is supplied to while it owes. -/
def SuppliesUnborrowed (s : State) (a : Action) : Prop :=
  match a with
  | .supply user mint _ =>
      ((s.positions.lookup (user.pubkey, mint)).all fun position => position.borrowed.val = 0) =
        true
  | _ => True

instance (s : State) (a : Action) : Decidable (SuppliesUnborrowed s a) := by
  unfold SuppliesUnborrowed
  split <;> infer_instance

def AllOneSided (positions : Table (Pubkey × Pubkey) Position) : Prop :=
  ∀ key position, positions.lookup key = some position → position.OneSided

theorem AllOneSided.insert {positions : Table (Pubkey × Pubkey) Position}
    (all : AllOneSided positions) {key : Pubkey × Pubkey} {position : Position}
    (one : position.OneSided) : AllOneSided (positions.insert key position) := by
  intro other stored found
  by_cases here : other = key
  · subst other
    rw [Finmap.lookup_insert, Option.some.injEq] at found
    exact found ▸ one
  · rw [Finmap.lookup_insert_of_ne _ here] at found
    exact all other stored found

section Steps

variable {rt : Runtime} {s s' : State}

theorem Accrued.oneSided (all : AllOneSided s.positions) {user mint : Pubkey} {market : Market}
    {position : Position} (accrued : Accrued s user mint market position) :
    position.OneSided := by
  rcases accrued.ofPosition with ⟨old, found, rfl⟩ | ⟨_, nothing, _, _⟩
  · rcases all _ _ found with unsupplied | debtless
    · left
      rw [accruePosition_supplied, unsupplied]
    · right
      rw [accruePosition_debtless _ _ debtless, debtless]
  · exact Or.inl nothing

theorem Touch.oneSided (all : AllOneSided s.positions) {a : Action} {kind : MarketActionKind}
    {user : Signer} {mint : Pubkey} (acts : a.touch = some (kind, user, mint))
    (guarded : SuppliesUnborrowed s a) (touch : Touch s kind user mint s') :
    (touch.position.rebalance touch.balances).OneSided := by
  have before := touch.accrued.oneSided all
  have books := touch.books
  unfold Position.OneSided at *
  cases kind with
  | supply =>
      rcases books with ⟨_, borrowed, _⟩
      right
      have debtless : touch.position.borrowed.val = 0 := by
        rcases touch.accrued.ofPosition with ⟨old, found, same⟩ | ⟨_, _, nothing, _⟩
        · cases a with
          | supply user' mint' amount =>
              cases acts
              rw [SuppliesUnborrowed, found, Option.all_some, decide_eq_true_iff] at guarded
              rw [same, accruePosition_debtless _ _ guarded, guarded]
          | _ => cases acts
        · exact nothing
      rw [← borrowed] at debtless
      exact debtless
  | withdraw =>
      rcases books with ⟨supplied, borrowed, _⟩
      rw [← borrowed] at before
      change touch.balances.supplied.val = 0 ∨ touch.balances.borrowed.val = 0
      omega
  | borrow =>
      rcases books with ⟨unsupplied, supplied, _⟩
      rw [← supplied] at unsupplied
      exact Or.inl unsupplied
  | repay =>
      rcases books with ⟨supplied, borrowed, _⟩
      rw [← supplied] at before
      change touch.balances.supplied.val = 0 ∨ touch.balances.borrowed.val = 0
      omega

theorem LiquidateRun.oneSided (all : AllOneSided s.positions) {accounts : LiquidateAccounts}
    {remaining : List Pubkey} {repayAmount : U64}
    (run : LiquidateRun rt s accounts remaining repayAmount s') : AllOneSided s'.positions := by
  rw [run.positions]
  refine (all.insert ?_).insert ?_
  · rcases run.accruedDebt.oneSided all with unsupplied | debtless
    · exact Or.inl unsupplied
    · right
      exact (Uint.val_saturatingSub _ _).trans (by rw [debtless, Nat.zero_sub])
  · rcases run.accruedCollateral.oneSided all with unsupplied | debtless
    · left
      exact (Uint.val_saturatingSub _ _).trans (by rw [unsupplied, Nat.zero_sub])
    · exact Or.inr debtless

/-- In runs which never supply to a position in debt, no position has both. -/
theorem positions_one_sided (reached : ReachableBy rt SuppliesUnborrowed s)
    {key : Pubkey × Pubkey} {position : Position}
    (found : s.positions.lookup key = some position) :
    ¬ (0 < position.supplied.val ∧ 0 < position.borrowed.val) := by
  have all : AllOneSided s.positions := by
    apply reached.invariant_under fun _ earlier => Reachable.linked (ReachableBy.reachable earlier)
    · rintro _ rfl key position found
      simp [State.empty] at found
    · intro s a s' linked all guarded step
      rcases step_effect linked step with ⟨_, positions, _⟩ | ⟨_, _, _, _, _, _, positions, _⟩ |
        ⟨_, _, _, _, _, _, positions, _⟩ | ⟨kind, user, mint, acts, touch⟩ | ⟨_, _, _, _, run⟩
      · rwa [positions]
      · rwa [positions]
      · rwa [positions]
      · rw [touch.positions]
        exact all.insert (touch.oneSided all acts guarded)
      · exact run.oneSided all
  have one := all key position found
  unfold Position.OneSided at one
  omega

end Steps

theorem positions_one_sided_usdc :
    ∃ position, (replay devnet SuppliesUnborrowed .empty (indebted 8000000000000)).positions.lookup
        (alice.pubkey, usdc.pubkey) = some position ∧
      position.borrowed.val = 8000000000000 ∧
      ¬ (0 < position.supplied.val ∧ 0 < position.borrowed.val) := by
  have owes : ∃ position,
      (replay devnet SuppliesUnborrowed .empty (indebted 8000000000000)).positions.lookup
        (alice.pubkey, usdc.pubkey) = some position ∧ position.borrowed.val = 8000000000000 :=
    some_where (by decide +kernel)
  rcases owes with ⟨position, found, owes⟩
  exact ⟨position, found, owes, positions_one_sided (replay_reaches (.start rfl) _) found⟩

/-- Alice supplies USDC to the position she borrowed USDC from. -/
theorem supplied_over_debt :
    ∃ position, Reachable devnet (ledger (indebted 8000000000000 ++ [.supply alice usdc.pubkey 1])) ∧
      (ledger (indebted 8000000000000 ++ [.supply alice usdc.pubkey 1])).positions.lookup
        (alice.pubkey, usdc.pubkey) = some position ∧
      0 < position.supplied.val ∧ 0 < position.borrowed.val := by
  have both : ∃ position,
      (ledger (indebted 8000000000000 ++ [.supply alice usdc.pubkey 1])).positions.lookup
        (alice.pubkey, usdc.pubkey) = some position ∧
      0 < position.supplied.val ∧ 0 < position.borrowed.val := some_where (by decide +kernel)
  rcases both with ⟨position, found, both⟩
  exact ⟨position, ledger_reachable _, found, both⟩

end ShadowLend
