import Mathlib.Algebra.Order.Sub.Basic
import Mathlib.Logic.Relation

/-! A lending pool in the abstract: cash that was deposited is partly lent out.
`lent` and `booked` are running counters; `debt` and `owed` are what the
borrowers owe the pool and what the pool owes its depositors. -/

@[ext] structure Pool (M : Type) where
  cash : M
  lent : M
  booked : M
  owed : M
  debt : M

namespace Pool

variable {M : Type}

/-- A repayment is taken off the counter as far as the counter goes. Interest
restates one borrower's debt and is never booked. -/
inductive Move (M : Type)
  | deposit (amount : M)
  | redeem (amount : M)
  | lend (amount : M)
  | collect (amount : M)
  | donate (amount : M)
  | restate (before after : M)

section Moves

variable [AddCommMonoid M] [Sub M]

def Move.Takes (move : Move M) (p q : Pool M) : Prop :=
  match move with
  | .deposit x =>
      q = { p with cash := p.cash + x, booked := p.booked + x, owed := p.owed + x }
  | .redeem x =>
      p = { q with cash := q.cash + x, booked := q.booked + x, owed := q.owed + x }
  | .lend x =>
      p.cash = q.cash + x ∧ q.lent = p.lent + x ∧ q.booked = p.booked ∧ q.owed = p.owed ∧
        q.debt = p.debt + x
  | .collect x =>
      q.cash = p.cash + x ∧ q.lent = p.lent - x ∧ q.booked = p.booked ∧ q.owed = p.owed ∧
        p.debt = q.debt + x
  | .donate x => q = { p with cash := p.cash + x }
  | .restate before after =>
      q.cash = p.cash ∧ q.lent = p.lent ∧ q.booked = p.booked ∧ q.owed = p.owed ∧
        q.debt + before = p.debt + after

/-- Some sequence of moves, all of an allowed kind. -/
def Moves (allowed : Move M → Prop) : Pool M → Pool M → Prop :=
  Relation.ReflTransGen fun p q => ∃ move, allowed move ∧ Move.Takes move p q

variable {allowed : Move M → Prop} {p q r : Pool M}

theorem Moves.refl (p : Pool M) : Moves allowed p p := Relation.ReflTransGen.refl

theorem Moves.step (move : Move M) (fits : allowed move) (taken : move.Takes p q) :
    Moves allowed p q := Relation.ReflTransGen.single ⟨move, fits, taken⟩

theorem Moves.trans (first : Moves allowed p q) (rest : Moves allowed q r) :
    Moves allowed p r := Relation.ReflTransGen.trans first rest

theorem Moves.mono {more : Move M → Prop} (weaker : ∀ move, allowed move → more move)
    (moves : Moves allowed p q) : Moves more p q := by
  refine Relation.ReflTransGen.mono ?_ _ _ moves
  rintro p q ⟨move, fits, taken⟩
  exact ⟨move, weaker move fits, taken⟩

/-- A law which each allowed move keeps is kept by every sequence of them. -/
theorem Moves.preserve {law : Pool M → Prop}
    (keeps : ∀ move p q, allowed move → Move.Takes move p q → law p → law q)
    (moves : Moves allowed p q) (start : law p) : law q := by
  induction moves with
  | refl => exact start
  | tail _ last ih =>
      rcases last with ⟨move, fits, taken⟩
      exact keeps move _ _ fits taken ih

end Moves

def Solvent [Add M] [LE M] (p : Pool M) : Prop := p.owed ≤ p.cash + p.lent

def Balanced (p : Pool M) : Prop := p.booked = p.owed

def Recorded (p : Pool M) : Prop := p.lent = p.debt

section Laws

variable [AddCommMonoid M] [PartialOrder M] [CanonicallyOrderedAdd M]
variable [IsOrderedCancelAddMonoid M] [Sub M] [OrderedSub M]
variable {p q : Pool M}

theorem Move.Takes.solvent {move : Move M} (taken : move.Takes p q) (solvent : p.Solvent) :
    q.Solvent := by
  unfold Solvent at *
  cases move with
  | deposit x =>
      subst taken
      calc
        p.owed + x ≤ p.cash + p.lent + x := add_le_add_left solvent x
        _ = p.cash + x + p.lent := add_right_comm _ _ _
  | redeem x =>
      subst taken
      have covered : q.owed + x ≤ q.cash + q.lent + x := by
        rw [add_right_comm]
        exact solvent
      exact le_of_add_le_add_right covered
  | lend x =>
      rcases taken with ⟨cash, lent, _, owed, _⟩
      rw [owed, lent, add_comm p.lent, ← add_assoc, ← cash]
      exact solvent
  | collect x =>
      rcases taken with ⟨cash, lent, _, owed, _⟩
      rw [owed, cash, lent]
      calc
        p.owed ≤ p.cash + p.lent := solvent
        _ ≤ p.cash + (x + (p.lent - x)) := add_le_add_right le_add_tsub p.cash
        _ = p.cash + x + (p.lent - x) := (add_assoc _ _ _).symm
  | donate x =>
      subst taken
      calc
        p.owed ≤ p.cash + p.lent := solvent
        _ ≤ p.cash + x + p.lent := add_le_add_left le_self_add p.lent
  | restate before after =>
      rcases taken with ⟨cash, lent, _, owed, _⟩
      rw [owed, cash, lent]
      exact solvent

omit [CanonicallyOrderedAdd M] [OrderedSub M] in
theorem Move.Takes.balanced {move : Move M} (taken : move.Takes p q) (balanced : p.Balanced) :
    q.Balanced := by
  unfold Balanced at *
  cases move with
  | deposit x =>
      subst taken
      exact congrArg (· + x) balanced
  | redeem x =>
      subst taken
      exact add_right_cancel balanced
  | lend x =>
      rcases taken with ⟨_, _, booked, owed, _⟩
      rw [booked, owed, balanced]
  | collect x =>
      rcases taken with ⟨_, _, booked, owed, _⟩
      rw [booked, owed, balanced]
  | donate x =>
      subst taken
      exact balanced
  | restate before after =>
      rcases taken with ⟨_, _, booked, owed, _⟩
      rw [booked, owed, balanced]

/-- A move that charges no interest, as far as the debts are concerned. -/
def Move.InterestFree (move : Move M) : Prop :=
  ∀ before after, move = .restate before after → before = after

omit [CanonicallyOrderedAdd M] in
/-- Without interest the counter of loans is the sum of the debts. -/
theorem Move.Takes.recorded {move : Move M} (free : move.InterestFree) (taken : move.Takes p q)
    (recorded : p.Recorded) : q.Recorded := by
  unfold Recorded at *
  cases move with
  | deposit x =>
      subst taken
      exact recorded
  | redeem x =>
      subst taken
      exact recorded
  | lend x =>
      rcases taken with ⟨_, lent, _, _, debt⟩
      rw [lent, debt, recorded]
  | collect x =>
      rcases taken with ⟨_, lent, _, _, debt⟩
      rw [lent, recorded, debt, add_tsub_cancel_right]
  | donate x =>
      subst taken
      exact recorded
  | restate before after =>
      rcases free before after rfl with rfl
      rcases taken with ⟨_, lent, _, _, debt⟩
      rw [lent, recorded]
      exact (add_right_cancel debt).symm

end Laws

end Pool
