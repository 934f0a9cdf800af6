import Mathlib.Algebra.BigOperators.Group.List.Basic

/-! Runs of a labelled transition system, and the one induction every safety
result of a development over such runs is an instance of. A guard restricts the
steps a run may take, so that a conditional law is a law of the guarded runs. -/

namespace Runs

variable {σ ι : Type}

/-- The states some run of guarded steps ends in. -/
inductive Reaches (initial : σ → Prop) (step : σ → ι → σ → Prop) (guard : σ → ι → Prop) :
    σ → Prop
  | start {s : σ} : initial s → Reaches initial step guard s
  | next {s s' : σ} {label : ι} : Reaches initial step guard s → guard s label →
      step s label s' → Reaches initial step guard s'

variable {initial : σ → Prop} {step : σ → ι → σ → Prop} {guard : σ → ι → Prop}

theorem Reaches.invariant {P : σ → Prop} (base : ∀ s, initial s → P s)
    (preserved : ∀ s label s', P s → guard s label → step s label s' → P s')
    {s : σ} (reached : Reaches initial step guard s) : P s := by
  induction reached with
  | start begins => exact base _ begins
  | next _ allowed moved ih => exact preserved _ _ _ ih allowed moved

theorem Reaches.weaken {looser : σ → ι → Prop} (implies : ∀ s label, guard s label → looser s label)
    {s : σ} (reached : Reaches initial step guard s) : Reaches initial step looser s := by
  induction reached with
  | start begins => exact .start begins
  | next _ allowed moved ih => exact .next ih (implies _ _ allowed) moved

/-- A run that starts where another ended continues it. -/
theorem Reaches.append {s s' : σ} (first : Reaches initial step guard s)
    (second : Reaches (· = s) step guard s') : Reaches initial step guard s' := by
  induction second with
  | start begins => exact begins ▸ first
  | next _ allowed moved ih => exact .next ih allowed moved

/-- An invariant may lean on another one already known to hold along the run. -/
theorem Reaches.invariant_under {P Q : σ → Prop} (known : ∀ s, Reaches initial step guard s → Q s)
    (base : ∀ s, initial s → P s)
    (preserved : ∀ s label s', Q s → P s → guard s label → step s label s' → P s')
    {s : σ} (reached : Reaches initial step guard s) : P s := by
  induction reached with
  | start begins => exact base _ begins
  | next earlier allowed moved ih => exact preserved _ _ _ (known _ earlier) ih allowed moved

/-- A relation between states that every guarded step keeps relates the two ends
of a run. -/
theorem Reaches.frame {R : σ → σ → Prop} (refl : ∀ s, R s s)
    (trans : ∀ s s' s'', R s s' → R s' s'' → R s s'')
    (each : ∀ s label s', guard s label → step s label s' → R s s')
    {s s' : σ} (later : Reaches (· = s) step guard s') : R s s' := by
  induction later with
  | start begins => exact begins ▸ refl _
  | next _ allowed moved ih => exact trans _ _ _ ih (each _ _ _ allowed moved)

section Logs

variable {ε ρ : Type} {log : σ → List ε} {play : ρ → ε → ρ} {R : ρ → σ → Prop}

/-- A reader who agrees with a state, and keeps agreeing by playing the entries each
step appends to a log, agrees with the end of a run after the entries it appended. -/
theorem Reaches.replayed {r : ρ} {s s' : σ} (agrees : R r s)
    (each : ∀ s label s' r, step s label s' → R r s →
      ∃ news, log s' = log s ++ news ∧ R (news.foldl play r) s')
    (later : Reaches (· = s) step guard s') :
    ∃ news, log s' = log s ++ news ∧ R (news.foldl play r) s' := by
  induction later with
  | start begins =>
      subst begins
      exact ⟨[], (List.append_nil _).symm, agrees⟩
  | next _ _ moved ih =>
      obtain ⟨old, before, agreed⟩ := ih
      obtain ⟨news, appended, agrees⟩ := each _ _ _ _ moved agreed
      refine ⟨old ++ news, ?_, ?_⟩
      · rw [appended, before, List.append_assoc]
      · rw [List.foldl_append]
        exact agrees

end Logs

section Histories

/-- One step as a run took it. -/
structure Entry (σ ι : Type) where
  before : σ
  label : ι
  after : σ

/-- Runs that remember their steps, the last one first. -/
inductive Recorded (initial : σ → Prop) (step : σ → ι → σ → Prop) (guard : σ → ι → Prop) :
    List (Entry σ ι) → σ → Prop
  | start {s : σ} : initial s → Recorded initial step guard [] s
  | next {history : List (Entry σ ι)} {s s' : σ} {label : ι} :
      Recorded initial step guard history s → guard s label → step s label s' →
      Recorded initial step guard (⟨s, label, s'⟩ :: history) s'

variable {history : List (Entry σ ι)}

theorem Recorded.reaches {s : σ} (run : Recorded initial step guard history s) :
    Reaches initial step guard s := by
  induction run with
  | start begins => exact .start begins
  | next _ allowed moved ih => exact .next ih allowed moved

theorem Reaches.recalled {s : σ} (reached : Reaches initial step guard s) :
    ∃ history, Recorded initial step guard history s := by
  induction reached with
  | start begins => exact ⟨[], .start begins⟩
  | next _ allowed moved ih =>
      rcases ih with ⟨history, run⟩
      exact ⟨_, .next run allowed moved⟩

/-- A law about a state and the steps that led there, one step at a time. -/
theorem Recorded.invariant {P : List (Entry σ ι) → σ → Prop} (base : ∀ s, initial s → P [] s)
    (preserved : ∀ history s label s', Reaches initial step guard s → P history s →
      step s label s' → P (⟨s, label, s'⟩ :: history) s')
    {s : σ} (run : Recorded initial step guard history s) : P history s := by
  induction run with
  | start begins => exact base _ begins
  | next earlier _ moved ih => exact preserved _ _ _ _ earlier.reaches ih moved

variable {M : Type} [AddCommMonoid M]

/-- A measure is all that its steps added, less all that they took away. -/
theorem Recorded.balance {f : σ → M} {gain loss : Entry σ ι → M}
    (base : ∀ s, initial s → f s = 0)
    (moves : ∀ s label s', Reaches initial step guard s → step s label s' →
      f s' + loss ⟨s, label, s'⟩ = f s + gain ⟨s, label, s'⟩)
    {s : σ} (run : Recorded initial step guard history s) :
    f s + (history.map loss).sum = (history.map gain).sum := by
  induction run with
  | start begins => exact (add_zero _).trans (base _ begins)
  | @next history s s' label earlier _ moved ih =>
      rw [List.map_cons, List.map_cons, List.sum_cons, List.sum_cons, ← ih, ← add_assoc,
        moves s label s' earlier.reaches moved]
      ac_rfl

theorem Recorded.sum {f : σ → M} {gain : Entry σ ι → M}
    (base : ∀ s, initial s → f s = 0)
    (moves : ∀ s label s', Reaches initial step guard s → step s label s' →
      f s' = f s + gain ⟨s, label, s'⟩)
    {s : σ} (run : Recorded initial step guard history s) :
    f s = (history.map gain).sum := by
  have balanced : f s + (history.map fun _ => (0 : M)).sum = (history.map gain).sum :=
    run.balance base fun s label s' earlier moved =>
      (add_zero _).trans (moves s label s' earlier moved)
  rwa [List.map_const', List.sum_replicate, nsmul_zero, add_zero] at balanced

end Histories

end Runs
