import ShadowLend.Foundation.Lockstep

/-! Steps that read and write only the cells they name. Threads of such steps which do
not conflict cannot tell whether they run alone, so all their interleavings agree. -/

namespace Isolation

open Outcome

variable {σ κ ι ε τ : Type} {Content : κ → Type}

/-- The cells each step may read and may write. -/
structure Footprint (ι κ : Type) where
  reads : ι → κ → Prop
  writes : ι → κ → Prop

variable (view : σ → (c : κ) → Content c) (footprint : Footprint ι κ)

def Footprint.touches (a : ι) (c : κ) : Prop := footprint.reads a c ∨ footprint.writes a c

/-- The first step writes nothing which the second one touches. -/
def Footprint.Spares (a b : ι) : Prop := ∀ c, footprint.writes a c → ¬ footprint.touches b c

def Agree (region : κ → Prop) (s t : σ) : Prop := ∀ c, region c → view s c = view t c

/-- Steps that keep to their footprint: outside it nothing changes, and what happens
depends on nothing outside it. -/
structure Confined (perform : σ → ι → Except ε σ) : Prop where
  frame : ∀ s a s' c, perform s a = .ok s' → ¬ footprint.writes a c → view s' c = view s c
  same : ∀ s t a, Agree view (footprint.touches a) s t →
    Lockstep (Agree view (footprint.touches a)) (perform s a) (perform t a)

def attempt (perform : σ → ι → Except ε σ) (s : σ) (a : ι) : σ := (perform s a).toOption.getD s

def report (perform : σ → ι → Except ε σ) (s : σ) (a : ι) : Option ε :=
  match perform s a with
  | .ok _ => none
  | .error e => some e

def finish (perform : σ → ι → Except ε σ) (s : σ) : List (τ × ι) → σ
  | [] => s
  | entry :: rest => finish perform (attempt perform s entry.2) rest

def reports (perform : σ → ι → Except ε σ) (s : σ) : List (τ × ι) → List (τ × Option ε)
  | [] => []
  | entry :: rest =>
      (entry.1, report perform s entry.2) :: reports perform (attempt perform s entry.2) rest

variable {view footprint}

theorem Agree.mono {region smaller : κ → Prop} {s t : σ} (agrees : Agree view region s t)
    (within : ∀ c, smaller c → region c) : Agree view smaller s t :=
  fun c inside => agrees c (within c inside)

section Steps

variable {perform : σ → ι → Except ε σ} (confined : Confined view footprint perform)
include confined

theorem attempt_frame (s : σ) (a : ι) {c : κ} (outside : ¬ footprint.writes a c) :
    view (attempt perform s a) c = view s c := by
  unfold attempt
  cases ran : perform s a with
  | ok s' => exact confined.frame s a s' c ran outside
  | error e => rfl

theorem report_same {s t : σ} {a : ι} (agrees : Agree view (footprint.touches a) s t) :
    report perform s a = report perform t a := by
  have steps := confined.same s t a agrees
  unfold report
  generalize perform s a = x at steps ⊢
  generalize perform t a = y at steps ⊢
  cases steps with
  | ok _ => rfl
  | error _ => rfl

/-- A step keeps two states that agree on its footprint and more in agreement. -/
theorem attempt_agree {region : κ → Prop} {s t : σ} {a : ι} (agrees : Agree view region s t)
    (within : ∀ c, footprint.touches a c → region c) :
    Agree view region (attempt perform s a) (attempt perform t a) := by
  intro c inside
  by_cases written : footprint.writes a c
  · have steps := confined.same s t a (agrees.mono within)
    unfold attempt
    generalize perform s a = x at steps ⊢
    generalize perform t a = y at steps ⊢
    cases steps with
    | ok related => exact related c (Or.inr written)
    | error _ => exact agrees c inside
  · rw [attempt_frame confined s a written, attempt_frame confined t a written]
    exact agrees c inside

/-- A step of another thread cannot be told from no step at all. -/
theorem attempt_apart {region : κ → Prop} {s t : σ} {a : ι} (agrees : Agree view region s t)
    (apart : ∀ c, region c → ¬ footprint.writes a c) :
    Agree view region (attempt perform s a) t := by
  intro c inside
  rw [attempt_frame confined s a (apart c inside)]
  exact agrees c inside

theorem finish_frame (s : σ) {schedule : List (τ × ι)} {c : κ}
    (outside : ∀ entry ∈ schedule, ¬ footprint.writes entry.2 c) :
    view (finish perform s schedule) c = view s c := by
  induction schedule generalizing s with
  | nil => rfl
  | cons head tail ih =>
      rw [finish, ih _ fun entry member => outside entry (List.mem_cons_of_mem _ member)]
      exact attempt_frame confined s head.2 (outside head List.mem_cons_self)

end Steps

variable [DecidableEq τ]

def strand {γ : Type} (thread : τ) (entries : List (τ × γ)) : List (τ × γ) :=
  entries.filter fun entry => entry.1 = thread

variable (footprint) in
/-- Steps of different threads spare each other. -/
def Footprint.Separate (schedule : List (τ × ι)) : Prop :=
  ∀ entry ∈ schedule, ∀ other ∈ schedule, entry.1 ≠ other.1 →
    footprint.Spares entry.2 other.2

theorem mem_of_strands {γ : Type} {schedule other : List (τ × γ)}
    (strands : ∀ thread, strand thread schedule = strand thread other) {entry : τ × γ}
    (member : entry ∈ schedule) : entry ∈ other := by
  have mine : entry ∈ strand entry.1 schedule := by simp [strand, member]
  rw [strands, strand, List.mem_filter] at mine
  exact mine.1

section Threads

variable {perform : σ → ι → Except ε σ} (confined : Confined view footprint perform)
include confined

/-- A thread of a schedule and the thread alone, from states that agree on what its
steps touch. -/
theorem strand_follows (thread : τ) {schedule : List (τ × ι)} {region : κ → Prop} {s t : σ}
    (agrees : Agree view region s t)
    (own : ∀ entry ∈ schedule, entry.1 = thread → ∀ c, footprint.touches entry.2 c → region c)
    (others : ∀ entry ∈ schedule, entry.1 ≠ thread → ∀ c, region c → ¬ footprint.writes entry.2 c) :
    strand thread (reports perform s schedule) = reports perform t (strand thread schedule) ∧
      Agree view region (finish perform s schedule) (finish perform t (strand thread schedule)) := by
  induction schedule generalizing s t with
  | nil => exact ⟨rfl, agrees⟩
  | cons head tail ih =>
      have ownTail entry (member : entry ∈ tail) := own entry (List.mem_cons_of_mem _ member)
      have othersTail entry (member : entry ∈ tail) := others entry (List.mem_cons_of_mem _ member)
      by_cases mine : head.1 = thread
      · have within := own head List.mem_cons_self mine
        obtain ⟨told, ended⟩ := ih (attempt_agree confined agrees within) ownTail othersTail
        have kept : strand thread (head :: tail) = head :: strand thread tail :=
          List.filter_cons_of_pos (decide_eq_true mine)
        have heard : strand thread (reports perform s (head :: tail)) =
            (head.1, report perform s head.2) ::
              strand thread (reports perform (attempt perform s head.2) tail) :=
          List.filter_cons_of_pos (decide_eq_true mine)
        rw [heard, kept, report_same confined (agrees.mono within), told]
        exact ⟨rfl, ended⟩
      · have apart := others head List.mem_cons_self mine
        obtain ⟨told, ended⟩ := ih (attempt_apart confined agrees apart) ownTail othersTail
        have dropped : strand thread (head :: tail) = strand thread tail :=
          List.filter_cons_of_neg (by simpa using mine)
        have unheard : strand thread (reports perform s (head :: tail)) =
            strand thread (reports perform (attempt perform s head.2) tail) :=
          List.filter_cons_of_neg (by simpa using mine)
        rw [unheard, dropped]
        exact ⟨told, ended⟩

/-- A thread gets the same reports, and leaves the same in the cells it touches, as if no
other thread had run. -/
theorem isolated (s : σ) {schedule : List (τ × ι)} (separate : footprint.Separate schedule)
    (thread : τ) :
    strand thread (reports perform s schedule) = reports perform s (strand thread schedule) ∧
      ∀ entry ∈ schedule, entry.1 = thread → Agree view (footprint.touches entry.2)
        (finish perform s schedule) (finish perform s (strand thread schedule)) := by
  have own : ∀ entry ∈ schedule, entry.1 = thread → ∀ c, footprint.touches entry.2 c →
      ∃ entry ∈ schedule, entry.1 = thread ∧ footprint.touches entry.2 c :=
    fun entry member mine c touched => ⟨entry, member, mine, touched⟩
  have others : ∀ entry ∈ schedule, entry.1 ≠ thread → ∀ c,
      (∃ other ∈ schedule, other.1 = thread ∧ footprint.touches other.2 c) →
        ¬ footprint.writes entry.2 c := by
    rintro entry member foreign c ⟨other, inside, mine, touched⟩ written
    have different : entry.1 ≠ other.1 := fun same => foreign (same.trans mine)
    exact separate entry member other inside different c written touched
  obtain ⟨told, ended⟩ := strand_follows confined thread (fun _ _ => rfl) own others
  exact ⟨told, fun entry member mine c touched => ended c ⟨entry, member, mine, touched⟩⟩

/-- Two interleavings of the same threads report the same to each and end in states that
agree on every cell. -/
theorem interleavings_agree (s : σ) {schedule other : List (τ × ι)}
    (separate : footprint.Separate schedule)
    (strands : ∀ thread, strand thread schedule = strand thread other) :
    (∀ thread, strand thread (reports perform s schedule) =
        strand thread (reports perform s other)) ∧
      ∀ c, view (finish perform s schedule) c = view (finish perform s other) c := by
  have back {entry : τ × ι} : entry ∈ other → entry ∈ schedule :=
    mem_of_strands fun thread => (strands thread).symm
  have separate' : footprint.Separate other := fun entry member entry' member' =>
    separate entry (back member) entry' (back member')
  constructor
  · intro thread
    rw [(isolated confined s separate thread).1, (isolated confined s separate' thread).1, strands]
  · intro c
    by_cases written : ∃ entry ∈ schedule, footprint.writes entry.2 c
    · obtain ⟨entry, member, written⟩ := written
      have touched : footprint.touches entry.2 c := Or.inr written
      have alone := (isolated confined s separate entry.1).2 entry member rfl c touched
      have alone' := (isolated confined s separate' entry.1).2 entry (mem_of_strands strands member)
        rfl c touched
      rw [alone, alone', strands]
    · have untouched entry (member : entry ∈ schedule) : ¬ footprint.writes entry.2 c :=
        fun wrote => written ⟨entry, member, wrote⟩
      rw [finish_frame confined s untouched,
        finish_frame confined s fun entry member => untouched entry (back member)]

end Threads

end Isolation
