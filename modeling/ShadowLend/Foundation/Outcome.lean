import Mathlib.Data.List.Forall2
import Mathlib.Data.List.Perm.Basic

/-! Fallible code that aborts on its first error. A successful run is taken
apart into the facts its checks established, one equation for each bind. -/

namespace Outcome

variable {ε α β : Type}

def require (condition : Prop) [Decidable condition] (error : ε) : Except ε Unit :=
  if condition then .ok () else .error error

def okOr (value : Option α) (error : ε) : Except ε α :=
  match value with
  | some a => .ok a
  | none => .error error

@[simp] theorem bind_ok {x : Except ε α} {f : α → Except ε β} {b : β} :
    (x >>= f) = .ok b ↔ ∃ a, x = .ok a ∧ f a = .ok b := by
  cases x with
  | ok a => simp [bind, Except.bind]
  | error e => simp [bind, Except.bind]

theorem bind_error {x : Except ε α} {f : α → Except ε β} {e : ε} :
    (x >>= f) = .error e ↔ x = .error e ∨ ∃ a, x = .ok a ∧ f a = .error e := by
  cases x with
  | ok a => simp [bind, Except.bind]
  | error e => simp [bind, Except.bind]

@[simp] theorem pure_ok {a b : α} : (pure a : Except ε α) = .ok b ↔ a = b := by
  simp [pure, Except.pure]

@[simp] theorem require_ok {condition : Prop} [Decidable condition] {error : ε} {u : Unit} :
    require condition error = .ok u ↔ condition := by
  unfold require
  split <;> simp_all

@[simp] theorem okOr_ok {value : Option α} {error : ε} {a : α} :
    okOr value error = .ok a ↔ value = some a := by
  cases value <;> simp [okOr]

theorem mapM_ok {f : α → Except ε β} {as : List α} {bs : List β} :
    as.mapM f = .ok bs ↔ List.Forall₂ (fun a b => f a = .ok b) as bs := by
  induction as generalizing bs with
  | nil =>
      rw [List.mapM_nil, pure_ok, List.forall₂_nil_left_iff]
      exact eq_comm
  | cons head tail ih =>
      simp only [List.mapM_cons, bind_ok, pure_ok, ih, List.forall₂_cons_left_iff]
      constructor
      · rintro ⟨b, ran, bs', rest, rfl⟩
        exact ⟨b, bs', ran, rest, rfl⟩
      · rintro ⟨b, bs', ran, rest, rfl⟩
        exact ⟨b, ran, bs', rest, rfl⟩

theorem mapM_total {f : α → Except ε β} {as : List α} (each : ∀ a ∈ as, ∃ b, f a = .ok b) :
    ∃ bs, as.mapM f = .ok bs := by
  induction as with
  | nil => exact ⟨[], rfl⟩
  | cons head tail ih =>
      rcases each head List.mem_cons_self with ⟨b, first⟩
      rcases ih fun a member => each a (List.mem_cons_of_mem _ member) with ⟨bs, rest⟩
      refine ⟨b :: bs, ?_⟩
      simp only [List.mapM_cons, bind_ok, pure_ok]
      exact ⟨b, first, bs, rest, rfl⟩

theorem mapM_perm {f : α → Except ε β} {as as' : List α} {bs : List β} (order : as'.Perm as)
    (ran : as.mapM f = .ok bs) : ∃ bs', as'.mapM f = .ok bs' ∧ bs'.Perm bs := by
  rcases List.perm_comp_forall₂ order (mapM_ok.mp ran) with ⟨bs', related, same⟩
  exact ⟨bs', mapM_ok.mpr related, same⟩

theorem ok_where {x : Except ε α} {P : α → Prop} [DecidablePred P]
    (computed : (x.toOption.any fun a => P a) = true) : ∃ a, x = .ok a ∧ P a := by
  cases x with
  | ok a => exact ⟨a, rfl, of_decide_eq_true computed⟩
  | error e => cases computed

def failure : Except ε α → Option ε
  | .ok _ => none
  | .error e => some e

theorem error_where {x : Except ε α} {e : ε} (computed : failure x = some e) : x = .error e := by
  cases x with
  | ok a => cases computed
  | error e' =>
      cases computed
      rfl

theorem not_ok_of_refused {x : Except ε α} (refused : x.toOption.isSome = false) :
    ¬ ∃ a, x = .ok a := by
  rintro ⟨a, rfl⟩
  cases refused

theorem some_where {o : Option α} {P : α → Prop} [DecidablePred P]
    (computed : (o.any fun a => P a) = true) : ∃ a, o = some a ∧ P a := by
  cases o with
  | some a => exact ⟨a, rfl, of_decide_eq_true computed⟩
  | none => cases computed

theorem exists_source {γ δ : Type} {R : γ → δ → Prop} {cs : List γ} {ds : List δ}
    (related : List.Forall₂ R cs ds) {d : δ} (member : d ∈ ds) : ∃ c ∈ cs, R c d := by
  induction related with
  | nil => cases member
  | cons head _ ih =>
      rcases List.mem_cons.mp member with rfl | member
      · exact ⟨_, List.mem_cons_self, head⟩
      · rcases ih member with ⟨c, inside, found⟩
        exact ⟨c, List.mem_cons_of_mem _ inside, found⟩

theorem exists_image {γ δ : Type} {R : γ → δ → Prop} {cs : List γ} {ds : List δ}
    (related : List.Forall₂ R cs ds) {c : γ} (member : c ∈ cs) : ∃ d ∈ ds, R c d :=
  exists_source related.flip member

/-- A fold whose body first reads its item and then consumes what it read is the
fold of the consumer over everything read. -/
theorem foldlM_read_ok {σ : Type} {read : α → Except ε β} {consume : σ → β → Except ε σ}
    {items : List α} {start result : σ} :
    items.foldlM (fun acc item => read item >>= consume acc) start = .ok result ↔
      ∃ values, items.mapM read = .ok values ∧ values.foldlM consume start = .ok result := by
  induction items generalizing start with
  | nil => simp
  | cons head tail ih =>
      simp only [List.foldlM_cons, List.mapM_cons, bind_ok, pure_ok, ih]
      constructor
      · rintro ⟨mid, ⟨value, readOk, consumed⟩, values, valuesOk, folded⟩
        exact ⟨value :: values, ⟨value, readOk, values, valuesOk, rfl⟩, by
          rw [List.foldlM_cons, bind_ok]; exact ⟨mid, consumed, folded⟩⟩
      · rintro ⟨all, ⟨value, readOk, values, valuesOk, rfl⟩, folded⟩
        rw [List.foldlM_cons, bind_ok] at folded
        rcases folded with ⟨mid, consumed, folded⟩
        exact ⟨mid, ⟨value, readOk, consumed⟩, values, valuesOk, folded⟩

def Avoids (bad : ε → Prop) (x : Except ε α) : Prop := ∀ e, x = .error e → ¬ bad e

@[simp] theorem avoids_ok {bad : ε → Prop} (a : α) : Avoids bad (.ok a : Except ε α) := by
  intro e impossible
  cases impossible

@[simp] theorem avoids_pure {bad : ε → Prop} (a : α) : Avoids bad (pure a : Except ε α) :=
  avoids_ok a

@[simp] theorem avoids_error {bad : ε → Prop} {error : ε} :
    Avoids bad (.error error : Except ε α) ↔ ¬ bad error := by
  simp [Avoids]

@[simp] theorem avoids_bind {bad : ε → Prop} {x : Except ε α} {f : α → Except ε β} :
    Avoids bad (x >>= f) ↔ Avoids bad x ∧ ∀ a, x = .ok a → Avoids bad (f a) := by
  constructor
  · intro avoids
    exact ⟨fun e failed => avoids e (bind_error.mpr (Or.inl failed)),
      fun a ran e failed => avoids e (bind_error.mpr (Or.inr ⟨a, ran, failed⟩))⟩
  · rintro ⟨first, second⟩ e failed
    rcases bind_error.mp failed with failed | ⟨a, ran, failed⟩
    · exact first e failed
    · exact second a ran e failed

@[simp] theorem avoids_map {bad : ε → Prop} {x : Except ε α} {f : α → β} :
    Avoids bad (f <$> x) ↔ Avoids bad x := by
  cases x <;> simp [Functor.map, Except.map]

@[simp] theorem avoids_require {bad : ε → Prop} {condition : Prop} [Decidable condition]
    {error : ε} : Avoids bad (require condition error) ↔ (bad error → condition) := by
  unfold require
  split <;> simp_all

@[simp] theorem avoids_okOr {bad : ε → Prop} {value : Option α} {error : ε} :
    Avoids bad (okOr value error) ↔ (bad error → ∃ a, value = some a) := by
  cases value <;> simp [okOr]

theorem avoids_foldlM {bad : ε → Prop} {f : β → α → Except ε β} {as : List α} {b : β}
    (each : ∀ b a, a ∈ as → Avoids bad (f b a)) : Avoids bad (as.foldlM f b) := by
  induction as generalizing b with
  | nil => simp
  | cons head tail ih =>
      rw [List.foldlM_cons, avoids_bind]
      exact ⟨each b head List.mem_cons_self, fun _ _ =>
        ih fun b a member => each b a (List.mem_cons_of_mem _ member)⟩

end Outcome
