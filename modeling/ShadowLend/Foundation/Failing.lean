import ShadowLend.Foundation.Outcome

/-! The errors fallible code can end in, as a list. One rule for each way such code is
put together; a check known to hold adds nothing to the list. -/

namespace Outcome

variable {ε α β : Type} {errors more : List ε} {reported : ε}

/-- Whatever `x` fails with is on the list. -/
def FailsOnly (errors : List ε) (x : Except ε α) : Prop := ∀ e, x = .error e → e ∈ errors

namespace FailsOnly

theorem mono {x : Except ε α} (fails : FailsOnly errors x) (included : errors ⊆ more) :
    FailsOnly more x :=
  fun e failed => included (fails e failed)

theorem ok {x : Except ε α} (a : α) (ran : x = .ok a) : FailsOnly errors x := by
  intro e failed
  rw [ran] at failed
  cases failed

theorem pure (a : α) : FailsOnly errors (Pure.pure a : Except ε α) := ok a rfl

theorem error (listed : reported ∈ errors) :
    FailsOnly errors (.error reported : Except ε α) := by
  rintro _ ⟨⟩
  exact listed

theorem bind {x : Except ε α} {f : α → Except ε β} (first : FailsOnly errors x)
    (next : ∀ a, x = .ok a → FailsOnly errors (f a)) : FailsOnly errors (x >>= f) := by
  intro e failed
  rcases bind_error.mp failed with failed | ⟨a, ran, failed⟩
  · exact first e failed
  · exact next a ran e failed

/-- A check that may fail reports a listed error. -/
theorem checked {condition : Prop} [Decidable condition] (listed : reported ∈ errors) :
    FailsOnly errors (require condition reported) := by
  unfold require
  split
  · exact ok () rfl
  · exact error listed

theorem holds {condition : Prop} [Decidable condition] (true_here : condition) :
    FailsOnly errors (require condition reported) :=
  ok () (require_ok.mpr true_here)

theorem looked {value : Option α} (listed : reported ∈ errors) :
    FailsOnly errors (okOr value reported) := by
  cases value with
  | none => exact error listed
  | some a => exact ok a rfl

theorem foldlM {f : β → α → Except ε β} {as : List α} {b : β}
    (each : ∀ b a, a ∈ as → FailsOnly errors (f b a)) : FailsOnly errors (as.foldlM f b) := by
  induction as generalizing b with
  | nil => exact pure b
  | cons head tail ih =>
      rw [List.foldlM_cons]
      exact bind (each b head List.mem_cons_self) fun _ _ =>
        ih fun b a member => each b a (List.mem_cons_of_mem _ member)

/-- A failure the first part cannot end in comes from the second. -/
theorem past {x : Except ε α} {f : α → Except ε β} (first : FailsOnly errors x)
    (fresh : reported ∉ errors) (failed : (x >>= f) = .error reported) :
    ∃ a, x = .ok a ∧ f a = .error reported := by
  rcases bind_error.mp failed with failed | passed
  · exact absurd (first reported failed) fresh
  · exact passed

theorem past_check {condition : Prop} [Decidable condition] {other : ε} {f : Unit → Except ε β}
    (differs : reported ≠ other)
    (failed : (require condition other >>= f) = .error reported) :
    condition ∧ f () = .error reported := by
  obtain ⟨_, passed, failed⟩ := (checked (List.mem_singleton_self other)).past
    (List.mem_singleton.not.mpr differs) failed
  exact ⟨require_ok.mp passed, failed⟩

theorem past_look {value : Option α} {other : ε} {f : α → Except ε β}
    (differs : reported ≠ other)
    (failed : (okOr value other >>= f) = .error reported) :
    ∃ a, okOr value other = .ok a ∧ f a = .error reported :=
  (looked (List.mem_singleton_self other)).past (List.mem_singleton.not.mpr differs) failed

/-- What nothing after a check can report, the check did. -/
theorem refused {condition : Prop} [Decidable condition] {f : Unit → Except ε β}
    (errors : List ε) (fresh : reported ∉ errors)
    (failed : (require condition reported >>= f) = .error reported)
    (next : FailsOnly errors (f ())) : ¬ condition := by
  intro passed
  obtain ⟨_, _, failed⟩ := (holds passed).past List.not_mem_nil failed
  exact fresh (next reported failed)

end FailsOnly

end Outcome
