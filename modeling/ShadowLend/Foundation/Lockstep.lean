import ShadowLend.Foundation.Outcome

/-! One fallible program run on two inputs. In lockstep it ends in the same error on
both, or in results that are related; one rule for each way such a program is put
together. -/

namespace Outcome

variable {ε α α' β β' : Type} {R : α → α' → Prop} {S : β → β' → Prop}

inductive Lockstep (R : α → α' → Prop) : Except ε α → Except ε α' → Prop
  | ok {a : α} {a' : α'} (related : R a a') : Lockstep R (.ok a) (.ok a')
  | error (e : ε) : Lockstep R (.error e) (.error e)

namespace Lockstep

theorem pure {a : α} {a' : α'} (related : R a a') :
    Lockstep R (Pure.pure a : Except ε α) (Pure.pure a') :=
  .ok related

theorem bind {x : Except ε α} {x' : Except ε α'} {f : α → Except ε β} {f' : α' → Except ε β'}
    (first : Lockstep R x x') (next : ∀ a a', R a a' → Lockstep S (f a) (f' a')) :
    Lockstep S (x >>= f) (x' >>= f') := by
  cases first with
  | ok related => exact next _ _ related
  | error e => exact .error e

/-- A step that does not depend on what differs. -/
theorem bind_same {x : Except ε α} {f : α → Except ε β} {f' : α → Except ε β'}
    (next : ∀ a, Lockstep S (f a) (f' a)) : Lockstep S (x >>= f) (x >>= f') := by
  cases x with
  | ok a => exact next a
  | error e => exact .error e

theorem error_iff {x : Except ε α} {x' : Except ε α'} (steps : Lockstep R x x') (e : ε) :
    x = .error e ↔ x' = .error e := by
  cases steps with
  | ok _ => exact ⟨nofun, nofun⟩
  | error _ => exact ⟨congrArg _ ∘ Except.error.inj, congrArg _ ∘ Except.error.inj⟩

end Lockstep

end Outcome
