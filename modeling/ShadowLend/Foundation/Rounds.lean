import ShadowLend.Foundation.Outcome

/-! Rounds: one fallible step for each of some items, one after the other. A round gets to
its end where each item is ready when its turn comes, and an item settled stays so. -/

namespace Outcome

variable {σ α ε : Type}

/-- What the step for an item needs, what it settles, and that the items apart from it
keep both. -/
structure Round (step : σ → α → Except ε σ) (Apart : α → α → Prop) (Inv : σ → Prop)
    (Ready Done : σ → α → Prop) : Prop where
  symm : ∀ {a b}, Apart a b → Apart b a
  goes : ∀ {s a}, Inv s → Ready s a → ∃ s', step s a = .ok s'
  inv : ∀ {s a s'}, Inv s → Ready s a → step s a = .ok s' → Inv s'
  settles : ∀ {s a s'}, Inv s → Ready s a → step s a = .ok s' → Done s' a
  spares : ∀ {s a s'}, Inv s → Ready s a → step s a = .ok s' → ∀ {b}, Apart a b →
    (Ready s b → Ready s' b) ∧ (Done s b → Done s' b)

theorem Round.runs {step : σ → α → Except ε σ} {Apart : α → α → Prop} {Inv : σ → Prop}
    {Ready Done : σ → α → Prop} (round : Round step Apart Inv Ready Done) {items : List α}
    (apart : items.Pairwise Apart) {s : σ} (start : Inv s) (ready : ∀ a ∈ items, Ready s a) :
    ∃ s', items.foldlM step s = .ok s' ∧ Inv s' ∧ (∀ a ∈ items, Done s' a) ∧
      ∀ b, (∀ a ∈ items, Apart a b) → Done s b → Done s' b := by
  induction items generalizing s with
  | nil => exact ⟨s, rfl, start, fun _ => nofun, fun _ _ => id⟩
  | cons first rest ih =>
      rw [List.pairwise_cons] at apart
      rw [List.forall_mem_cons] at ready
      obtain ⟨next, went⟩ := round.goes start ready.1
      have spared {b : α} (other : Apart first b) := round.spares start ready.1 went other
      obtain ⟨last, ran, inv, done, kept⟩ := ih apart.2 (round.inv start ready.1 went)
        fun a member => (spared (apart.1 a member)).1 (ready.2 a member)
      refine ⟨last, ?_, inv, ?_, ?_⟩
      · rw [List.foldlM_cons, bind_ok]
        exact ⟨next, went, ran⟩
      · rw [List.forall_mem_cons]
        exact ⟨kept first (fun a member => round.symm (apart.1 a member))
          (round.settles start ready.1 went), done⟩
      · intro b other
        rw [List.forall_mem_cons] at other
        exact fun held => kept b other.2 ((spared other.1).2 held)

end Outcome
