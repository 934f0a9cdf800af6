import Mathlib.Algebra.BigOperators.Group.Finset.Basic
import Mathlib.Algebra.Order.BigOperators.Group.Finset

/-! Comparing a sum over a caller-chosen list with the sum over a whole set.
A list which reaches every nonzero term bounds the set sum from above, and a
list which never repeats a nonzero term bounds it from below. -/

namespace Coverage

variable {κ α ι M : Type} [DecidableEq κ]
variable [AddCommMonoid M] [PartialOrder M] [CanonicallyOrderedAdd M] [IsOrderedAddMonoid M]

/-- Every nonzero term of the set is matched by some list entry, and no entry
matching a term undervalues it. Repeats and strangers only add to the list. -/
theorem sum_le_of_covered (name : κ → α) (label : ι → α) (injective : Function.Injective name)
    {f : κ → M} {g : ι → M} (entries : List ι) (keys : Finset κ)
    (covered : ∀ k ∈ keys, f k ≠ 0 → ∃ e ∈ entries, label e = name k)
    (valued : ∀ e ∈ entries, ∀ k ∈ keys, label e = name k → f k ≤ g e) :
    ∑ k ∈ keys, f k ≤ (entries.map g).sum := by
  induction entries generalizing keys with
  | nil =>
      have vanish : ∑ k ∈ keys, f k = 0 := by
        apply Finset.sum_eq_zero
        intro k member
        by_contra nonzero
        rcases covered k member nonzero with ⟨e, absurdity, _⟩
        cases absurdity
      simp [vanish]
  | cons head tail ih =>
      simp only [List.map_cons, List.sum_cons]
      by_cases hit : ∃ k ∈ keys, label head = name k
      · rcases hit with ⟨k, member, same⟩
        rw [← Finset.add_sum_erase keys f member]
        apply add_le_add (valued head (by simp) k member same)
        apply ih
        · intro j inside nonzero
          rcases Finset.mem_erase.mp inside with ⟨distinct, inside⟩
          rcases covered j inside nonzero with ⟨e, listed, matched⟩
          rcases List.mem_cons.mp listed with rfl | listed
          · exact absurd (injective (matched.symm.trans same)) distinct
          · exact ⟨e, listed, matched⟩
        · intro e listed j inside matched
          exact valued e (List.mem_cons_of_mem _ listed) j (Finset.mem_of_mem_erase inside) matched
      · have rest := ih keys
          (by
            intro k member nonzero
            rcases covered k member nonzero with ⟨e, listed, matched⟩
            rcases List.mem_cons.mp listed with rfl | listed
            · exact absurd ⟨k, member, matched⟩ hit
            · exact ⟨e, listed, matched⟩)
          (by
            intro e listed k member matched
            exact valued e (List.mem_cons_of_mem _ listed) k member matched)
        exact rest.trans le_add_self

/-- Every nonzero entry stands for a term worth at least as much, and no two
nonzero entries stand for the same term. -/
theorem sum_le_of_distinct (name : κ → α) (label : ι → α) {f : κ → M} {g : ι → M}
    (entries : List ι) (keys : Finset κ)
    (matched : ∀ e ∈ entries, g e ≠ 0 → ∃ k ∈ keys, label e = name k ∧ g e ≤ f k)
    (distinct : entries.Pairwise fun e e' => g e ≠ 0 → g e' ≠ 0 → label e ≠ label e') :
    (entries.map g).sum ≤ ∑ k ∈ keys, f k := by
  induction entries generalizing keys with
  | nil => simp
  | cons head tail ih =>
      rcases List.pairwise_cons.mp distinct with ⟨apart, distinct⟩
      simp only [List.map_cons, List.sum_cons]
      by_cases nothing : g head = 0
      · rw [nothing, zero_add]
        exact ih keys (fun e listed => matched e (List.mem_cons_of_mem _ listed)) distinct
      · rcases matched head (by simp) nothing with ⟨k, member, same, bound⟩
        rw [← Finset.add_sum_erase keys f member]
        apply add_le_add bound
        apply ih
        · intro e listed nonzero
          obtain ⟨j, inside, stands, worth⟩ :=
            matched e (List.mem_cons_of_mem _ listed) nonzero
          refine ⟨j, Finset.mem_erase.mpr ⟨?_, inside⟩, stands, worth⟩
          rintro rfl
          exact apart e listed nothing nonzero (same.trans stands.symm)
        · exact distinct

end Coverage
