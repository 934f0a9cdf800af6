import Mathlib.Data.Finmap
import Mathlib.Algebra.BigOperators.Group.Finset.Basic
import Mathlib.Algebra.Order.BigOperators.Group.Finset

/-! Sums over the entries of a finite map. A write at one key moves the sum by
the difference of the two entries at that key and by nothing else, which is all
an accounting proof needs to know about a table of unbounded size. -/

abbrev Table (κ ν : Type) := Finmap fun _ : κ => ν

namespace Table

variable {κ ν M : Type} [DecidableEq κ]

theorem lookup_unique {t : Table κ ν} {k : κ} {v w : ν} (first : t.lookup k = some v)
    (second : t.lookup k = some w) : v = w :=
  Option.some.inj (first.symm.trans second)

theorem lookup_insert_congr {t t' : Table κ ν} {k : κ} (same : t.lookup k = t'.lookup k)
    (written : κ) (v : ν) : (t.insert written v).lookup k = (t'.insert written v).lookup k := by
  by_cases here : k = written
  · subst here
    rw [Finmap.lookup_insert, Finmap.lookup_insert]
  · rw [Finmap.lookup_insert_of_ne _ here, Finmap.lookup_insert_of_ne _ here, same]

/-- A law about one optional entry can be checked on it. -/
instance decidableForallSome {α : Type} {P : α → Prop} [DecidablePred P] (o : Option α) :
    Decidable (∀ a, o = some a → P a) :=
  match o with
  | none => .isTrue nofun
  | some a => decidable_of_iff (P a) ⟨fun holds _ same => Option.some.inj same ▸ holds,
      fun all => all a rfl⟩

/-- A law about every entry can be checked on the keys. -/
instance decidableForallLookup {P : κ → ν → Prop} [∀ k v, Decidable (P k v)] (t : Table κ ν) :
    Decidable (∀ k v, t.lookup k = some v → P k v) :=
  decidable_of_iff (∀ k ∈ t.keys, ∀ v, t.lookup k = some v → P k v)
    ⟨fun all k v found => all k
        (Finmap.mem_keys.mpr (Finmap.lookup_isSome.mp (by rw [found]; rfl))) v found,
      fun all k _ v found => all k v found⟩

section Sums

variable [AddCommMonoid M]

def share (t : Table κ ν) (f : κ → ν → M) (k : κ) : M := (t.lookup k).elim 0 (f k)

def total (t : Table κ ν) (f : κ → ν → M) : M := ∑ k ∈ t.keys, t.share f k

theorem share_of_lookup {t : Table κ ν} {f : κ → ν → M} {k : κ} {v : ν}
    (found : t.lookup k = some v) : t.share f k = f k v := by
  simp [share, found]

theorem share_of_absent {t : Table κ ν} {f : κ → ν → M} {k : κ}
    (absent : t.lookup k = none) : t.share f k = 0 := by
  simp [share, absent]

theorem share_insert_self (t : Table κ ν) (f : κ → ν → M) (k : κ) (v : ν) :
    share (t.insert k v) f k = f k v := by
  simp [share, Finmap.lookup_insert]

theorem share_insert_other (t : Table κ ν) (f : κ → ν → M) {k other : κ} (v : ν)
    (distinct : other ≠ k) : share (t.insert k v) f other = t.share f other := by
  simp [share, Finmap.lookup_insert_of_ne _ distinct]

@[simp] theorem total_empty (f : κ → ν → M) : total (∅ : Table κ ν) f = 0 := by
  simp [total]

/-- A sum over the keys may be taken over any larger set of keys. -/
theorem total_eq_sum_of_subset (t : Table κ ν) (f : κ → ν → M) {keys : Finset κ}
    (included : t.keys ⊆ keys) : t.total f = ∑ k ∈ keys, t.share f k := by
  apply Finset.sum_subset included
  intro k _ outside
  apply share_of_absent
  exact Finmap.lookup_eq_none.mpr fun member => outside (Finmap.mem_keys.mpr member)

theorem total_congr {t : Table κ ν} {f g : κ → ν → M}
    (same : ∀ k v, t.lookup k = some v → f k v = g k v) : t.total f = t.total g := by
  apply Finset.sum_congr rfl
  intro k _
  cases found : t.lookup k with
  | none => rw [share_of_absent found, share_of_absent found]
  | some v => rw [share_of_lookup found, share_of_lookup found, same k v found]

theorem total_eq_share_add (t : Table κ ν) (f : κ → ν → M) (k : κ) :
    t.total f = t.share f k + ∑ j ∈ t.keys.erase k, t.share f j := by
  rw [total_eq_sum_of_subset t f (Finset.subset_insert k t.keys),
    ← Finset.insert_erase (Finset.mem_insert_self k t.keys),
    Finset.sum_insert (Finset.notMem_erase _ _)]
  congr 2
  rw [Finset.erase_insert_eq_erase]

/-- A sum is one share and the sum that leaves its key out. -/
theorem total_except (t : Table κ ν) (f : κ → ν → M) (k : κ) :
    t.total f = t.share f k + t.total fun j v => if j = k then 0 else f j v := by
  have gone : t.share (fun j v => if j = k then 0 else f j v) k = 0 := by
    cases found : t.lookup k with
    | none => exact share_of_absent found
    | some v => rw [share_of_lookup found, if_pos rfl]
  have rest : ∀ j ∈ t.keys.erase k,
      t.share f j = t.share (fun j v => if j = k then 0 else f j v) j := by
    intro j member
    simp only [share, if_neg (Finset.ne_of_mem_erase member)]
  rw [total_eq_share_add t f k, total_eq_share_add t (fun j v => if j = k then 0 else f j v) k,
    gone, zero_add, Finset.sum_congr rfl rest]

/-- The accounting law of a write. -/
theorem total_insert (t : Table κ ν) (f : κ → ν → M) (k : κ) (v : ν) :
    total (t.insert k v) f + t.share f k = t.total f + f k v := by
  have keys : (Finmap.keys (t.insert k v)).erase k = t.keys.erase k := by
    ext j
    simp only [Finset.mem_erase, Finmap.mem_keys, Finmap.mem_insert]
    constructor
    · rintro ⟨distinct, same | member⟩
      · exact absurd same distinct
      · exact ⟨distinct, member⟩
    · rintro ⟨distinct, member⟩
      exact ⟨distinct, Or.inr member⟩
  have others : ∑ j ∈ t.keys.erase k, share (t.insert k v) f j =
      ∑ j ∈ t.keys.erase k, t.share f j := by
    apply Finset.sum_congr rfl
    intro j member
    exact share_insert_other t f v (Finset.ne_of_mem_erase member)
  rw [total_eq_share_add (t.insert k v) f k, share_insert_self, keys, others,
    total_eq_share_add t f k]
  ac_rfl

/-- A write of an entry worth what the old one was worth leaves the sum alone. -/
theorem total_insert_same (t : Table κ ν) (f : κ → ν → M) (k : κ) (v : ν)
    [IsRightCancelAdd M] (same : f k v = t.share f k) : total (t.insert k v) f = t.total f := by
  have law := total_insert t f k v
  rw [same] at law
  exact add_right_cancel law

theorem total_map {N : Type} [AddCommMonoid N] (t : Table κ ν) (φ : M →+ N) (f : κ → ν → M) :
    t.total (fun k v => φ (f k v)) = φ (t.total f) := by
  rw [total, total, map_sum]
  apply Finset.sum_congr rfl
  intro k _
  unfold share
  cases t.lookup k with
  | none => exact (map_zero φ).symm
  | some v => rfl

theorem total_add (t : Table κ ν) (f g : κ → ν → M) :
    t.total (fun k v => f k v + g k v) = t.total f + t.total g := by
  rw [total, total, total, ← Finset.sum_add_distrib]
  apply Finset.sum_congr rfl
  intro k _
  unfold share
  cases t.lookup k with
  | none => exact (add_zero 0).symm
  | some v => rfl

theorem total_zero (t : Table κ ν) : t.total (fun _ _ => (0 : M)) = 0 := by
  apply Finset.sum_eq_zero
  intro k _
  unfold share
  cases t.lookup k <;> rfl

/-- A sum split by a label that no two groups have in common. -/
theorem total_groups {γ α : Type} [DecidableEq α] (t : Table κ ν) (kind : κ → α) (label : γ → α)
    (f : γ → κ → ν → M) {groups : List γ} (distinct : (groups.map label).Nodup) :
    (groups.map fun g => t.total fun k v => if kind k = label g then f g k v else 0).sum =
      t.total fun k v => (groups.find? fun g => kind k = label g).elim 0 fun g => f g k v := by
  induction groups with
  | nil => exact (total_zero t).symm
  | cons g rest ih =>
      obtain ⟨apart, distinct⟩ := List.nodup_cons.mp distinct
      rw [List.map_cons, List.sum_cons, ih distinct, ← total_add]
      apply total_congr
      intro k v _
      by_cases here : kind k = label g
      · have others : rest.find? (fun g => kind k = label g) = none := by
          rw [List.find?_eq_none]
          intro other member same
          exact apart (List.mem_map.mpr ⟨other, member, (of_decide_eq_true same).symm.trans here⟩)
        rw [if_pos here, others, List.find?_cons, decide_eq_true here]
        exact add_zero _
      · rw [if_neg here, List.find?_cons, decide_eq_false here, zero_add]

end Sums

section Order

variable [AddCommMonoid M] [PartialOrder M] [CanonicallyOrderedAdd M]

theorem share_le_total (t : Table κ ν) (f : κ → ν → M) (k : κ) : t.share f k ≤ t.total f := by
  rw [total_eq_share_add t f k]
  exact le_self_add

theorem share_add_share_le_total [IsOrderedAddMonoid M] (t : Table κ ν) (f : κ → ν → M)
    {k other : κ} (distinct : k ≠ other) : t.share f k + t.share f other ≤ t.total f := by
  have included : t.keys ⊆ insert k (insert other t.keys) :=
    (Finset.subset_insert _ _).trans (Finset.subset_insert _ _)
  rw [total_eq_sum_of_subset t f included]
  apply Finset.add_le_sum (fun _ _ => zero_le)
  · exact Finset.mem_insert_self _ _
  · exact Finset.mem_insert_of_mem (Finset.mem_insert_self _ _)
  · exact distinct

theorem total_eq_zero_iff [IsOrderedAddMonoid M] (t : Table κ ν) (f : κ → ν → M) :
    t.total f = 0 ↔ ∀ k v, t.lookup k = some v → f k v = 0 := by
  rw [total, Finset.sum_eq_zero_iff]
  constructor
  · intro none k v found
    have member : k ∈ t.keys :=
      Finmap.mem_keys.mpr (Finmap.lookup_isSome.mp (by rw [found]; rfl))
    rw [← share_of_lookup (f := f) found]
    exact none k member
  · intro none k _
    cases found : t.lookup k with
    | none => exact share_of_absent found
    | some v => rw [share_of_lookup found, none k v found]

end Order

section Comparison

variable [AddCommMonoid M] [PartialOrder M] [IsOrderedAddMonoid M]

theorem total_le_total {t t' : Table κ ν} {f g : κ → ν → M}
    (below : ∀ k, t.share f k ≤ t'.share g k) : t.total f ≤ t'.total g := by
  rw [total_eq_sum_of_subset t f Finset.subset_union_left,
    total_eq_sum_of_subset t' g Finset.subset_union_right]
  exact Finset.sum_le_sum fun k _ => below k

end Comparison

end Table
