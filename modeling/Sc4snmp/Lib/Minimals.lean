import Mathlib.Data.Set.Lattice
import Mathlib.Order.WellFounded
import Mathlib.Tactic.Common

/-!
# Minimal elements of a union

In a set some elements are made superfluous by others, those below them.  The
elements that nothing of the set is below say the same as the whole set, if every
descent ends.  So the minimal elements of a union do not depend on whether the parts
were reduced before, and sets that are reduced make a semilattice.

## Main definitions

* `minimals r s` — the elements of `s` that no element of `s` is below.
* `joined r ss` — the sets of a list, a lone one as it is, several ones reduced.

## Main results

* `minimals_union_minimals` — **a part may be reduced before the union is**.
* `join_assoc` — the join of sets is associative.
* `joined_perm` — the order of the sets does not matter.
-/

namespace Minimals

variable {α : Type*} {r : α → α → Prop} {s t u : Set α} {a : α}

/-- The elements of a set that no element of the set is below. -/
def minimals (r : α → α → Prop) (s : Set α) : Set α := {a | a ∈ s ∧ ∀ b, r b a → b ∉ s}

theorem minimals_subset : minimals r s ⊆ s := fun _ h => h.1

/-- Below an element of a set there is a minimal one, or it is minimal itself. -/
theorem exists_mem_minimals (hwf : WellFounded r) (htrans : ∀ a b c, r a b → r b c → r a c)
    (ha : a ∈ s) : a ∈ minimals r s ∨ ∃ b ∈ minimals r s, r b a := by
  induction a using hwf.induction with
  | _ a ih =>
    by_cases hmin : ∃ b, r b a ∧ b ∈ s
    · obtain ⟨b, hba, hb⟩ := hmin
      rcases ih b hba hb with hb' | ⟨c, hc, hcb⟩
      · exact Or.inr ⟨b, hb', hba⟩
      · exact Or.inr ⟨c, hc, htrans c b a hcb hba⟩
    · exact Or.inl ⟨ha, fun b hba hb => hmin ⟨b, hba, hb⟩⟩

/-- **A part may be reduced before the union is.** -/
theorem minimals_union_minimals (hwf : WellFounded r)
    (htrans : ∀ a b c, r a b → r b c → r a c) :
    minimals r (minimals r s ∪ t) = minimals r (s ∪ t) := by
  ext a
  constructor
  · rintro ⟨ha, hnone⟩
    refine ⟨ha.imp_left fun h => h.1, fun b hba hb => ?_⟩
    rcases hb with hb | hb
    · -- something minimal of the part is below, too
      rcases exists_mem_minimals hwf htrans hb with hb' | ⟨c, hc, hcb⟩
      · exact hnone b hba (Or.inl hb')
      · exact hnone c (htrans c b a hcb hba) (Or.inl hc)
    · exact hnone b hba (Or.inr hb)
  · rintro ⟨ha, hnone⟩
    refine ⟨ha.imp_left fun h => ⟨h, fun b hba hb => hnone b hba (Or.inl hb)⟩, fun b hba hb => ?_⟩
    exact hnone b hba (hb.imp_left fun h => h.1)

theorem minimals_minimals (hwf : WellFounded r) (htrans : ∀ a b c, r a b → r b c → r a c) :
    minimals r (minimals r s) = minimals r s := by
  have h := minimals_union_minimals (s := s) (t := ∅) hwf htrans
  rwa [Set.union_empty, Set.union_empty] at h

/-- The join of sets is associative. -/
theorem join_assoc (hwf : WellFounded r) (htrans : ∀ a b c, r a b → r b c → r a c) :
    minimals r (minimals r (s ∪ t) ∪ u) = minimals r (s ∪ minimals r (t ∪ u)) := by
  rw [minimals_union_minimals hwf htrans, Set.union_comm s (minimals r (t ∪ u)),
    minimals_union_minimals hwf htrans, Set.union_comm (t ∪ u) s, Set.union_assoc]

/-- The sets of a list: a lone one as it is, several ones reduced. -/
def joined (r : α → α → Prop) : List (Set α) → Set α
  | [] => ∅
  | [s] => s
  | s :: t :: ss => minimals r {a | ∃ u ∈ s :: t :: ss, a ∈ u}

/-- One set more. -/
theorem joined_append (hwf : WellFounded r) (htrans : ∀ a b c, r a b → r b c → r a c)
    {ss : List (Set α)} (hss : ss ≠ []) (s : Set α) :
    joined r (ss ++ [s]) = minimals r (joined r ss ∪ s) := by
  have hunion : ∀ l : List (Set α),
      {a | ∃ u ∈ l ++ [s], a ∈ u} = {a | ∃ u ∈ l, a ∈ u} ∪ s := by
    intro l
    ext a
    simp [or_and_right, exists_or]
  match ss with
  | [] => exact absurd rfl hss
  | [t] =>
    have htwo : {a | ∃ u ∈ [t, s], a ∈ u} = t ∪ s := by
      ext a
      simp
    show minimals r {a | ∃ u ∈ [t, s], a ∈ u} = minimals r (t ∪ s)
    rw [htwo]
  | t :: u :: ss =>
    rw [List.cons_append, List.cons_append, joined, joined, minimals_union_minimals hwf htrans,
      ← List.cons_append, ← List.cons_append, hunion]

/-- The order of the sets does not matter. -/
theorem joined_perm {ss ts : List (Set α)} (h : ss.Perm ts) : joined r ss = joined r ts := by
  match ss, ts, h with
  | [], ts, h => rw [List.nil_perm.mp h]
  | [s], ts, h => rw [List.singleton_perm.mp h]
  | s :: t :: ss, [], h => exact absurd h.length_eq (by simp)
  | s :: t :: ss, [u], h => exact absurd h.length_eq (by simp)
  | s :: t :: ss, u :: v :: ts, h =>
    have hsame : {a | ∃ w ∈ s :: t :: ss, a ∈ w} = {a | ∃ w ∈ u :: v :: ts, a ∈ w} := by
      ext a
      exact exists_congr fun w => and_congr_left fun _ => h.mem_iff
    rw [joined, joined, hsame]

end Minimals
