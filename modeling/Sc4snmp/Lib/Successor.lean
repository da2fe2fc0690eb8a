import Mathlib.Data.List.Lex
import Mathlib.Data.List.Nodup
import Mathlib.Order.Lattice
import Mathlib.Tactic.Common

/-!
# Successors in finite ordered sets

A walk of an ordered key space asks, over and over, for the first key after the
last one it has seen, and stops when the answer leaves the region it is
interested in.  That is correct exactly when the region is *convex*: once the
successor has left it, nothing further on can come back.  This file provides the
successor of a point in a sorted list and the one convexity fact the walks of
tree-shaped key spaces rest on: the words extending a given prefix form an
interval of the lexicographic order.

## Main definitions

* `nextAfter key l x` — the first entry of `l` whose key is above `x`.

## Main results

* `nextAfter_mem`, `nextAfter_lt`, `nextAfter_le` — the successor is an entry,
  is above the point, and is below every other entry above it.
* `nextAfter_eq_none` — there is no successor exactly when nothing is above.
* `isPrefix_of_between` — **prefix regions are convex.**
* `filter_nextAfter` — the successor within a prefix region.
-/

namespace Successor

variable {α β : Type*} [LinearOrder α] {key : β → α} {l : List β} {x : α} {b c : β}

/-- The first entry of `l` whose key is above `x`. -/
def nextAfter (key : β → α) (l : List β) (x : α) : Option β :=
  l.find? fun b => decide (x < key b)

theorem nextAfter_mem (h : nextAfter key l x = some b) : b ∈ l :=
  List.mem_of_find?_eq_some h

theorem nextAfter_lt (h : nextAfter key l x = some b) : x < key b := by
  simpa using List.find?_some h

theorem nextAfter_eq_none : nextAfter key l x = none ↔ ∀ b ∈ l, key b ≤ x := by
  simp [nextAfter]

/-- The successor is the least entry above the point. -/
theorem nextAfter_le (hl : l.Pairwise fun b c => key b < key c)
    (h : nextAfter key l x = some b) (hc : c ∈ l) (hx : x < key c) : key b ≤ key c := by
  induction l with
  | nil => simp at hc
  | cons a l ih =>
    rw [nextAfter, List.find?_cons] at h
    rw [List.pairwise_cons] at hl
    by_cases ha : x < key a
    · simp only [ha, decide_true, Option.some.injEq] at h
      subst h
      rcases List.mem_cons.mp hc with rfl | hc
      · exact le_rfl
      · exact (hl.1 c hc).le
    · simp only [ha, decide_false] at h
      rcases List.mem_cons.mp hc with rfl | hc
      · exact absurd hx ha
      · exact ih hl.2 h hc

/-- A key determines its entry. -/
theorem eq_of_key_eq (hl : l.Pairwise fun b c => key b < key c) (hb : b ∈ l) (hc : c ∈ l)
    (h : key b = key c) : b = c := by
  have hnd : (l.map key).Nodup := List.pairwise_map.mpr (hl.imp ne_of_lt)
  exact List.inj_on_of_nodup_map hnd hb hc h

/-! ### Prefix regions -/

/-- A word is at most each of its extensions. -/
theorem le_of_isPrefix {r a : List α} (h : r <+: a) : r ≤ a := by
  obtain ⟨t, rfl⟩ := h
  induction r with
  | nil => cases t with
    | nil => exact le_rfl
    | cons b t => exact (List.nil_lt_cons b t).le
  | cons c r ih =>
    rcases ih.lt_or_eq with h | h
    · exact (List.cons_lt_cons_iff.mpr (Or.inr ⟨rfl, h⟩)).le
    · rw [List.cons_append, ← h]

/-- **Prefix regions are convex**: a word between two extensions of `r` is one
itself. -/
theorem isPrefix_of_between {r : List α} : ∀ {a b c : List α},
    r <+: a → r <+: c → a ≤ b → b ≤ c → r <+: b := by
  induction r with
  | nil => intro a b c _ _ _ _; exact List.nil_prefix
  | cons x r ih =>
    rintro a b c ⟨s, rfl⟩ ⟨t, rfl⟩ hab hbc
    cases b with
    | nil => exact absurd hab (not_le.mpr (List.nil_lt_cons _ _))
    | cons y b =>
      -- the first letter of `b` is squeezed between the two copies of `x`
      have hxy : ¬ y < x := fun h =>
        absurd hab (not_le.mpr (List.cons_lt_cons_iff.mpr (Or.inl h)))
      have hyx : ¬ x < y := fun h =>
        absurd hbc (not_le.mpr (List.cons_lt_cons_iff.mpr (Or.inl h)))
      obtain rfl : x = y := le_antisymm (not_lt.mp hxy) (not_lt.mp hyx)
      have hab' : r ++ s ≤ b := by
        refine not_lt.mp fun h => absurd hab (not_le.mpr ?_)
        exact List.cons_lt_cons_iff.mpr (Or.inr ⟨rfl, h⟩)
      have hbc' : b ≤ r ++ t := by
        refine not_lt.mp fun h => absurd hbc (not_le.mpr ?_)
        exact List.cons_lt_cons_iff.mpr (Or.inr ⟨rfl, h⟩)
      have hb : r <+: b :=
        ih (List.prefix_append r s) (List.prefix_append r t) hab' hbc'
      exact (List.prefix_cons_inj x).mpr hb

/-- When the successor of a point of a prefix region lies outside the region, no
entry of the region is above the point. -/
theorem le_of_nextAfter_not_isPrefix {key : β → List α} {l : List β} {r x : List α}
    (hl : l.Pairwise fun b c => key b < key c) (hr : r <+: x)
    (h : ∀ b, nextAfter key l x = some b → ¬ r <+: key b) (hc : c ∈ l) (hrc : r <+: key c) :
    key c ≤ x := by
  refine not_lt.mp ?_
  intro hlt
  cases hn : nextAfter key l x with
  | none => exact absurd hlt (not_lt.mpr (nextAfter_eq_none.mp hn c hc))
  | some b =>
    have hbc : key b ≤ key c := nextAfter_le hl hn hc hlt
    exact h b hn (isPrefix_of_between hr hrc (nextAfter_lt hn).le hbc)

/-- Seen from inside a prefix region, the successor, if it is in the region, is
the region's first entry above the point. -/
theorem filter_nextAfter {key : β → List α} {l : List β} {r x : List α}
    (hl : l.Pairwise fun b c => key b < key c) (hr : r <+: x) :
    (nextAfter key l x).filter (fun b => decide (r <+: key b)) =
      l.find? fun b => decide (r <+: key b ∧ x < key b) := by
  induction l with
  | nil => rfl
  | cons a l ih =>
    rw [List.pairwise_cons] at hl
    by_cases hxa : x < key a
    · rw [nextAfter, List.find?_cons_of_pos (by simpa using hxa)]
      by_cases hra : r <+: key a
      · rw [List.find?_cons_of_pos (by simpa using ⟨hra, hxa⟩)]
        simp [Option.filter, hra]
      · -- the region is convex and begins before `a`: it cannot go on after it
        have hnone : (l.find? fun b => decide (r <+: key b ∧ x < key b)) = none := by
          rw [List.find?_eq_none]
          intro b hb
          rw [decide_eq_true_iff]
          rintro ⟨hrb, -⟩
          exact hra (isPrefix_of_between hr hrb hxa.le (hl.1 b hb).le)
        rw [List.find?_cons_of_neg (by simp [hra]), hnone]
        simp [Option.filter, hra]
    · rw [nextAfter, List.find?_cons_of_neg (by simpa using hxa),
        List.find?_cons_of_neg (by simp [hxa])]
      exact ih hl.2

end Successor
