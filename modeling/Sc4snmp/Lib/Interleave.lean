import Mathlib.Data.List.Basic
import Mathlib.Order.Lattice
import Mathlib.Tactic.Common

/-!
# Ragged columns, read row by row

Several sources of different lengths are drained in parallel, one element of
each per round.  What comes out is the row-major interleaving of their contents:
row `k` holds the `k`-th element of every source that has one, in the order of
the sources.  A consumer that drains a few rounds at a time and then looks at
what is left sees the same sequence, in portions: rows `m + n` are rows `m`
followed by `n` rows of the shortened columns.

## Main definitions

* `row cols k`, `rows cols n` — one row, and the first `n` of them.
* `interleave cols` — all of them.

## Main results

* `rows_add` — a later row of the columns is a row of the shortened columns.
* `interleave_eq_rows_append` — **draining in portions.**
-/

namespace Interleave

variable {α : Type*}

/-- Row `k` of the columns: the `k`-th element of each column that has one. -/
def row (cols : List (List α)) (k : ℕ) : List α := cols.filterMap fun col => col[k]?

/-- The first `n` rows. -/
def rows (cols : List (List α)) (n : ℕ) : List α := (List.range n).flatMap (row cols)

/-- The length of the longest column. -/
def height (cols : List (List α)) : ℕ := (cols.map List.length).foldr max 0

/-- The columns, row by row. -/
def interleave (cols : List (List α)) : List α := rows cols (height cols)

example : interleave [[1, 2, 3], [], [10], [20, 30]] = [1, 10, 20, 2, 30, 3] := by decide

@[simp] theorem rows_zero (cols : List (List α)) : rows cols 0 = [] := rfl

theorem rows_succ (cols : List (List α)) (n : ℕ) :
    rows cols (n + 1) = rows cols n ++ row cols n := by
  simp [rows, List.range_succ]

/-- The first row holds the heads of the columns. -/
theorem row_zero (cols : List (List α)) : row cols 0 = cols.filterMap List.head? := by
  simp only [row, List.head?_eq_getElem?]

theorem row_map_drop (cols : List (List α)) (m k : ℕ) :
    row (cols.map (List.drop m)) k = row cols (m + k) := by
  simp [row, List.filterMap_map]

theorem rows_add (cols : List (List α)) (m n : ℕ) :
    rows cols (m + n) = rows cols m ++ rows (cols.map (List.drop m)) n := by
  induction n with
  | zero => simp
  | succ n ih =>
    rw [← Nat.add_assoc, rows_succ, ih, rows_succ, row_map_drop, List.append_assoc]

/-- A row is empty when every column ends before it. -/
theorem row_eq_nil {cols : List (List α)} {k : ℕ} : row cols k = [] ↔ ∀ c ∈ cols, c.length ≤ k := by
  simp [row, List.filterMap_eq_nil_iff]

theorem length_le_height {cols : List (List α)} {c : List α} (h : c ∈ cols) :
    c.length ≤ height cols := by
  induction cols with
  | nil => exact absurd h List.not_mem_nil
  | cons d cols ih =>
    have hcons : height (d :: cols) = max d.length (height cols) := rfl
    rw [hcons]
    rcases List.mem_cons.mp h with rfl | h
    · exact le_max_left _ _
    · exact (ih h).trans (le_max_right _ _)

/-- Rows past the end of every column add nothing. -/
theorem interleave_eq_rows {cols : List (List α)} {n : ℕ} (h : height cols ≤ n) :
    interleave cols = rows cols n := by
  obtain ⟨d, rfl⟩ := Nat.exists_eq_add_of_le h
  have hrest : rows (cols.map (List.drop (height cols))) d = [] := by
    rw [rows, List.flatMap_eq_nil_iff]
    intro k _
    rw [row_map_drop, row_eq_nil]
    intro c hc
    have := length_le_height hc
    omega
  rw [rows_add, hrest, List.append_nil, interleave]

/-- **Draining in portions**: the interleaving is its first `n` rows, and the
interleaving of what they leave. -/
theorem interleave_eq_rows_append (cols : List (List α)) (n : ℕ) :
    interleave cols = rows cols n ++ interleave (cols.map (List.drop n)) := by
  set k := max (height cols) (height (cols.map (List.drop n))) with hk
  have hall : height cols ≤ n + k := by omega
  have hleft : height (cols.map (List.drop n)) ≤ k := le_max_right _ _
  rw [interleave_eq_rows hall, rows_add, interleave_eq_rows hleft]

/-- Columns with nothing in them. -/
theorem interleave_eq_nil {cols : List (List α)} (h : ∀ c ∈ cols, c = []) :
    interleave cols = [] := by
  rw [interleave, rows, List.flatMap_eq_nil_iff]
  intro k _
  rw [row_eq_nil]
  intro c hc
  simp [h c hc]

/-- Rows bring nothing only when no column has anything left. -/
theorem eq_nil_of_rows_eq_nil {cols : List (List α)} {n : ℕ} (hn : 0 < n) (h : rows cols n = []) :
    ∀ c ∈ cols, c = [] := by
  rw [rows, List.flatMap_eq_nil_iff] at h
  have hrow : row cols 0 = [] := h 0 (List.mem_range.mpr hn)
  intro c hc
  exact List.length_eq_zero_iff.mp (Nat.le_zero.mp (row_eq_nil.mp hrow c hc))

end Interleave
