import Mathlib.Data.List.Nodup
import Mathlib.Tactic.Common

/-!
# Rows with keys

A list of rows, each of which has a key, and two ways to put the rows of a key into it: they take
the place of those that are there, or those of them that are new go behind.  A row that is
there already, or comes twice, is written once.

## Main definitions

* `KeyedRows.ofKey`, `KeyedRows.ofOtherKeys` — the rows of a key, and the others.
* `KeyedRows.appendNew` — appends the rows that have not been seen, one after the other.
* `KeyedRows.replaceKey`, `KeyedRows.extend` — the two ways.

## Main results

* `appendNew_eq` — what is appended: the first occurrences of what has not been seen.
* `nodup_replaceKey`, `nodup_extend` — **no row is there twice**.
* `ofOtherKeys_replaceKey`, `ofKey_replaceKey`, `ofOtherKeys_extend`, `ofKey_extend` — **the rows
  of the key, and those of other keys**.
-/

namespace KeyedRows

variable {α κ : Type*}

/-! ### The rows of a key -/

section Keys

variable [DecidableEq κ] (key : α → κ) (k : κ)

/-- The rows of a key. -/
def ofKey (rows : List α) : List α := rows.filter fun a => key a = k

/-- The rows of the other keys. -/
def ofOtherKeys (rows : List α) : List α := rows.filter fun a => key a ≠ k

variable {key k} {new : List α}

theorem ofKey_append (rows new : List α) :
    ofKey key k (rows ++ new) = ofKey key k rows ++ ofKey key k new := List.filter_append ..

theorem ofOtherKeys_append (rows new : List α) :
    ofOtherKeys key k (rows ++ new) = ofOtherKeys key k rows ++ ofOtherKeys key k new :=
  List.filter_append ..

theorem ofKey_of_forall (h : ∀ a ∈ new, key a = k) : ofKey key k new = new :=
  List.filter_eq_self.mpr fun a ha => decide_eq_true (h a ha)

theorem ofOtherKeys_of_forall (h : ∀ a ∈ new, key a = k) : ofOtherKeys key k new = [] :=
  List.filter_eq_nil_iff.mpr fun a ha => by simp [h a ha]

theorem ofKey_ofOtherKeys (rows : List α) : ofKey key k (ofOtherKeys key k rows) = [] := by
  refine List.filter_eq_nil_iff.mpr fun a ha => ?_
  simpa using (List.mem_filter.mp ha).2

theorem ofOtherKeys_ofOtherKeys (rows : List α) :
    ofOtherKeys key k (ofOtherKeys key k rows) = ofOtherKeys key k rows :=
  List.filter_eq_self.mpr fun _ ha => (List.mem_filter.mp ha).2

end Keys

/-! ### New rows -/

variable [DecidableEq α] {seen rows new : List α}

/-- Appends the rows that have not been seen.  A row that is appended has been seen. -/
def appendNew (seen rows : List α) : List α → List α
  | [] => rows
  | a :: as => if a ∈ seen then appendNew seen rows as else appendNew (a :: seen) (rows ++ [a]) as

/-- What is appended: the first occurrences of what has not been seen. -/
theorem appendNew_eq (seen rows new : List α) :
    appendNew seen rows new = rows ++ (new.filter (· ∉ seen)).eraseDups := by
  induction new generalizing seen rows with
  | nil => exact (List.append_nil rows).symm
  | cons a as ih =>
    rw [appendNew]
    by_cases ha : a ∈ seen
    · rw [if_pos ha, ih, List.filter_cons_of_neg (by simpa using ha)]
    · have hfilter : as.filter (· ∉ a :: seen) =
          (as.filter (· ∉ seen)).filter fun b => !b == a := by
        rw [List.filter_filter]
        refine List.filter_congr fun b _ => ?_
        rw [Bool.eq_iff_iff]
        simp [not_or]
      rw [if_neg ha, ih, List.filter_cons_of_pos (by simpa using ha), List.eraseDups_cons,
        List.append_assoc, List.singleton_append, hfilter]

/-- Rows that have all been seen, and appended rows: none is there twice. -/
theorem nodup_appendNew (hseen : ∀ a ∈ rows, a ∈ seen ∨ a ∉ new) (hrows : rows.Nodup) :
    (appendNew seen rows new).Nodup := by
  induction new generalizing seen rows with
  | nil => exact hrows
  | cons a as ih =>
    rw [appendNew]
    split
    · refine ih (fun b hb => (hseen b hb).imp_right fun hnew hmem => ?_) hrows
      exact hnew (List.mem_cons_of_mem a hmem)
    · next ha =>
      have hnew : a ∉ rows := fun hmem =>
        (hseen a hmem).elim ha fun hnot => hnot List.mem_cons_self
      refine ih (fun b hb => ?_) (List.nodup_append.mpr ⟨hrows, List.nodup_singleton a, ?_⟩)
      · rcases List.mem_append.mp hb with hb | hb
        · refine (hseen b hb).imp (List.mem_cons_of_mem a) fun hnot hmem => ?_
          exact hnot (List.mem_cons_of_mem a hmem)
        · exact Or.inl (List.mem_singleton.mp hb ▸ List.mem_cons_self)
      · intro b hb c hc hbc
        rw [List.mem_singleton.mp hc] at hbc
        exact hnew (hbc ▸ hb)

theorem forall_mem_eraseDups_filter {p : α → Prop} (h : ∀ a ∈ new, p a) (q : α → Bool) :
    ∀ a ∈ (new.filter q).eraseDups, p a := fun a ha =>
  h a (List.mem_filter.mp (List.mem_eraseDups.mp ha)).1

theorem mem_or_mem_of_appendNew {a : α} (h : a ∈ appendNew seen rows new) :
    a ∈ rows ∨ a ∈ new := by
  rw [appendNew_eq, List.mem_append, List.mem_eraseDups] at h
  exact h.imp_right fun ha => (List.mem_filter.mp ha).1

/-- The new ones of some rows go behind those that are there. -/
def extend (rows new : List α) : List α := appendNew rows rows new

theorem nodup_extend (hrows : rows.Nodup) (new : List α) : (extend rows new).Nodup :=
  nodup_appendNew (fun _ ha => Or.inl ha) hrows

variable [DecidableEq κ] {key : α → κ} {k : κ}

theorem ofOtherKeys_extend (h : ∀ a ∈ new, key a = k) (rows : List α) :
    ofOtherKeys key k (extend rows new) = ofOtherKeys key k rows := by
  rw [extend, appendNew_eq, ofOtherKeys_append,
    ofOtherKeys_of_forall (forall_mem_eraseDups_filter h _), List.append_nil]

/-- Of the new rows those are new that the rows of the key do not have. -/
theorem ofKey_extend (h : ∀ a ∈ new, key a = k) (rows : List α) :
    ofKey key k (extend rows new) =
      ofKey key k rows ++ (new.filter (· ∉ ofKey key k rows)).eraseDups := by
  have hnew : new.filter (· ∉ rows) = new.filter (· ∉ ofKey key k rows) := by
    refine List.filter_congr fun a ha => decide_eq_decide.mpr (not_congr ?_)
    rw [ofKey, List.mem_filter, decide_eq_true_eq]
    exact (and_iff_left (h a ha)).symm
  rw [extend, appendNew_eq, ofKey_append, ofKey_of_forall (forall_mem_eraseDups_filter h _), hnew]

/-- The rows of a key take the place of those that are there. -/
def replaceKey (key : α → κ) (k : κ) (rows new : List α) : List α :=
  appendNew [] (ofOtherKeys key k rows) new

theorem nodup_replaceKey (h : ∀ a ∈ new, key a = k) (hrows : rows.Nodup) :
    (replaceKey key k rows new).Nodup := by
  refine nodup_appendNew (fun a ha => Or.inr fun hmem => ?_) (hrows.filter _)
  exact absurd (h a hmem) (by simpa using (List.mem_filter.mp ha).2)

theorem ofOtherKeys_replaceKey (h : ∀ a ∈ new, key a = k) (rows : List α) :
    ofOtherKeys key k (replaceKey key k rows new) = ofOtherKeys key k rows := by
  rw [replaceKey, appendNew_eq, ofOtherKeys_append, ofOtherKeys_ofOtherKeys,
    ofOtherKeys_of_forall (forall_mem_eraseDups_filter h _), List.append_nil]

theorem ofKey_replaceKey (h : ∀ a ∈ new, key a = k) (rows : List α) :
    ofKey key k (replaceKey key k rows new) = new.eraseDups := by
  have hall : new.filter (· ∉ ([] : List α)) = new :=
    List.filter_eq_self.mpr fun a _ => decide_eq_true List.not_mem_nil
  rw [replaceKey, appendNew_eq, ofKey_append, ofKey_ofOtherKeys, List.nil_append,
    ofKey_of_forall (forall_mem_eraseDups_filter h _), hall]

end KeyedRows
