import Sc4snmp.Lib.Dict

/-!
# Elements by key

A dictionary of lists, to which elements are added one by one under their keys.

## Main definitions

* `Buckets.add`, `Buckets.addAll` — one element, and some after each other.
* `Buckets.Holds` — an element is under a key.

## Main results

* `holds_addAll` — **what is there and what is added**.
* `mem_keys_addAll` — only keys of elements are keys.
-/

namespace Buckets

variable {κ α : Type*} [DecidableEq κ] {d : Dict κ (List α)} {k j : κ} {a b : α}

/-- An element goes after those of its key. -/
def add (d : Dict κ (List α)) (k : κ) (a : α) : Dict κ (List α) :=
  d.insert k (d.getD k [] ++ [a])

/-- Elements go after those of their keys. -/
def addAll (d : Dict κ (List α)) (es : List (κ × α)) : Dict κ (List α) :=
  es.foldl (fun d e => add d e.1 e.2) d

/-- An element is under a key. -/
def Holds (d : Dict κ (List α)) (k : κ) (a : α) : Prop := ∃ as, d.get? k = some as ∧ a ∈ as

@[simp] theorem addAll_nil (d : Dict κ (List α)) : addAll d [] = d := rfl

@[simp] theorem addAll_cons (d : Dict κ (List α)) (e : κ × α) (es : List (κ × α)) :
    addAll d (e :: es) = addAll (add d e.1 e.2) es := rfl

theorem addAll_append (d : Dict κ (List α)) (es fs : List (κ × α)) :
    addAll d (es ++ fs) = addAll (addAll d es) fs := List.foldl_append

theorem holds_iff_mem_getD : Holds d k a ↔ a ∈ d.getD k [] := by
  unfold Holds Dict.getD
  cases d.get? k <;> simp

@[simp] theorem not_holds_empty : ¬ Holds (Dict.empty : Dict κ (List α)) k a := by
  rintro ⟨as, has, -⟩
  cases has

@[simp] theorem holds_add : Holds (add d j b) k a ↔ Holds d k a ∨ k = j ∧ a = b := by
  rw [holds_iff_mem_getD, holds_iff_mem_getD, add]
  unfold Dict.getD
  rw [Dict.get?_insert]
  by_cases hk : k = j
  · subst hk
    simp
  · simp [hk]

/-- **What is there and what is added.** -/
theorem holds_addAll {es : List (κ × α)} :
    Holds (addAll d es) k a ↔ Holds d k a ∨ (k, a) ∈ es := by
  induction es generalizing d with
  | nil => simp
  | cons e es ih => rw [addAll_cons, ih, holds_add, List.mem_cons, Prod.ext_iff, or_assoc]

/-- Only keys of elements are added to the keys. -/
theorem mem_keys_addAll {es : List (κ × α)} :
    k ∈ (addAll d es).keys ↔ k ∈ d.keys ∨ k ∈ es.map Prod.fst := by
  induction es generalizing d with
  | nil => simp
  | cons e es ih =>
    rw [addAll_cons, ih, add, Dict.mem_keys_insert, List.map_cons, List.mem_cons]
    tauto

end Buckets
