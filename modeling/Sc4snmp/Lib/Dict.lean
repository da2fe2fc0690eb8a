import Mathlib.Data.List.Nodup
import Mathlib.Data.List.Perm.Subperm
import Mathlib.Tactic.Common

/-!
# Insertion-ordered dictionaries

A dictionary that remembers the order its keys were first written in: writing to
a key that is there keeps its place, a new key goes to the end.  Reading is by
key, iterating is in order, and two dictionaries that answer every key alike are
`Same`, whatever their orders.

## Main definitions

* `Dict` — a list of entries without repeated keys.
* `Dict.get?`, `Dict.insert`, `Dict.erase`, `Dict.update`, `Dict.ofList`.
* `Dict.Same` — equality up to order.

## Main results

* `get?_insert`, `get?_erase`, `get?_update`, `get?_ofList` — reading after writing.
* `mem_entries_iff`, `mem_keys_iff` — entries and keys through reading.
* `keys_insert` — where a written key stands.
-/

/-- An insertion-ordered dictionary. -/
structure Dict (κ ν : Type*) where
  entries : List (κ × ν)
  nodupKeys : (entries.map Prod.fst).Nodup

namespace Dict

variable {κ ν μ : Type*}

/-- The keys, in order. -/
def keys (d : Dict κ ν) : List κ := d.entries.map Prod.fst

/-- The values, in order. -/
def values (d : Dict κ ν) : List ν := d.entries.map Prod.snd

/-- The dictionary without entries. -/
def empty : Dict κ ν := ⟨[], List.nodup_nil⟩

@[simp] theorem entries_empty : (empty : Dict κ ν).entries = [] := rfl

@[simp] theorem keys_empty : (empty : Dict κ ν).keys = [] := rfl

theorem nodup_keys (d : Dict κ ν) : d.keys.Nodup := d.nodupKeys

/-- Two dictionaries with the same entries in the same order are equal. -/
theorem eq_of_entries {d e : Dict κ ν} (h : d.entries = e.entries) : d = e := by
  cases d
  cases e
  congr

instance [DecidableEq κ] [DecidableEq ν] : DecidableEq (Dict κ ν) := fun d e =>
  decidable_of_iff (d.entries = e.entries) ⟨eq_of_entries, congrArg entries⟩

variable [DecidableEq κ] {d e : Dict κ ν} {k j : κ} {v w : ν}

/-! ### Reading -/

/-- The value stored under a key. -/
def get? (d : Dict κ ν) (k : κ) : Option ν := d.entries.lookup k

/-- The value stored under a key, or a default. -/
def getD (d : Dict κ ν) (k : κ) (v : ν) : ν := (d.get? k).getD v

@[simp] theorem get?_empty : (empty : Dict κ ν).get? k = none := rfl

/-- `List.lookup_cons` with a propositional test. -/
theorem lookup_cons_ite (k j : κ) (w : ν) (es : List (κ × ν)) :
    List.lookup k ((j, w) :: es) = if k = j then some w else es.lookup k := by
  by_cases hk : k = j
  · simp [hk]
  · have hne : (k == j) = false := by simpa using hk
    rw [List.lookup_cons, hne, if_neg hk]

/-- An entry of a list without repeated keys is the one found under its key. -/
theorem lookup_eq_some_iff_mem {es : List (κ × ν)} (h : (es.map Prod.fst).Nodup) :
    es.lookup k = some v ↔ (k, v) ∈ es := by
  induction es with
  | nil => simp
  | cons e es ih =>
    obtain ⟨j, w⟩ := e
    rw [List.map_cons, List.nodup_cons] at h
    rw [lookup_cons_ite, List.mem_cons, Prod.mk.injEq]
    by_cases hk : k = j
    · subst hk
      have hnot : (k, v) ∉ es := fun hv => h.1 (List.mem_map.mpr ⟨_, hv, rfl⟩)
      simp [hnot, eq_comm]
    · simp [hk, ih h.2]

theorem mem_entries_iff : (k, v) ∈ d.entries ↔ d.get? k = some v :=
  (lookup_eq_some_iff_mem d.nodupKeys).symm

theorem mem_keys_iff : k ∈ d.keys ↔ ∃ v, d.get? k = some v := by
  simp [keys, ← mem_entries_iff]

theorem get?_eq_none_iff : d.get? k = none ↔ k ∉ d.keys := by
  rw [mem_keys_iff, Option.eq_none_iff_forall_ne_some, not_exists]

theorem isSome_get?_iff : (d.get? k).isSome ↔ k ∈ d.keys := by
  rw [mem_keys_iff, Option.isSome_iff_exists]

theorem mem_values_iff : v ∈ d.values ↔ ∃ k, d.get? k = some v := by
  simp [values, ← mem_entries_iff]

instance : Membership κ (Dict κ ν) := ⟨fun d k => k ∈ d.keys⟩

omit [DecidableEq κ] in
@[simp] theorem notMem_empty : k ∉ (empty : Dict κ ν) := List.not_mem_nil

instance (d : Dict κ ν) (k : κ) : Decidable (k ∈ d) :=
  inferInstanceAs (Decidable (k ∈ d.keys))

/-! ### Writing -/

/-- Writes to a list of entries: in place where the key is there, else at the end. -/
def upsert (k : κ) (v : ν) : List (κ × ν) → List (κ × ν)
  | [] => [(k, v)]
  | (j, w) :: es => if j = k then (k, v) :: es else (j, w) :: upsert k v es

theorem keys_upsert (k : κ) (v : ν) (es : List (κ × ν)) :
    (upsert k v es).map Prod.fst =
      if k ∈ es.map Prod.fst then es.map Prod.fst else es.map Prod.fst ++ [k] := by
  induction es with
  | nil => simp [upsert]
  | cons e es ih =>
    obtain ⟨j, w⟩ := e
    rw [upsert]
    by_cases hj : j = k
    · simp [hj]
    · have hk : ¬ k = j := fun h => hj h.symm
      simp only [hj, if_false, List.map_cons, ih, List.mem_cons, hk, false_or]
      split <;> simp

theorem nodup_upsert {es : List (κ × ν)} (k : κ) (v : ν) (h : (es.map Prod.fst).Nodup) :
    ((upsert k v es).map Prod.fst).Nodup := by
  rw [keys_upsert]
  split
  · exact h
  · next hk => exact List.concat_eq_append ▸ h.concat hk

theorem lookup_upsert (k j : κ) (v : ν) (es : List (κ × ν)) :
    (upsert k v es).lookup j = if j = k then some v else es.lookup j := by
  induction es with
  | nil => rw [upsert, lookup_cons_ite]
  | cons e es ih =>
    obtain ⟨i, w⟩ := e
    rw [upsert]
    by_cases hi : i = k
    · rw [if_pos hi, lookup_cons_ite, lookup_cons_ite, hi]
      by_cases hj : j = k <;> simp [hj]
    · rw [if_neg hi, lookup_cons_ite, lookup_cons_ite, ih]
      by_cases hj : j = i
      · simp [hj, hi]
      · simp [hj]

/-- Writes a value under a key. -/
def insert (d : Dict κ ν) (k : κ) (v : ν) : Dict κ ν :=
  ⟨upsert k v d.entries, nodup_upsert k v d.nodupKeys⟩

@[simp] theorem get?_insert (d : Dict κ ν) (k j : κ) (v : ν) :
    (d.insert k v).get? j = if j = k then some v else d.get? j :=
  lookup_upsert k j v d.entries

/-- A value that is written over another one. -/
theorem insert_insert (d : Dict κ ν) (k : κ) (v w : ν) :
    (d.insert k v).insert k w = d.insert k w := by
  apply eq_of_entries
  show upsert k w (upsert k v d.entries) = upsert k w d.entries
  induction d.entries with
  | nil => simp [upsert]
  | cons e es ih =>
    by_cases he : e.1 = k
    · simp [upsert, he]
    · simp [upsert, he, ih]

theorem keys_insert (d : Dict κ ν) (k : κ) (v : ν) :
    (d.insert k v).keys = if k ∈ d.keys then d.keys else d.keys ++ [k] :=
  keys_upsert k v d.entries

theorem mem_keys_insert : j ∈ (d.insert k v).keys ↔ j = k ∨ j ∈ d.keys := by
  rw [keys_insert]
  split
  · next h => exact ⟨Or.inr, fun hj => hj.elim (fun hj => hj ▸ h) id⟩
  · simp [or_comm]

/-- Drops a key. -/
def erase (d : Dict κ ν) (k : κ) : Dict κ ν :=
  ⟨d.entries.filter fun e => e.1 ≠ k,
    d.nodupKeys.sublist (List.filter_sublist.map Prod.fst)⟩

theorem lookup_filter_ne (k j : κ) (es : List (κ × ν)) :
    (es.filter fun e => e.1 ≠ k).lookup j = if j = k then none else es.lookup j := by
  induction es with
  | nil => simp
  | cons e es ih =>
    obtain ⟨i, w⟩ := e
    by_cases hi : i = k
    · rw [List.filter_cons_of_neg (by simp [hi]), ih, lookup_cons_ite, hi]
      by_cases hj : j = k <;> simp [hj]
    · rw [List.filter_cons_of_pos (by simp [hi]), lookup_cons_ite, lookup_cons_ite, ih]
      by_cases hj : j = i
      · simp [hj, hi]
      · simp [hj]

@[simp] theorem get?_erase (d : Dict κ ν) (k j : κ) :
    (d.erase k).get? j = if j = k then none else d.get? j :=
  lookup_filter_ne k j d.entries

/-- Writes the entries of a list, one after the other. -/
def updateList (d : Dict κ ν) (es : List (κ × ν)) : Dict κ ν :=
  es.foldl (fun d e => d.insert e.1 e.2) d

/-- Writes the entries of another dictionary. -/
def update (d e : Dict κ ν) : Dict κ ν := d.updateList e.entries

/-- The dictionary of a list of entries; of a repeated key the last entry counts. -/
def ofList (es : List (κ × ν)) : Dict κ ν := empty.updateList es

@[simp] theorem updateList_nil (d : Dict κ ν) : d.updateList [] = d := rfl

@[simp] theorem updateList_cons (d : Dict κ ν) (e : κ × ν) (es : List (κ × ν)) :
    d.updateList (e :: es) = (d.insert e.1 e.2).updateList es := rfl

theorem get?_updateList (d : Dict κ ν) (es : List (κ × ν)) (h : (es.map Prod.fst).Nodup) (k : κ) :
    (d.updateList es).get? k = (es.lookup k).or (d.get? k) := by
  induction es generalizing d with
  | nil => simp
  | cons e es ih =>
    obtain ⟨j, w⟩ := e
    rw [List.map_cons, List.nodup_cons] at h
    rw [updateList_cons, ih _ h.2, get?_insert, lookup_cons_ite]
    by_cases hk : k = j
    · subst hk
      have hnone : es.lookup k = none := by
        rw [Option.eq_none_iff_forall_ne_some]
        intro u hu
        exact h.1 (List.mem_map.mpr ⟨_, (lookup_eq_some_iff_mem h.2).mp hu, rfl⟩)
      simp [hnone]
    · simp [hk]

@[simp] theorem get?_update (d e : Dict κ ν) (k : κ) :
    (d.update e).get? k = (e.get? k).or (d.get? k) :=
  get?_updateList d e.entries e.nodupKeys k

theorem get?_ofList (es : List (κ × ν)) (h : (es.map Prod.fst).Nodup) (k : κ) :
    (ofList es).get? k = es.lookup k := by
  rw [ofList, get?_updateList _ _ h, get?_empty, Option.or_none]

theorem mem_keys_updateList {es : List (κ × ν)} :
    k ∈ (d.updateList es).keys ↔ k ∈ es.map Prod.fst ∨ k ∈ d.keys := by
  induction es generalizing d with
  | nil => simp
  | cons e es ih =>
    rw [updateList_cons, ih, mem_keys_insert, List.map_cons, List.mem_cons]
    tauto

theorem updateList_append (d : Dict κ ν) (es fs : List (κ × ν)) :
    d.updateList (es ++ fs) = (d.updateList es).updateList fs :=
  List.foldl_append

/-- Entries under other keys do not matter. -/
theorem get?_updateList_of_notMem {es : List (κ × ν)} (h : k ∉ es.map Prod.fst) :
    (d.updateList es).get? k = d.get? k := by
  induction es generalizing d with
  | nil => rfl
  | cons e es ih =>
    rw [List.map_cons, List.mem_cons, not_or] at h
    rw [updateList_cons, ih h.2, get?_insert, if_neg h.1]

/-- Lists of entries under the same keys, the values of which are related. -/
theorem rel_lookup_of_forall₂ {μ : Type*} (R : ν → μ → Prop) {es : List (κ × ν)}
    {fs : List (κ × μ)} (h : List.Forall₂ (fun e f => f.1 = e.1 ∧ R e.2 f.2) es fs) (k : κ) :
    Option.Rel R (es.lookup k) (fs.lookup k) := by
  induction h with
  | nil => exact Option.Rel.none
  | @cons e f es fs hef _ ih =>
    obtain ⟨i, v⟩ := e
    obtain ⟨j, w⟩ := f
    obtain ⟨rfl, hR⟩ := hef
    rw [lookup_cons_ite, lookup_cons_ite]
    by_cases hk : k = j
    · rw [if_pos hk, if_pos hk]
      exact Option.Rel.some hR
    · rw [if_neg hk, if_neg hk]
      exact ih

/-- Of the entries under a key the last one counts. -/
theorem get?_updateList_eq_last (d : Dict κ ν) (es : List (κ × ν)) (k : κ) :
    (d.updateList es).get? k = (es.reverse.lookup k).or (d.get? k) := by
  induction es generalizing d with
  | nil => simp
  | cons e es ih =>
    obtain ⟨j, w⟩ := e
    rw [updateList_cons, ih, get?_insert, List.reverse_cons, List.lookup_append, lookup_cons_ite,
      List.lookup_nil]
    by_cases hk : k = j
    · subst hk
      cases es.reverse.lookup k <;> simp
    · simp [hk]

/-- New keys go to the end. -/
theorem entries_updateList_of_fresh {es : List (κ × ν)} (hes : (es.map Prod.fst).Nodup)
    (hd : ∀ k ∈ es.map Prod.fst, k ∉ d.keys) : (d.updateList es).entries = d.entries ++ es := by
  have hupsert : ∀ (k : κ) (v : ν) (fs : List (κ × ν)), k ∉ fs.map Prod.fst →
      upsert k v fs = fs ++ [(k, v)] := by
    intro k v fs hk
    induction fs with
    | nil => rfl
    | cons f fs ih =>
      rw [List.map_cons, List.mem_cons, not_or] at hk
      rw [upsert, if_neg (Ne.symm hk.1), ih hk.2, List.cons_append]
  induction es generalizing d with
  | nil => simp
  | cons e es ih =>
    rw [List.map_cons, List.nodup_cons] at hes
    rw [List.map_cons, List.forall_mem_cons] at hd
    have hinsert : (d.insert e.1 e.2).entries = d.entries ++ [e] := hupsert e.1 e.2 d.entries hd.1
    rw [updateList_cons, ih hes.2, hinsert, List.append_assoc, List.singleton_append]
    intro k hk hin
    rcases mem_keys_insert.mp hin with rfl | hin
    · exact hes.1 hk
    · exact hd.2 k hk hin

/-- Entries with different keys stay as they are. -/
theorem entries_ofList {es : List (κ × ν)} (h : (es.map Prod.fst).Nodup) :
    (ofList es).entries = es := by
  rw [ofList, entries_updateList_of_fresh h (by simp)]
  rfl

/-- A dictionary is the one of its entries. -/
@[simp] theorem ofList_entries (d : Dict κ ν) : ofList d.entries = d :=
  eq_of_entries (entries_ofList d.nodupKeys)

/-- A dictionary has as many entries as were put into it only if their keys are different. -/
theorem nodup_of_length_ofList {es : List (κ × ν)} (h : (ofList es).entries.length = es.length) :
    (es.map Prod.fst).Nodup := by
  have hsubset : (ofList es).keys ⊆ es.map Prod.fst := by
    intro k hk
    rcases mem_keys_updateList.mp hk with hk | hk
    · exact hk
    · exact absurd hk notMem_empty
  have hlength : (es.map Prod.fst).length = (ofList es).keys.length := by
    rw [keys, List.length_map, List.length_map, h]
  have hperm : (ofList es).keys.Perm (es.map Prod.fst) :=
    (List.subperm_of_subset (ofList es).nodup_keys hsubset).perm_of_length_le
      (Nat.le_of_eq hlength)
  exact hperm.nodup_iff.mp (ofList es).nodup_keys

theorem mem_keys_update : k ∈ (d.update e).keys ↔ k ∈ e.keys ∨ k ∈ d.keys :=
  mem_keys_updateList

/-- Applies a function to every value. -/
def mapValues (f : ν → μ) (d : Dict κ ν) : Dict κ μ :=
  ⟨d.entries.map fun e => (e.1, f e.2), by
    rw [List.map_map]
    exact d.nodupKeys⟩

@[simp] theorem get?_mapValues (f : ν → μ) (d : Dict κ ν) (k : κ) :
    (d.mapValues f).get? k = (d.get? k).map f := by
  obtain ⟨es, h⟩ := d
  simp only [get?, mapValues]
  clear h
  induction es with
  | nil => simp
  | cons e es ih =>
    obtain ⟨j, w⟩ := e
    rw [List.map_cons, lookup_cons_ite, lookup_cons_ite, ih]
    split <;> rfl

/-- A value is written before or after the function is applied. -/
theorem mapValues_insert (f : ν → μ) (d : Dict κ ν) (k : κ) (v : ν) :
    (d.insert k v).mapValues f = (d.mapValues f).insert k (f v) := by
  apply eq_of_entries
  show (upsert k v d.entries).map (fun e => (e.1, f e.2)) =
    upsert k (f v) (d.entries.map fun e => (e.1, f e.2))
  induction d.entries with
  | nil => rfl
  | cons e es ih =>
    simp only [upsert, List.map_cons]
    split <;> simp [ih]

/-- Each value through a function of its key and itself. -/
def mapEntries (f : κ → ν → μ) (d : Dict κ ν) : Dict κ μ :=
  ⟨d.entries.map fun e => (e.1, f e.1 e.2), by
    rw [List.map_map]
    exact d.nodupKeys⟩

@[simp] theorem get?_mapEntries (f : κ → ν → μ) (d : Dict κ ν) (k : κ) :
    (d.mapEntries f).get? k = (d.get? k).map (f k) := by
  obtain ⟨es, h⟩ := d
  simp only [get?, mapEntries]
  clear h
  induction es with
  | nil => simp
  | cons e es ih =>
    obtain ⟨j, w⟩ := e
    rw [List.map_cons, lookup_cons_ite, lookup_cons_ite, ih]
    by_cases hk : k = j
    · subst hk
      rw [if_pos rfl, if_pos rfl, Option.map_some]
    · rw [if_neg hk, if_neg hk]

omit [DecidableEq κ] in
@[simp] theorem keys_mapEntries (f : κ → ν → μ) (d : Dict κ ν) :
    (d.mapEntries f).keys = d.keys := by
  simp [keys, mapEntries]

/-- Dictionaries with their keys in one order agree value by value if they do so key by key. -/
theorem forall₂_values {R : ν → μ → Prop} {d : Dict κ ν} {d' : Dict κ μ} (hkeys : d'.keys = d.keys)
    (h : ∀ k v w, d.get? k = some v → d'.get? k = some w → R v w) :
    List.Forall₂ R d.values d'.values := by
  have hentries : List.Forall₂ (fun e e' => e.1 = e'.1) d.entries d'.entries := by
    have heq : List.Forall₂ Eq d.keys d'.keys := by rw [hkeys, List.forall₂_eq_eq_eq]
    rwa [keys, keys, List.forall₂_map_left_iff, List.forall₂_map_right_iff] at heq
  obtain ⟨hlength, hzip⟩ := List.forall₂_iff_zip.mp hentries
  rw [values, values, List.forall₂_map_left_iff, List.forall₂_map_right_iff]
  refine List.forall₂_iff_zip.mpr ⟨hlength, fun {e e'} he => ?_⟩
  obtain ⟨hmem, hmem'⟩ := List.of_mem_zip he
  have hkey : e.1 = e'.1 := hzip he
  exact h e.1 e.2 e'.2 (mem_entries_iff.mp hmem) (mem_entries_iff.mp (hkey ▸ hmem'))

omit [DecidableEq κ] in
theorem sublist_keys_filterMap (f : ν → Option μ) (es : List (κ × ν)) :
    ((es.filterMap fun e => (f e.2).map fun v => (e.1, v)).map Prod.fst).Sublist
      (es.map Prod.fst) := by
  induction es with
  | nil => exact List.Sublist.refl _
  | cons e es ih =>
    rw [List.filterMap_cons, List.map_cons]
    cases f e.2 with
    | none => exact ih.cons e.1
    | some v => exact ih.cons_cons e.1

/-- What is left of a dictionary when some of its values are dropped. -/
theorem get?_ofList_filterMap (f : ν → Option μ) (d : Dict κ ν) (k : κ) :
    (ofList (d.entries.filterMap fun e => (f e.2).map fun v => (e.1, v))).get? k =
      (d.get? k).bind f := by
  obtain ⟨es, h⟩ := d
  rw [get?_ofList _ ((sublist_keys_filterMap f es).nodup h)]
  simp only [get?]
  induction es with
  | nil => rfl
  | cons e es ih =>
    obtain ⟨j, w⟩ := e
    rw [List.map_cons, List.nodup_cons] at h
    rw [List.filterMap_cons, lookup_cons_ite]
    by_cases hk : k = j
    · subst hk
      -- the key is not there a second time
      have hnone : es.lookup k = none := by
        rw [List.lookup_eq_none_iff]
        intro e he
        exact bne_iff_ne.mpr fun heq => h.1 (List.mem_map.mpr ⟨e, he, heq.symm⟩)
      rw [if_pos rfl, Option.bind_some]
      cases hf : f w with
      | none =>
        simp only [Option.map_none, ih h.2]
        rw [hnone, Option.bind_none]
      | some v => simp
    · rw [if_neg hk]
      cases hf : f w with
      | none => simp only [Option.map_none, ih h.2]
      | some v => simp only [Option.map_some, lookup_cons_ite, if_neg hk, ih h.2]

/-! ### Equality up to order -/

/-- The dictionaries answer every key alike. -/
def Same (d e : Dict κ ν) : Prop := ∀ k, d.get? k = e.get? k

theorem Same.rfl : d.Same d := fun _ => Eq.refl _

theorem same_iff_keys : d.Same e ↔ ∀ k ∈ d.keys ++ e.keys, d.get? k = e.get? k := by
  refine ⟨fun h k _ => h k, fun h k => ?_⟩
  by_cases hk : k ∈ d.keys ++ e.keys
  · exact h k hk
  · rw [List.mem_append, not_or] at hk
    rw [get?_eq_none_iff.mpr hk.1, get?_eq_none_iff.mpr hk.2]

instance [DecidableEq ν] (d e : Dict κ ν) : Decidable (d.Same e) :=
  decidable_of_iff _ same_iff_keys.symm

end Dict
