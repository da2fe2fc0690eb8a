import Sc4snmp.Lib.Dict

/-!
# Collections of documents

A collection is a list of documents, and what identifies a document is read off its fields.
Nothing keeps two documents of a collection apart: an update with `upsert` changes the first
document of its key, or appends one, and a delete removes the first one.  A collection that is
only written in this way has one document for each key, and is a dictionary.

## Main definitions

* `Collection.findOne`, `Collection.upsertOne`, `Collection.deleteOne`.
* `Collection.UniqueKeys` — no two documents of a key.
* `Dict.Keyed` — the documents of a dictionary stand under their keys.

## Main results

* `UniqueKeys.upsertOne`, `UniqueKeys.deleteOne` — writing keeps the keys unique.
* `Keyed.values_insert`, `Keyed.values_erase`, `Keyed.get?_eq` — **a keyed dictionary is a
  collection with unique keys**.
-/

namespace Collection

variable {κ δ : Type*} [DecidableEq κ] (key : δ → κ)

/-- The first document of a key. -/
def findOne (k : κ) (docs : List δ) : Option δ := docs.find? fun d => key d = k

/-- The document takes the place of the first one of its key, or is appended. -/
def upsertOne (d : δ) : List δ → List δ
  | [] => [d]
  | e :: docs => if key e = key d then d :: docs else e :: upsertOne d docs

/-- The first document of a key is removed. -/
def deleteOne (k : κ) (docs : List δ) : List δ := docs.eraseP fun d => key d = k

/-- No two documents have a key in common. -/
def UniqueKeys (docs : List δ) : Prop := (docs.map key).Nodup

variable {key} {k j : κ} {d : δ} {docs : List δ}

omit [DecidableEq κ] in
theorem uniqueKeys_nil : UniqueKeys key [] := List.nodup_nil

theorem keys_upsertOne (d : δ) (docs : List δ) :
    (upsertOne key d docs).map key =
      if key d ∈ docs.map key then docs.map key else docs.map key ++ [key d] := by
  induction docs with
  | nil => rfl
  | cons e docs ih =>
    unfold upsertOne
    by_cases he : key e = key d
    · simp [he]
    · simp only [he, if_false, List.map_cons, ih, List.mem_cons, Ne.symm he, false_or]
      split
      · rfl
      · rfl

theorem UniqueKeys.upsertOne (h : UniqueKeys key docs) (d : δ) :
    UniqueKeys key (upsertOne key d docs) := by
  unfold UniqueKeys at h ⊢
  rw [keys_upsertOne]
  split
  · exact h
  · next hd => exact List.concat_eq_append ▸ h.concat hd

theorem UniqueKeys.deleteOne (h : UniqueKeys key docs) (k : κ) :
    UniqueKeys key (deleteOne key k docs) :=
  List.Nodup.sublist (List.eraseP_sublist.map key) h

/-- With unique keys, no document of the key is left. -/
theorem UniqueKeys.deleteOne_eq_filter (h : UniqueKeys key docs) (k : κ) :
    Collection.deleteOne key k docs = docs.filter fun d => key d ≠ k := by
  induction docs with
  | nil => rfl
  | cons e docs ih =>
    unfold UniqueKeys at h
    rw [List.map_cons, List.nodup_cons] at h
    unfold Collection.deleteOne at ih ⊢
    by_cases he : key e = k
    · rw [List.eraseP_cons_of_pos (by simpa using he), List.filter_cons_of_neg (by simpa using he),
        eq_comm, List.filter_eq_self]
      intro d hd
      have hne : key d ≠ k := fun hk => h.1 (List.mem_map.mpr ⟨d, hd, hk.trans he.symm⟩)
      simpa using hne
    · rw [List.eraseP_cons_of_neg (by simpa using he), List.filter_cons_of_pos (by simpa using he),
        ih h.2]

end Collection

namespace Dict

variable {κ δ : Type*} [DecidableEq κ] {key : δ → κ} {dict : Dict κ δ}

theorem lookup_eq_findOne {es : List (κ × δ)} (h : ∀ e ∈ es, e.1 = key e.2) (k : κ) :
    es.lookup k = Collection.findOne key k (es.map Prod.snd) := by
  unfold Collection.findOne
  induction es with
  | nil => rfl
  | cons e es ih =>
    obtain ⟨j, w⟩ := e
    obtain ⟨he, hes⟩ := List.forall_mem_cons.mp h
    rw [lookup_cons_ite, List.map_cons, List.find?_cons, ih hes, show j = key w from he]
    by_cases hk : k = key w
    · simp [hk]
    · simp [hk, Ne.symm hk]

theorem map_upsert {es : List (κ × δ)} (h : ∀ e ∈ es, e.1 = key e.2) (d : δ) :
    (upsert (key d) d es).map Prod.snd = Collection.upsertOne key d (es.map Prod.snd) := by
  induction es with
  | nil => rfl
  | cons e es ih =>
    obtain ⟨j, w⟩ := e
    obtain ⟨he, hes⟩ := List.forall_mem_cons.mp h
    unfold upsert Collection.upsertOne
    rw [show j = key w from he]
    by_cases hk : key w = key d
    · simp [hk]
    · simp only [hk, if_false, List.map_cons]
      exact congrArg (w :: ·) (ih hes)

/-- The documents stand under their keys. -/
def Keyed (key : δ → κ) (dict : Dict κ δ) : Prop := ∀ e ∈ dict.entries, e.1 = key e.2

namespace Keyed

omit [DecidableEq κ] in
theorem empty : Keyed key (Dict.empty : Dict κ δ) := fun _ h => by cases h

omit [DecidableEq κ] in
theorem uniqueKeys (h : Keyed key dict) : Collection.UniqueKeys key dict.values := by
  have hkeys : dict.entries.map (key ∘ Prod.snd) = dict.keys := (List.map_congr_left h).symm
  unfold Collection.UniqueKeys values
  rw [List.map_map, hkeys]
  exact dict.nodupKeys

theorem get?_eq (h : Keyed key dict) (k : κ) :
    dict.get? k = Collection.findOne key k dict.values :=
  lookup_eq_findOne h k

theorem values_insert (h : Keyed key dict) (d : δ) :
    (dict.insert (key d) d).values = Collection.upsertOne key d dict.values :=
  map_upsert h d

theorem values_erase (h : Keyed key dict) (k : κ) :
    (dict.erase k).values = Collection.deleteOne key k dict.values := by
  rw [h.uniqueKeys.deleteOne_eq_filter]
  unfold erase values
  rw [List.filter_map]
  refine congrArg _ (List.filter_congr ?_)
  intro e he
  rw [h e he]
  rfl

theorem insert (h : Keyed key dict) (d : δ) : Keyed key (dict.insert (key d) d) := by
  rintro ⟨k, v⟩ hmem
  rw [mem_entries_iff, get?_insert] at hmem
  split at hmem
  · next hk =>
    cases hmem
    exact hk
  · exact h (k, v) (mem_entries_iff.mpr hmem)

theorem erase (h : Keyed key dict) (k : κ) : Keyed key (dict.erase k) := by
  intro e hmem
  exact h e (List.mem_of_mem_filter hmem)

end Keyed

end Dict
