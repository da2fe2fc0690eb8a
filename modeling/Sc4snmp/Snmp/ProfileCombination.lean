import Sc4snmp.Snmp.ProfileRefresh

/-!
# Profiles polled together

A profile is divided once, when it is processed: the varbinds it walks, and of the ones
it asks for by a GET those that the walked ones do not cover.  Profiles polled together
are added up after that, the walked and the asked ones each on their own side.  So what
one of them walks does not take away what another one asks for.

## Main definitions

* `Varbind.WellFormed`, `Varbind.key` — varbinds of names, and the text they are kept under.
* `Covered` — a varbind of a list covers another one.
* `Asks` — a profile walks the uncovered varbinds of one set and asks for another.
* `CombinesAsOne` — profiles polled together request what one with all their varbinds does.
* `NoneCovered` — no GET varbind is covered by another profile alone.

## Main results

* `mem_map_insertAll_iff` — what a container keeps of a list of varbinds.
* `asks_process`, `asks_add` — dividing a profile, and adding two.
* `combinesAsOne_iff` — **profiles polled together are as one exactly when no GET varbind
  of one is covered by another alone**.
-/

namespace Sc4snmp

/-! ### Names and keys -/

/-- The name has neither a dot nor two colons. -/
def PlainName (s : String) : Prop := '.' ∉ s.toList ∧ Text.splitDoubled ':' s.toList = [s.toList]

/-- A MIB name: a plain name, without a colon at its end that would join the two after it. -/
def MibName (s : String) : Prop := PlainName s ∧ s.toList.getLast? ≠ some ':'

namespace Varbind

/-- The varbind is a MIB name, with an object name and an index or not. -/
inductive WellFormed : Varbind → Prop
  | mib {mib : String} : MibName mib → WellFormed [.str mib]
  | object {mib object : String} {index : List VarbindItem} : MibName mib → PlainName object →
      WellFormed (.str mib :: .str object :: index)

/-- The text a varbind is kept under. -/
def key : Varbind → String
  | [] => ""
  | [mib] => mib.format
  | [mib, object] => mib.format ++ "::" ++ object.format
  | mib :: object :: index =>
    mib.format ++ "::" ++ object.format ++ "." ++
      String.intercalate "." (index.map VarbindItem.format)

theorem WellFormed.mappingKey {v : Varbind} (h : v.WellFormed) :
    v.mappingKey = .ok (.str v.key) := by
  cases h with
  | mib => rfl
  | @object mib object index => cases index <;> rfl

/-- The general varbinds a varbind comes under: its MIB, and its object. -/
def parents (v : Varbind) : List Varbind :=
  (if 1 < v.length then [v.take 1] else []) ++ if 2 < v.length then [v.take 2] else []

theorem mem_parents_iff {u v : Varbind} :
    u ∈ v.parents ↔ (1 < v.length ∧ u = v.take 1) ∨ (2 < v.length ∧ u = v.take 2) := by
  unfold parents
  rw [List.mem_append]
  split <;> split <;> simp_all

theorem length_lt_of_mem_parents {u v : Varbind} (h : u ∈ v.parents) :
    u.length < v.length ∧ u.length < 3 := by
  rcases mem_parents_iff.mp h with ⟨hv, rfl⟩ | ⟨hv, rfl⟩
  · rw [List.length_take]
    omega
  · rw [List.length_take]
    omega

/-- A general varbind of a general varbind is one of the varbind. -/
theorem mem_parents_trans {t u v : Varbind} (ht : t ∈ u.parents) (hu : u ∈ v.parents) :
    t ∈ v.parents := by
  have htlen := length_lt_of_mem_parents ht
  rw [mem_parents_iff] at ht hu ⊢
  rcases hu with ⟨hv, rfl⟩ | ⟨hv, rfl⟩
  · rw [List.length_take] at ht
    rcases ht with ⟨h, -⟩ | ⟨h, -⟩
    · omega
    · omega
  · rw [List.length_take, List.take_take, List.take_take] at ht
    rcases ht with ⟨-, rfl⟩ | ⟨h, -⟩
    · exact Or.inl ⟨by omega, rfl⟩
    · omega

/-- Of the general varbinds of a set that cover a varbind, one is covered by none. -/
theorem exists_top_parent (S : Varbind → Prop) {u v : Varbind} (hu : u ∈ v.parents) (hS : S u) :
    ∃ t ∈ v.parents, S t ∧ ∀ r ∈ t.parents, ¬ S r := by
  by_cases hcovered : ∃ t ∈ u.parents, S t
  · -- then the varbind is an object, and its MIB has no general varbind
    obtain ⟨t, ht, hSt⟩ := hcovered
    refine ⟨t, mem_parents_trans ht hu, hSt, fun r hr _ => ?_⟩
    have htlen := length_lt_of_mem_parents ht
    have hulen := length_lt_of_mem_parents hu
    rcases mem_parents_iff.mp hr with ⟨h1, -⟩ | ⟨h2, -⟩
    · omega
    · omega
  · exact ⟨u, hu, hS, fun r hr hSr => hcovered ⟨r, hr, hSr⟩⟩

theorem WellFormed.of_mem_parents {u v : Varbind} (hv : v.WellFormed) (h : u ∈ v.parents) :
    u.WellFormed := by
  rw [mem_parents_iff] at h
  cases hv with
  | mib hmib => simp at h
  | @object mib object index hmib hobject =>
    rcases h with ⟨-, rfl⟩ | ⟨-, rfl⟩
    · exact .mib hmib
    · exact @WellFormed.object mib object [] hmib hobject

/-- The key of a varbind with an object: the MIB, and after two colons the rest. -/
theorem key_toList (mib object : String) (index : List VarbindItem) :
    ∃ rest, (key (.str mib :: .str object :: index)).toList =
        mib.toList ++ ':' :: ':' :: (object.toList ++ rest) ∧
      (index = [] ∧ rest = [] ∨ index ≠ [] ∧ ∃ tail, rest = '.' :: tail) := by
  cases index with
  | nil => exact ⟨[], by simp [key, VarbindItem.format], Or.inl ⟨rfl, rfl⟩⟩
  | cons i index =>
    refine ⟨'.' :: (String.intercalate "." ((i :: index).map VarbindItem.format)).toList, ?_,
      Or.inr ⟨by simp, _, rfl⟩⟩
    simp [key, VarbindItem.format]

/-- The object name is read back up to the first dot. -/
theorem takeWhile_object {object : String} (hobject : '.' ∉ object.toList) {rest : List Char}
    (hrest : rest = [] ∨ ∃ tail, rest = '.' :: tail) :
    (object.toList ++ rest).takeWhile (· ≠ '.') = object.toList := by
  have hall : ∀ c ∈ object.toList, decide (c ≠ '.') = true := by
    intro c hc
    rw [decide_eq_true_eq]
    rintro rfl
    exact hobject hc
  rw [List.takeWhile_append_of_pos hall]
  rcases hrest with rfl | ⟨tail, rfl⟩
  · simp
  · simp

/-- Where the key of a varbind with an object is cut. -/
theorem splitDoubled_key {mib : String} (hmib : MibName mib) (object : String)
    (index : List VarbindItem) :
    ∃ rest, Text.splitDoubled ':' (key (.str mib :: .str object :: index)).toList =
        mib.toList :: Text.splitDoubled ':' (object.toList ++ rest) ∧
      (index = [] ∧ rest = [] ∨ index ≠ [] ∧ ∃ tail, rest = '.' :: tail) := by
  obtain ⟨rest, hkey, hrest⟩ := key_toList mib object index
  refine ⟨rest, ?_, hrest⟩
  rw [hkey, Text.splitDoubled_append hmib.1.2 hmib.2]

/-- The key of a lone MIB is not the key of a varbind with an object. -/
theorem key_mib_ne {mib mib' object : String} {index : List VarbindItem} (hmib : MibName mib)
    (hmib' : MibName mib') : key [.str mib] ≠ key (.str mib' :: .str object :: index) := by
  intro h
  obtain ⟨rest, hsplit, -⟩ := splitDoubled_key hmib' object index
  have hlone : Text.splitDoubled ':' (key [.str mib]).toList = [mib.toList] := hmib.1.2
  rw [← h, hlone, List.cons.injEq] at hsplit
  exact Text.splitDoubled_ne_nil ':' _ hsplit.2.symm

/-- **A key tells the MIB and the object**, and whether there is an index. -/
theorem key_injective {v w : Varbind} (hv : v.WellFormed) (hw : w.WellFormed)
    (h : v.key = w.key) : v.take 2 = w.take 2 ∧ (2 < v.length ↔ 2 < w.length) := by
  cases hv with
  | @mib mib hmib =>
    cases hw with
    | @mib mib' hmib' =>
      have heq : mib = mib' := h
      rw [heq]
      exact ⟨rfl, Iff.rfl⟩
    | object hmib' hobject' => exact absurd h (key_mib_ne hmib hmib')
  | @object mib object index hmib hobject =>
    cases hw with
    | mib hmib' => exact absurd h.symm (key_mib_ne hmib' hmib)
    | @object mib' object' index' hmib' hobject' =>
      obtain ⟨rest, hsplit, hrest⟩ := splitDoubled_key hmib object index
      obtain ⟨rest', hsplit', hrest'⟩ := splitDoubled_key hmib' object' index'
      rw [h, hsplit', List.cons.injEq] at hsplit
      obtain ⟨hmibs, hfields⟩ := hsplit
      -- what comes after the MIB is the same text, and the object ends at its first dot
      have hjoin : object'.toList ++ rest' = object.toList ++ rest := by
        rw [← Text.intercalate_splitDoubled ':' (object'.toList ++ rest'), hfields,
          Text.intercalate_splitDoubled]
      have hcut := congrArg (List.takeWhile (· ≠ '.')) hjoin
      rw [takeWhile_object hobject.1 (hrest.imp And.right And.right),
        takeWhile_object hobject'.1 (hrest'.imp And.right And.right)] at hcut
      rw [hcut] at hjoin
      have hindex : index = [] ↔ index' = [] := by
        have htail := List.append_cancel_left hjoin
        rcases hrest with ⟨hi, hr⟩ | ⟨hi, tail, hr⟩ <;>
          rcases hrest' with ⟨hi', hr'⟩ | ⟨hi', tail', hr'⟩ <;> simp_all
      rw [String.toList_inj.mp hmibs, String.toList_inj.mp hcut]
      refine ⟨rfl, ?_⟩
      have hlength : ∀ l : List VarbindItem, 2 < l.length + 1 + 1 ↔ l ≠ [] := by
        intro l
        rw [ne_eq, ← List.length_eq_zero_iff]
        omega
      simp only [List.length_cons, hlength, ne_eq, hindex]

/-- A general varbind is the only one with its key. -/
theorem eq_of_key_eq {v w : Varbind} (hv : v.WellFormed) (hw : w.WellFormed) (h : v.key = w.key)
    (hshort : v.length < 3) : w = v := by
  obtain ⟨htake, hlength⟩ := key_injective hv hw h
  have hv2 : v.take 2 = v := List.take_of_length_le (by omega)
  have hw2 : w.take 2 = w := List.take_of_length_le (by omega)
  rw [← hw2, ← htake, hv2]

/-- Varbinds with one key come under the same general ones. -/
theorem parents_eq_of_key_eq {v w : Varbind} (hv : v.WellFormed) (hw : w.WellFormed)
    (h : v.key = w.key) : v.parents = w.parents := by
  obtain ⟨htake, hlength⟩ := key_injective hv hw h
  have hone : v.take 1 = w.take 1 := by
    have h1 := congrArg (List.take 1) htake
    rwa [List.take_take, List.take_take] at h1
  have hlong : 1 < v.length ↔ 1 < w.length := by
    have hlen := congrArg List.length htake
    rw [List.length_take, List.length_take] at hlen
    omega
  unfold parents
  rw [hone, htake]
  simp only [hlong, hlength]

/-- A general varbind has the shorter key. -/
theorem key_length_lt {u v : Varbind} (hv : v.WellFormed) (h : u ∈ v.parents) :
    u.key.length < v.key.length := by
  have hcolons : "::".length = 2 := rfl
  have hdot : ".".length = 1 := rfl
  rw [mem_parents_iff] at h
  cases hv with
  | mib hmib => simp at h
  | @object mib object index hmib hobject =>
    rcases h with ⟨-, rfl⟩ | ⟨hlong, rfl⟩
    · cases index with
      | nil =>
        simp only [List.take_succ_cons, List.take_zero, key, VarbindItem.format,
          String.length_append]
        omega
      | cons i index =>
        simp only [List.take_succ_cons, List.take_zero, key, VarbindItem.format,
          String.length_append]
        omega
    · cases index with
      | nil => simp at hlong
      | cons i index =>
        simp only [List.take_succ_cons, List.take_zero, key, VarbindItem.format,
          String.length_append]
        omega

end Varbind

/-! ### What a container keeps -/

namespace VarBindContainer

/-- The container keeps the varbinds of a set that no other one of the set covers, each
under its key. -/
structure Keeps (c : VarBindContainer) (S : Varbind → Prop) : Prop where
  wellFormed : ∀ v, S v → v.WellFormed
  keys : ∀ k, k ∈ c.map ↔ ∃ v, S v ∧ (∀ u ∈ v.parents, ¬ S u) ∧ k = .str v.key
  entries : ∀ k v, c.map.get? k = some v → S v ∧ k = .str v.key

theorem Keeps.congr {c : VarBindContainer} {S T : Varbind → Prop} (h : c.Keeps S)
    (hST : ∀ v, S v ↔ T v) : c.Keeps T := by
  obtain rfl : S = T := funext fun v => propext (hST v)
  exact h

theorem keeps_empty : empty.Keeps fun _ => False where
  wellFormed := fun _ h => h.elim
  keys := fun k => by simp [empty]
  entries := fun k v h => by cases h

/-- What is stored under the key of a general varbind. -/
theorem Keeps.mem_short_iff {c : VarBindContainer} {S : Varbind → Prop} (h : c.Keeps S)
    {u : Varbind}
    (hu : u.WellFormed) (hshort : u.length < 3) :
    .str u.key ∈ c.map ↔ S u ∧ ∀ t ∈ u.parents, ¬ S t := by
  rw [h.keys]
  constructor
  · rintro ⟨v, hv, hparents, hkey⟩
    obtain rfl := Varbind.eq_of_key_eq hu (h.wellFormed v hv) (VarbindItem.str.inj hkey) hshort
    exact ⟨hv, hparents⟩
  · rintro ⟨hS, hparents⟩
    exact ⟨u, hS, hparents, rfl⟩

/-- A varbind is covered by the container exactly when the set covers it. -/
theorem Keeps.exists_parent_iff {c : VarBindContainer} {S : Varbind → Prop} (h : c.Keeps S)
    {v : Varbind} (hv : v.WellFormed) :
    (∃ u ∈ v.parents, .str u.key ∈ c.map) ↔ ∃ u ∈ v.parents, S u := by
  have hmem : ∀ u ∈ v.parents, (.str u.key ∈ c.map ↔ S u ∧ ∀ t ∈ u.parents, ¬ S t) := fun u hu =>
    h.mem_short_iff (hv.of_mem_parents hu) (Varbind.length_lt_of_mem_parents hu).2
  constructor
  · rintro ⟨u, hu, hkey⟩
    exact ⟨u, hu, ((hmem u hu).mp hkey).1⟩
  · rintro ⟨u, hu, hS⟩
    obtain ⟨t, ht, hSt, htop⟩ := Varbind.exists_top_parent S hu hS
    exact ⟨t, ht, (hmem t ht).mpr ⟨hSt, htop⟩⟩

/-- Inserting a varbind of names: it is kept unless its key or a general varbind is there. -/
theorem insertVarbind_eq (c : VarBindContainer) {v : Varbind} (hv : v.WellFormed) :
    c.insertVarbind v = .ok
      (if .str v.key ∈ c.map ∨ ∃ u ∈ v.parents, .str u.key ∈ c.map then c
      else ⟨c.map.insert (.str v.key) v⟩) := by
  unfold insertVarbind
  rw [hv.mappingKey]
  simp only [bind, Except.bind]
  by_cases hkey : .str v.key ∈ c.map
  · rw [if_pos hkey, if_pos (Or.inl hkey)]
    rfl
  rw [if_neg hkey]
  -- covered by itself, by its MIB, or by its object
  cases hv with
  | mib hmib =>
    rw [if_neg (by simp), if_neg (by simp), if_neg (by simp [hkey, Varbind.parents])]
    rfl
  | @object mib object index hmib hobject =>
    have hmibKey : (∃ m ∈ (VarbindItem.str mib :: .str object :: index).head?, m ∈ c.map) ↔
        .str (Varbind.key [.str mib]) ∈ c.map := by
      simp [Varbind.key, VarbindItem.format]
    by_cases hroot : .str (Varbind.key [.str mib]) ∈ c.map
    · rw [if_pos ⟨by simp, hmibKey.mpr hroot⟩, if_pos]
      · rfl
      · exact Or.inr ⟨[.str mib], by simp [Varbind.parents], hroot⟩
    rw [if_neg fun h => hroot (hmibKey.mp h.2)]
    cases index with
    | nil =>
      rw [if_neg (by simp), if_neg (by simp [hkey, Varbind.parents, hroot])]
      rfl
    | cons i index =>
      have htwo : Varbind.mappingKey (List.take 2 (.str mib :: .str object :: i :: index)) =
          .ok (.str (Varbind.key [.str mib, .str object])) := rfl
      rw [if_pos (by simp), htwo]
      by_cases hobj : .str (Varbind.key [.str mib, .str object]) ∈ c.map
      · rw [if_pos (Or.inr ⟨[.str mib, .str object], by simp [Varbind.parents], hobj⟩)]
        simp only [if_pos hobj]
        rfl
      · rw [if_neg (by simp [hkey, Varbind.parents, hroot, hobj])]
        simp only [if_neg hobj]
        rfl

/-- Inserting a varbind that comes after the ones it covers would be covered by. -/
theorem Keeps.insert {c : VarBindContainer} {S : Varbind → Prop} (h : c.Keeps S) {v : Varbind}
    (hv : v.WellFormed) (hafter : ∀ w, S w → v ∉ w.parents) :
    ∃ c', c.insertVarbind v = .ok c' ∧ c'.Keeps fun w => S w ∨ w = v := by
  have hself : v ∉ v.parents := fun hmem => by
    have hlen := Varbind.length_lt_of_mem_parents hmem
    omega
  have hwell : ∀ w, S w ∨ w = v → w.WellFormed := by
    rintro w (hw | rfl)
    · exact h.wellFormed w hw
    · exact hv
  -- the new varbind covers none of the set, so what the set covers stays the same
  have hold : ∀ w, S w → ((∀ u ∈ w.parents, ¬ (S u ∨ u = v)) ↔ ∀ u ∈ w.parents, ¬ S u) := by
    intro w hw
    refine forall₂_congr fun u hu => not_congr (or_iff_left ?_)
    rintro rfl
    exact hafter w hw hu
  have hnew : (∀ u ∈ v.parents, ¬ (S u ∨ u = v)) ↔ ∀ u ∈ v.parents, ¬ S u := by
    refine forall₂_congr fun u hu => not_congr (or_iff_left ?_)
    rintro rfl
    exact hself hu
  have hsplit : ∀ k, (∃ w, (S w ∨ w = v) ∧ (∀ u ∈ w.parents, ¬ (S u ∨ u = v)) ∧ k = .str w.key) ↔
      k ∈ c.map ∨ (∀ u ∈ v.parents, ¬ S u) ∧ k = .str v.key := by
    intro k
    rw [h.keys]
    constructor
    · rintro ⟨w, hw | rfl, hparents, rfl⟩
      · exact Or.inl ⟨w, hw, (hold w hw).mp hparents, rfl⟩
      · exact Or.inr ⟨hnew.mp hparents, rfl⟩
    · rintro (⟨w, hw, hparents, rfl⟩ | ⟨hparents, rfl⟩)
      · exact ⟨w, Or.inl hw, (hold w hw).mpr hparents, rfl⟩
      · exact ⟨v, Or.inr rfl, hnew.mpr hparents, rfl⟩
  refine ⟨_, insertVarbind_eq c hv, ?_⟩
  split
  · next hthere =>
    refine ⟨hwell, ?_, ?_⟩
    · intro k
      rw [hsplit k]
      refine ⟨Or.inl, ?_⟩
      rintro (hk | ⟨hparents, rfl⟩)
      · exact hk
      · rcases hthere with hkey | hcovered
        · exact hkey
        · obtain ⟨u, hu, hS⟩ := (h.exists_parent_iff hv).mp hcovered
          exact absurd hS (hparents u hu)
    · intro k w hget
      obtain ⟨hS, hk⟩ := h.entries k w hget
      exact ⟨Or.inl hS, hk⟩
  · next hnot =>
    rw [not_or, h.exists_parent_iff hv] at hnot
    have huncovered : ∀ u ∈ v.parents, ¬ S u := fun u hu hS => hnot.2 ⟨u, hu, hS⟩
    refine ⟨hwell, ?_, ?_⟩
    · intro k
      rw [hsplit k, and_iff_right huncovered]
      show k ∈ (c.map.insert (.str v.key) v).keys ↔ _
      rw [Dict.mem_keys_insert, or_comm]
      rfl
    · intro k w hget
      rw [Dict.get?_insert] at hget
      split at hget
      · next hk =>
        cases hget
        exact ⟨Or.inr rfl, hk⟩
      · obtain ⟨hS, hk⟩ := h.entries k w hget
        exact ⟨Or.inl hS, hk⟩

/-- **What a container keeps of a list of varbinds**, the general ones before those they
cover. -/
theorem keeps_insertAll (L : List Varbind) (hL : ∀ v ∈ L, v.WellFormed)
    (horder : L.Pairwise fun v w => w ∉ v.parents) :
    ∃ c, L.foldlM insertVarbind empty = .ok c ∧ c.Keeps (· ∈ L) := by
  induction L using List.reverseRecOn with
  | nil => exact ⟨empty, rfl, keeps_empty.congr fun v => by simp⟩
  | append_singleton L v ih =>
    rw [List.pairwise_append] at horder
    obtain ⟨hL', hv⟩ : (∀ w ∈ L, w.WellFormed) ∧ v.WellFormed := by
      simpa [or_imp, forall_and] using hL
    obtain ⟨c, hc, hkeeps⟩ := ih hL' horder.1
    obtain ⟨c', hc', hkeeps'⟩ := hkeeps.insert hv fun w hw => horder.2.2 w hw v (by simp)
    refine ⟨c', ?_, hkeeps'.congr fun w => by simp⟩
    rw [List.foldlM_append, hc]
    show List.foldlM insertVarbind c [v] = _
    rw [List.foldlM_cons, hc']
    rfl

/-- The keys of names have a length. -/
theorem mapM_keyLength {es : List (VarbindItem × Varbind)} (h : ∀ e ∈ es, e.1 = .str e.2.key) :
    es.mapM (fun e => do return (← keyLength e.1, e.2)) =
      (.ok (es.map fun e => (e.2.key.length, e.2)) : Except PyError _) := by
  induction es with
  | nil => rfl
  | cons e es ih =>
    rw [List.forall_mem_cons] at h
    rw [List.mapM_cons, ih h.2, h.1]
    rfl

/-- Adding two containers of names inserts what both of them have, the shorter keys first. -/
theorem add_eq_foldlM (c c' : VarBindContainer)
    (h : ∀ k v, (c.map.update c'.map).get? k = some v → v.WellFormed ∧ k = .str v.key) :
    ∃ J : List Varbind, c.add c' = J.foldlM insertVarbind empty ∧
      (∀ v, v ∈ J ↔ ∃ k, (c.map.update c'.map).get? k = some v) ∧
      J.Pairwise fun v w => w ∉ v.parents := by
  have hentries : ∀ e ∈ (c.map.update c'.map).entries, e.2.WellFormed ∧ e.1 = .str e.2.key :=
    fun e he => h e.1 e.2 (Dict.mem_entries_iff.mp he)
  let keyed := (c.map.update c'.map).entries.map fun e => (e.2.key.length, e.2)
  let sorted := keyed.insertionSort fun a b => a.1 ≤ b.1
  have hrun : c.add c' = (sorted.map Prod.snd).foldlM insertVarbind empty := by
    unfold VarBindContainer.add
    dsimp only
    rw [mapM_keyLength fun e he => (hentries e he).2]
    rfl
  have hsortedMem : ∀ e ∈ sorted, e.2.WellFormed ∧ e.1 = e.2.key.length := by
    intro e he
    rw [List.mem_insertionSort, List.mem_map] at he
    obtain ⟨e', he', rfl⟩ := he
    exact ⟨(hentries e' he').1, rfl⟩
  refine ⟨sorted.map Prod.snd, hrun, ?_, ?_⟩
  · intro v
    simp only [sorted, keyed, List.mem_map, List.mem_insertionSort, ← Dict.mem_entries_iff]
    constructor
    · rintro ⟨_, ⟨e, he, rfl⟩, rfl⟩
      exact ⟨e.1, he⟩
    · rintro ⟨k, hk⟩
      exact ⟨_, ⟨(k, v), hk, rfl⟩, rfl⟩
  · have hsorted : sorted.Pairwise fun a b => a.1 ≤ b.1 := List.pairwise_insertionSort _ keyed
    rw [List.pairwise_map]
    refine hsorted.imp_of_mem fun {a b} ha hb hle hmem => ?_
    rw [(hsortedMem a ha).2, (hsortedMem b hb).2] at hle
    have hlt := Varbind.key_length_lt (hsortedMem a ha).1 hmem
    omega

/-- **Adding two containers**: the sum keeps of both sets together what nothing in either
covers. -/
theorem Keeps.add {c c' : VarBindContainer} {S S' : Varbind → Prop} (h : c.Keeps S)
    (h' : c'.Keeps S') : ∃ d, c.add c' = .ok d ∧ d.Keeps fun v => S v ∨ S' v := by
  have hwell : ∀ v, S v ∨ S' v → v.WellFormed := fun v hv =>
    hv.elim (h.wellFormed v) (h'.wellFormed v)
  have hentry : ∀ k v, (c.map.update c'.map).get? k = some v → (S v ∨ S' v) ∧ k = .str v.key := by
    intro k v hget
    rw [Dict.get?_update, Option.or_eq_some_iff] at hget
    rcases hget with hget | ⟨-, hget⟩
    · obtain ⟨hS, hk⟩ := h'.entries k v hget
      exact ⟨Or.inr hS, hk⟩
    · obtain ⟨hS, hk⟩ := h.entries k v hget
      exact ⟨Or.inl hS, hk⟩
  obtain ⟨J, hrun, hmemJ, horder⟩ := add_eq_foldlM c c' fun k v hget =>
    ⟨hwell v (hentry k v hget).1, (hentry k v hget).2⟩
  have hJwell : ∀ v ∈ J, v.WellFormed := by
    intro v hv
    obtain ⟨k, hk⟩ := (hmemJ v).mp hv
    exact hwell v (hentry k v hk).1
  obtain ⟨d, hd, hkeeps⟩ := keeps_insertAll J hJwell horder
  refine ⟨d, hrun.trans hd, hwell, ?_, ?_⟩
  · intro k
    -- what one set keeps is in the joined map under the same key
    have hjoined : ∀ v, (S v ∨ S' v) → (∀ u ∈ v.parents, ¬ (S u ∨ S' u)) →
        ∃ w ∈ J, w.key = v.key := by
      intro v hv hparents
      have hmem : .str v.key ∈ (c.map.update c'.map).keys := by
        rw [Dict.mem_keys_update]
        rcases hv with hv | hv
        · exact Or.inr ((h.keys _).mpr ⟨v, hv, fun u hu hS => hparents u hu (Or.inl hS), rfl⟩)
        · exact Or.inl ((h'.keys _).mpr ⟨v, hv, fun u hu hS => hparents u hu (Or.inr hS), rfl⟩)
      obtain ⟨w, hw⟩ := Dict.mem_keys_iff.mp hmem
      exact ⟨w, (hmemJ w).mpr ⟨_, hw⟩, (VarbindItem.str.inj (hentry _ w hw).2).symm⟩
    rw [hkeeps.keys]
    constructor
    · rintro ⟨v, hv, hparents, rfl⟩
      obtain ⟨k, hk⟩ := (hmemJ v).mp hv
      refine ⟨v, (hentry k v hk).1, fun u hu hSu => ?_, rfl⟩
      obtain ⟨t, ht, hSt, htop⟩ := Varbind.exists_top_parent (fun v => S v ∨ S' v) hu hSu
      obtain ⟨w, hw, hwkey⟩ := hjoined t hSt htop
      obtain rfl := Varbind.eq_of_key_eq (hwell t hSt) (hJwell w hw) hwkey.symm
        (Varbind.length_lt_of_mem_parents ht).2
      exact hparents w ht hw
    · rintro ⟨v, hv, hparents, rfl⟩
      obtain ⟨w, hw, hwkey⟩ := hjoined v hv hparents
      have hsame := Varbind.parents_eq_of_key_eq (hJwell w hw) (hwell v hv) hwkey
      refine ⟨w, hw, fun u hu huJ => ?_, by rw [hwkey]⟩
      obtain ⟨k, hk⟩ := (hmemJ u).mp huJ
      rw [hsame] at hu
      exact hparents u hu (hentry k u hk).1
  · intro k v hget
    obtain ⟨hv, hk⟩ := hkeeps.entries k v hget
    obtain ⟨k', hk'⟩ := (hmemJ v).mp hv
    exact ⟨(hentry k' v hk').1, hk⟩

/-- The check for a GET varbind: one of its general varbinds is there. -/
theorem areParentsInMap_eq (c : VarBindContainer) {v : Varbind} (hv : v.WellFormed)
    (hdivisible : v.Divisible) (hlong : 2 < v.length) :
    c.areParentsInMap (.str v.key) = .ok (decide (∃ u ∈ v.parents, .str u.key ∈ c.map)) := by
  cases hv with
  | mib hmib => simp at hlong
  | @object mib object index hmib hobject =>
    cases index with
    | nil => simp at hlong
    | cons i index =>
      obtain ⟨-, hinstance⟩ := hdivisible
      obtain ⟨key, root, field, hkey, hcut⟩ := hinstance hlong
      cases hkey
      obtain ⟨rest, hsplit, hrest⟩ := Varbind.splitDoubled_key hmib object (i :: index)
      -- the key splits into the MIB and what comes after it
      have hcut' : Text.splitDoubled ':'
        (Varbind.key (.str mib :: .str object :: i :: index)).toList =
          [root, field] := hcut
      rw [hsplit, List.cons.injEq] at hcut'
      obtain ⟨rfl, hfield⟩ := hcut'
      have hjoin := Text.intercalate_splitDoubled ':' (object.toList ++ rest)
      rw [hfield] at hjoin
      have hfield' : field = object.toList ++ rest := by simpa using hjoin
      have hparts : Text.splitDoubled ':'
          (VarbindItem.str (Varbind.key (.str mib :: .str object :: i :: index))).format.toList =
            [mib.toList, object.toList ++ rest] := by
        rw [← hfield', ← hfield]
        exact hsplit
      unfold areParentsInMap
      rw [hparts]
      simp only [Varbind.takeWhile_object hobject.1 (hrest.imp And.right And.right),
        String.ofList_toList]
      simp [Varbind.parents, Varbind.key, VarbindItem.format, Bool.decide_or]

end VarBindContainer

/-! ### Profiles -/

namespace Profile

/-- The profile walks the uncovered varbinds of one set and asks for those of another. -/
structure Asks (p : Profile) (B G : Varbind → Prop) : Prop where
  bulk : p.varbindsBulk.Keeps B
  get : p.varbindsGet.Keeps G
  short : ∀ v, B v → v.length < 3
  long : ∀ v, G v → 2 < v.length

/-- What a list of varbinds is divided into: the general ones. -/
def BulkOf (V : List Varbind) (v : Varbind) : Prop := v ∈ V ∧ v.length < 3

/-- And of those with an index, the ones that no general one covers. -/
def GetOf (V : List Varbind) (v : Varbind) : Prop :=
  v ∈ V ∧ 2 < v.length ∧ ∀ u ∈ v.parents, u ∉ V

section Append

variable {L : List Varbind} {v : Varbind}

theorem bulkOf_append_of_short (hshort : v.length < 3) (w : Varbind) :
    (BulkOf L w ∨ w = v) ↔ BulkOf (L ++ [v]) w := by
  simp only [BulkOf, List.mem_append, List.mem_singleton, or_and_right]
  exact or_congr_right ⟨fun h => ⟨h, h ▸ hshort⟩, And.left⟩

theorem bulkOf_append_of_long (hlong : 2 < v.length) (w : Varbind) :
    BulkOf L w ↔ BulkOf (L ++ [v]) w := by
  have hnot : ¬ (w = v ∧ w.length < 3) := by
    rintro ⟨rfl, hshort⟩
    omega
  simp only [BulkOf, List.mem_append, List.mem_singleton, or_and_right]
  exact (or_iff_left hnot).symm

/-- Before a general varbind there is none with an index. -/
theorem getOf_append_of_short (hmax : ∀ w ∈ L, w.length ≤ v.length) (hshort : v.length < 3)
    (w : Varbind) : GetOf L w ↔ GetOf (L ++ [v]) w := by
  have hnone : ∀ w ∈ L ++ [v], ¬ 2 < w.length := by
    intro w hw
    rw [List.mem_append, List.mem_singleton] at hw
    rcases hw with hw | rfl
    · have hle := hmax w hw
      omega
    · omega
  exact iff_of_false (fun h => hnone w (List.mem_append_left _ h.1) h.2.1)
    fun h => hnone w h.1 h.2.1

/-- A varbind with an index covers nothing. -/
theorem parents_append_of_long (hlong : 2 < v.length) (w : Varbind) :
    (∀ u ∈ w.parents, u ∉ L ++ [v]) ↔ ∀ u ∈ w.parents, u ∉ L := by
  refine forall₂_congr ?_
  intro u hu
  have hne : u ≠ v := by
    rintro rfl
    have hlt := Varbind.length_lt_of_mem_parents hu
    omega
  simp [hne]

theorem getOf_append_of_covered (hlong : 2 < v.length) (hthere : ∃ u ∈ v.parents, u ∈ L)
    (w : Varbind) : GetOf L w ↔ GetOf (L ++ [v]) w := by
  unfold GetOf
  rw [parents_append_of_long hlong, List.mem_append, List.mem_singleton]
  constructor
  · exact fun h => ⟨Or.inl h.1, h.2⟩
  · rintro ⟨hw | rfl, hlength, hnone⟩
    · exact ⟨hw, hlength, hnone⟩
    · obtain ⟨u, hu, huL⟩ := hthere
      exact absurd huL (hnone u hu)

theorem getOf_append_of_uncovered (hlong : 2 < v.length) (hthere : ¬ ∃ u ∈ v.parents, u ∈ L)
    (w : Varbind) : (GetOf L w ∨ w = v) ↔ GetOf (L ++ [v]) w := by
  unfold GetOf
  rw [parents_append_of_long hlong, List.mem_append, List.mem_singleton]
  constructor
  · rintro (h | rfl)
    · exact ⟨Or.inl h.1, h.2⟩
    · exact ⟨Or.inr rfl, hlong, fun u hu huL => hthere ⟨u, hu, huL⟩⟩
  · rintro ⟨hw | rfl, hrest⟩
    · exact Or.inl ⟨hw, hrest⟩
    · exact Or.inr rfl

end Append

/-- What becomes of a varbind with an index: one of its general varbinds is there, or it is asked
for. -/
theorem divideOne_of_long (p : Profile) {v : Varbind} (hv : v.WellFormed)
    (hdivisible : v.Divisible) (hlong : 2 < v.length) :
    divideOne p v = do
      if ∃ u ∈ v.parents, .str u.key ∈ p.varbindsBulk.map then return p
      else
        let varbindsGet ← p.varbindsGet.insertVarbind v
        return { p with varbindsGet } := by
  unfold divideOne
  rw [if_neg (by omega : ¬ v.length < 3), hv.mappingKey]
  simp only [bind, Except.bind, VarBindContainer.areParentsInMap_eq _ hv hdivisible hlong,
    decide_eq_true_eq]

/-- One round of `divide_on_bulk_and_get`, with a varbind no shorter than those before it. -/
theorem Asks.divideOne {p : Profile} {L : List Varbind} {v : Varbind}
    (hasks : p.Asks (BulkOf L) (GetOf L)) (hv : v.WellFormed) (hdivisible : v.Divisible)
    (hmax : ∀ w ∈ L, w.length ≤ v.length) :
    ∃ p', divideOne p v = .ok p' ∧ p'.Asks (BulkOf (L ++ [v])) (GetOf (L ++ [v])) ∧
      p' = { p with varbindsBulk := p'.varbindsBulk, varbindsGet := p'.varbindsGet } := by
  -- the new varbind is not shorter than another one, so it covers none
  have hafter : ∀ w ∈ L, v ∉ w.parents := by
    intro w hw hmem
    have hlt := Varbind.length_lt_of_mem_parents hmem
    have hle := hmax w hw
    omega
  by_cases hshort : v.length < 3
  · obtain ⟨c, hc, hkeeps⟩ := hasks.bulk.insert hv fun w hw => hafter w hw.1
    refine ⟨{ p with varbindsBulk := c }, ?_, ⟨hkeeps.congr (bulkOf_append_of_short hshort),
      hasks.get.congr (getOf_append_of_short hmax hshort), fun w hw => hw.2,
      fun w hw => hw.2.1⟩, rfl⟩
    unfold Profile.divideOne
    rw [if_pos hshort, hc]
    rfl
  · have hlong : 2 < v.length := by omega
    have hbulk := hasks.bulk.congr (bulkOf_append_of_long hlong)
    have hcovered : (∃ u ∈ v.parents, .str u.key ∈ p.varbindsBulk.map) ↔
        ∃ u ∈ v.parents, u ∈ L := by
      rw [hasks.bulk.exists_parent_iff hv]
      refine exists_congr fun u => and_congr_right fun hu => ?_
      exact and_iff_left (Varbind.length_lt_of_mem_parents hu).2
    rw [divideOne_of_long p hv hdivisible hlong]
    by_cases hthere : ∃ u ∈ v.parents, u ∈ L
    · refine ⟨p, ?_, ⟨hbulk, hasks.get.congr (getOf_append_of_covered hlong hthere),
        fun w hw => hw.2, fun w hw => hw.2.1⟩, rfl⟩
      rw [if_pos (hcovered.mpr hthere)]
      rfl
    · obtain ⟨c, hc, hkeeps⟩ := hasks.get.insert hv fun w hw => hafter w hw.1
      refine ⟨{ p with varbindsGet := c }, ?_, ⟨hbulk,
        hkeeps.congr (getOf_append_of_uncovered hlong hthere), fun w hw => hw.2,
        fun w hw => hw.2.1⟩, rfl⟩
      rw [if_neg (hcovered.not.mpr hthere), hc]
      rfl

/-- The loop of `divide_on_bulk_and_get`, the shorter varbinds first. -/
theorem asks_divide {p : Profile} (hbulk : p.varbindsBulk = .empty) (hget : p.varbindsGet = .empty)
    (L : List Varbind) (hL : ∀ v ∈ L, v.WellFormed ∧ v.Divisible)
    (hsorted : L.Pairwise fun v w => v.length ≤ w.length) :
    ∃ p', L.foldlM divideOne p = .ok p' ∧ p'.Asks (BulkOf L) (GetOf L) ∧
      p' = { p with varbindsBulk := p'.varbindsBulk, varbindsGet := p'.varbindsGet } := by
  induction L using List.reverseRecOn with
  | nil =>
    refine ⟨p, rfl, ⟨?_, ?_, fun v hv => ?_, fun v hv => ?_⟩, rfl⟩
    · rw [hbulk]
      exact VarBindContainer.keeps_empty.congr fun v => by simp [BulkOf]
    · rw [hget]
      exact VarBindContainer.keeps_empty.congr fun v => by simp [GetOf]
    · exact absurd hv.1 List.not_mem_nil
    · exact absurd hv.1 List.not_mem_nil
  | append_singleton L v ih =>
    rw [List.pairwise_append] at hsorted
    obtain ⟨hv, hdivisible⟩ := hL v (by simp)
    obtain ⟨p', hp', hasks, hframe⟩ := ih (fun w hw => hL w (List.mem_append_left _ hw)) hsorted.1
    have hmax : ∀ w ∈ L, w.length ≤ v.length := fun w hw => hsorted.2.2 w hw v (by simp)
    obtain ⟨p'', hstep, hasks', hframe'⟩ := hasks.divideOne hv hdivisible hmax
    refine ⟨p'', ?_, hasks', ?_⟩
    · rw [List.foldlM_append, hp']
      show List.foldlM divideOne p' [v] = .ok p''
      rw [List.foldlM_cons, hstep]
      rfl
    · rw [hframe', hframe]

/-- The varbinds that processing divides: those of the profile, and first the system group if it is
a walk profile. -/
def dividedVarbinds (body : ProfileBody) (V : List Varbind) : List Varbind :=
  if body.conditionType = some "walk" then [.str "SNMPv2-MIB"] :: V else V

/-- Processing is one loop over all these varbinds, and the mapping after it. -/
theorem process_eq {name : String} {body : ProfileBody} {V : List Varbind}
    (hvarbinds : body.varBinds = some V) :
    (new name body).process = do
      let divided ← (dividedVarbinds body (V.insertionSort fun a b => a.length ≤ b.length)).foldlM
        divideOne (new name body)
      return divided.mapProfile := by
  unfold process startWalk dividedVarbinds
  have hnew : (new name body).type = body.conditionType := rfl
  rw [hnew]
  split
  · -- the system group is the first varbind
    rw [List.foldlM_cons, divideOne, if_pos (by decide)]
    simp only [bind_assoc, pure_bind]
    refine bind_congr fun c => ?_
    unfold divideOnBulkAndGet new
    simp only [hvarbinds]
  · simp only [pure_bind]
    unfold divideOnBulkAndGet new
    simp only [hvarbinds]

/-- **Processing a profile** divides its varbinds. -/
theorem exists_divided {name : String} {body : ProfileBody} {V : List Varbind} {p : Profile}
    (hvarbinds : body.varBinds = some V) (hV : ∀ v ∈ V, v.WellFormed)
    (h : (new name body).process = .ok p) :
    ∃ divided : Profile, p = divided.mapProfile ∧
      divided.Asks (BulkOf (dividedVarbinds body V)) (GetOf (dividedVarbinds body V)) ∧
      divided = { new name body with
        varbindsBulk := divided.varbindsBulk, varbindsGet := divided.varbindsGet } := by
  obtain ⟨V', hV', hdivisible⟩ := (process_returns_iff name body).mp ⟨p, h⟩
  cases hvarbinds.symm.trans hV'
  set sorted := V.insertionSort fun a b => a.length ≤ b.length with hsortedDef
  have hmem : ∀ v, v ∈ dividedVarbinds body sorted ↔ v ∈ dividedVarbinds body V := by
    intro v
    unfold dividedVarbinds
    split <;> simp [hsortedDef, List.mem_insertionSort]
  have hsorted : sorted.Pairwise fun v w => v.length ≤ w.length := List.pairwise_insertionSort _ V
  have hdividedSorted : (dividedVarbinds body sorted).Pairwise fun v w => v.length ≤ w.length := by
    unfold dividedVarbinds
    split
    · refine List.pairwise_cons.mpr ⟨fun w hw => ?_, hsorted⟩
      exact List.length_pos_iff.mpr (hdivisible w ((List.mem_insertionSort _).mp hw)).1
    · exact hsorted
  have hall : ∀ v ∈ dividedVarbinds body sorted, v.WellFormed ∧ v.Divisible := by
    intro v hv
    rw [hmem] at hv
    unfold dividedVarbinds at hv
    split at hv
    · rcases List.mem_cons.mp hv with rfl | hv
      · exact ⟨.mib ⟨⟨by decide, by decide⟩, by decide⟩, by decide, fun h => absurd h (by decide)⟩
      · exact ⟨hV v hv, hdivisible v hv⟩
    · exact ⟨hV v hv, hdivisible v hv⟩
  obtain ⟨divided, hdivided, hasks, hframe⟩ := asks_divide (p := new name body) rfl rfl _ hall
    hdividedSorted
  rw [process_eq hvarbinds, hdivided] at h
  refine ⟨divided, (Except.ok.inj h).symm, ⟨?_, ?_, fun v hv => hv.2, fun v hv => hv.2.1⟩,
    hframe⟩
  · exact hasks.bulk.congr fun v => and_congr_left fun _ => hmem v
  · refine hasks.get.congr ?_
    intro v
    unfold GetOf
    simp only [hmem]

/-- **Processing a profile that is no walk profile** divides its varbinds. -/
theorem asks_process {name : String} {body : ProfileBody} {V : List Varbind} {p : Profile}
    (hwalk : body.conditionType ≠ some "walk") (hvarbinds : body.varBinds = some V)
    (hV : ∀ v ∈ V, v.WellFormed) (h : (new name body).process = .ok p) :
    p.Asks (BulkOf V) (GetOf V) ∧ p.varbinds = some V ∧ p.type ≠ some "walk" := by
  obtain ⟨divided, rfl, hasks, hframe⟩ := exists_divided hvarbinds hV h
  have hV' : dividedVarbinds body V = V := if_neg hwalk
  rw [hV'] at hasks
  have htype : divided.type = body.conditionType := by rw [hframe]; rfl
  have hmap : divided.mapProfile = { divided with
      varbindsBulkMapping := divided.varbindsBulk.getProfileMapping divided.name
      varbindsGetMapping := divided.varbindsGet.getProfileMapping divided.name } :=
    if_neg (htype ▸ hwalk)
  rw [hmap]
  refine ⟨⟨hasks.bulk, hasks.get, hasks.short, hasks.long⟩, ?_, htype ▸ hwalk⟩
  show divided.varbinds = some V
  rw [hframe]
  exact hvarbinds

/-- **Adding two profiles** adds what they ask for. -/
theorem Asks.add {p q : Profile} {B B' G G' : Varbind → Prop} (hp : p.Asks B G)
    (hq : q.Asks B' G') :
    ∃ r, p.add q = .ok r ∧ r.Asks (fun v => B v ∨ B' v) fun v => G v ∨ G' v := by
  obtain ⟨bulk, hbulk, hbulkKeeps⟩ := hp.bulk.add hq.bulk
  obtain ⟨get, hget, hgetKeeps⟩ := hp.get.add hq.get
  refine ⟨_, PyError.bind_eq_ok.mpr ⟨bulk, hbulk, PyError.bind_eq_ok.mpr ⟨get, hget, rfl⟩⟩,
    hbulkKeeps, hgetKeeps, fun v hv => hv.elim (hp.short v) (hq.short v),
    fun v hv => hv.elim (hp.long v) (hq.long v)⟩

end Profile

/-! ### Answers of the collection -/

namespace PollingInfo

/-- The keys that are walked. -/
def bulkKeys : PollingInfo → List VarbindItem
  | profile p => p.varbindsBulk.map.keys
  | _ => []

/-- The keys that are asked for. -/
def getKeys : PollingInfo → List VarbindItem
  | profile p => p.varbindsGet.map.keys
  | _ => []

/-- What an answer asks for; one that is no profile asks for nothing. -/
def Asks : PollingInfo → (Varbind → Prop) → (Varbind → Prop) → Prop
  | profile p, B, G => p.Asks B G
  | _, B, G => (∀ v, ¬ B v) ∧ ∀ v, ¬ G v

theorem Asks.congr {info : PollingInfo} {B B' G G' : Varbind → Prop} (h : info.Asks B G)
    (hB : ∀ v, B v ↔ B' v) (hG : ∀ v, G v ↔ G' v) : info.Asks B' G' := by
  obtain rfl : B = B' := funext fun v => propext (hB v)
  obtain rfl : G = G' := funext fun v => propext (hG v)
  exact h

theorem Asks.bulkKeys {info : PollingInfo} {B G : Varbind → Prop} (h : info.Asks B G)
    (k : VarbindItem) :
    k ∈ info.bulkKeys ↔ ∃ v, B v ∧ (∀ u ∈ v.parents, ¬ B u) ∧ k = .str v.key := by
  cases info with
  | profile p => exact h.bulk.keys k
  | nothing => exact iff_of_false List.not_mem_nil fun ⟨v, hv, _⟩ => h.1 v hv
  | none => exact iff_of_false List.not_mem_nil fun ⟨v, hv, _⟩ => h.1 v hv

theorem Asks.getKeys {info : PollingInfo} {B G : Varbind → Prop} (h : info.Asks B G)
    (k : VarbindItem) : k ∈ info.getKeys ↔ ∃ v, G v ∧ k = .str v.key := by
  cases info with
  | profile p =>
    refine (h.get.keys k).trans (exists_congr fun v => and_congr_right fun _ => ?_)
    refine and_iff_right ?_
    intro u hu hG
    have hlong := h.long u hG
    have hshort := Varbind.length_lt_of_mem_parents hu
    omega
  | nothing => exact iff_of_false List.not_mem_nil fun ⟨v, hv, _⟩ => h.2 v hv
  | none => exact iff_of_false List.not_mem_nil fun ⟨v, hv, _⟩ => h.2 v hv

end PollingInfo

namespace ProfileCollection

/-- Combining two answers adds what they ask for. -/
theorem asks_combineProfiles {info info' : PollingInfo} {B B' G G' : Varbind → Prop}
    (h : info.Asks B G) (h' : info'.Asks B' G') :
    ∃ r, combineProfiles info info' = .ok r ∧ r.Asks (fun v => B v ∨ B' v) fun v => G v ∨ G' v := by
  have hleft : (∀ v, ¬ B' v) ∧ (∀ v, ¬ G' v) →
      info.Asks (fun v => B v ∨ B' v) fun v => G v ∨ G' v := fun hnone =>
    h.congr (fun v => (or_iff_left (hnone.1 v)).symm) fun v => (or_iff_left (hnone.2 v)).symm
  have hright : (∀ v, ¬ B v) ∧ (∀ v, ¬ G v) →
      info'.Asks (fun v => B v ∨ B' v) fun v => G v ∨ G' v := fun hnone =>
    h'.congr (fun v => (or_iff_right (hnone.1 v)).symm) fun v => (or_iff_right (hnone.2 v)).symm
  have hneither : (∀ v, ¬ B v) ∧ (∀ v, ¬ G v) → (∀ v, ¬ B' v) ∧ (∀ v, ¬ G' v) →
      PollingInfo.none.Asks (fun v => B v ∨ B' v) fun v => G v ∨ G' v := fun hnone hnone' =>
    ⟨fun v => not_or.mpr ⟨hnone.1 v, hnone'.1 v⟩, fun v => not_or.mpr ⟨hnone.2 v, hnone'.2 v⟩⟩
  cases info with
  | profile p =>
    cases info' with
    | profile q =>
      obtain ⟨r, hr, hasks⟩ := Profile.Asks.add h h'
      exact ⟨.profile r, PyError.bind_eq_ok.mpr ⟨r, hr, rfl⟩, hasks⟩
    | nothing => exact ⟨_, rfl, hleft h'⟩
    | none => exact ⟨_, rfl, hleft h'⟩
  | nothing =>
    cases info' with
    | profile q => exact ⟨_, rfl, hright h⟩
    | nothing => exact ⟨_, rfl, hneither h h'⟩
    | none => exact ⟨_, rfl, hneither h h'⟩
  | none =>
    cases info' with
    | profile q => exact ⟨_, rfl, hright h⟩
    | nothing => exact ⟨_, rfl, hneither h h'⟩
    | none => exact ⟨_, rfl, hneither h h'⟩

/-- **Combining a list of answers** adds up what they ask for. -/
theorem asks_foldlM {α : Type} (ask : α → PollingInfo) (B G : α → Varbind → Prop) (as : List α)
    (has : ∀ a ∈ as, (ask a).Asks (B a) (G a)) (info : PollingInfo) (B₀ G₀ : Varbind → Prop)
    (h : info.Asks B₀ G₀) :
    ∃ r, (as.map ask).foldlM combineProfiles info = .ok r ∧
      r.Asks (fun v => B₀ v ∨ ∃ a ∈ as, B a v) fun v => G₀ v ∨ ∃ a ∈ as, G a v := by
  induction as generalizing info B₀ G₀ with
  | nil => exact ⟨info, rfl, h.congr (fun v => by simp) fun v => by simp⟩
  | cons a as ih =>
    rw [List.forall_mem_cons] at has
    obtain ⟨r, hr, hasks⟩ := asks_combineProfiles h has.1
    obtain ⟨r', hr', hasks'⟩ := ih has.2 r _ _ hasks
    refine ⟨r', ?_, hasks'.congr (fun v => ?_) fun v => ?_⟩
    · rw [List.map_cons, List.foldlM_cons, hr]
      exact hr'
    · rw [List.exists_mem_cons_iff, or_assoc]
    · rw [List.exists_mem_cons_iff, or_assoc]

/-- The profile is no walk profile, and its varbinds are names. -/
structure WellFormedBody (body : ProfileBody) : Prop where
  notWalk : body.conditionType ≠ some "walk"
  names : ∀ V, body.varBinds = some V → ∀ v ∈ V, Varbind.WellFormed v

/-- The varbinds of a profile of a configuration. -/
def varbindsOf (config : Dict String ProfileBody) (name : String) : List Varbind :=
  ((config.get? name).bind ProfileBody.varBinds).getD []

section Combined

variable {config : Dict String ProfileBody} {c : ProfileCollection}

/-- The answer for one name asks for the varbinds of its profile. -/
theorem asks_getProfile (h : build config = (c, .ok ())) {name : String} {body : ProfileBody}
    (hbody : config.get? name = some body) (hwell : WellFormedBody body) :
    (c.getProfile name).Asks (Profile.BulkOf (varbindsOf config name))
      (Profile.GetOf (varbindsOf config name)) := by
  obtain ⟨hall, -, hprofiles⟩ := build_iff config c h
  obtain ⟨V, hV, hdivisible⟩ := hall name body hbody
  obtain ⟨p, hp⟩ := (Profile.process_returns_iff name body).mpr ⟨V, hV, hdivisible⟩
  have hvarbinds : varbindsOf config name = V := by simp [varbindsOf, hbody, hV]
  obtain ⟨hasks, hpV, hptype⟩ := Profile.asks_process hwell.notWalk hV (hwell.names V hV) hp
  have hget : c.listOfProfiles.get? name = some p := by
    rw [hprofiles, processedProfile, hbody]
    show (Profile.new name body).process.toOption = _
    rw [hp]
    rfl
  rw [hvarbinds]
  unfold getProfile
  rw [hget]
  dsimp only
  -- a profile without varbinds is not answered
  split
  · next hnone =>
    have hnil : V = [] := by
      have hempty := hnone.1
      rw [hpV] at hempty
      exact List.isEmpty_iff.mp hempty
    subst hnil
    exact ⟨fun v hv => List.not_mem_nil hv.1, fun v hv => List.not_mem_nil hv.1⟩
  · exact hasks

/-- The answer for several names asks for what each of their profiles does. -/
theorem asks_getPollingInfo (h : build config = (c, .ok ())) {names : List String}
    (hnames : ∀ name ∈ names, ∃ body, config.get? name = some body ∧ WellFormedBody body)
    (hne : names ≠ []) :
    ∃ info, c.getPollingInfoFromProfiles names false = .ok info ∧
      info.Asks (fun v => ∃ name ∈ names, Profile.BulkOf (varbindsOf config name) v)
        fun v => ∃ name ∈ names, Profile.GetOf (varbindsOf config name) v := by
  have hask : ∀ name ∈ names, (c.getProfile name).Asks (Profile.BulkOf (varbindsOf config name))
      (Profile.GetOf (varbindsOf config name)) := by
    intro name hname
    obtain ⟨body, hbody, hwell⟩ := hnames name hname
    exact asks_getProfile h hbody hwell
  cases names with
  | nil => exact absurd rfl hne
  | cons name names =>
    rw [List.forall_mem_cons] at hask
    obtain ⟨r, hr, hasks⟩ := asks_foldlM c.getProfile _ _ names hask.2 _ _ _ hask.1
    refine ⟨r, (getPollingInfoFromProfiles_cons c name names).trans hr,
      hasks.congr (fun v => ?_) fun v => ?_⟩
    · rw [List.exists_mem_cons_iff]
    · rw [List.exists_mem_cons_iff]

/-- The profile with the varbinds of all the named ones. -/
def concatenated (config : Dict String ProfileBody) (names : List String) : ProfileBody :=
  { varBinds := some (names.flatMap (varbindsOf config)) }

theorem wellFormed_of_mem_flatMap (h : build config = (c, .ok ())) {names : List String}
    (hnames : ∀ name ∈ names, ∃ body, config.get? name = some body ∧ WellFormedBody body)
    {v : Varbind} (hv : v ∈ names.flatMap (varbindsOf config)) : v.WellFormed ∧ v.Divisible := by
  obtain ⟨hall, -, -⟩ := build_iff config c h
  obtain ⟨name, hname, hv⟩ := List.mem_flatMap.mp hv
  obtain ⟨body, hbody, hwell⟩ := hnames name hname
  obtain ⟨V, hV, hdivisible⟩ := hall name body hbody
  have heq : varbindsOf config name = V := by simp [varbindsOf, hbody, hV]
  rw [heq] at hv
  exact ⟨hwell.names V hV v hv, hdivisible v hv⟩

/-- The single profile with all the varbinds. -/
theorem asks_concatenated (h : build config = (c, .ok ())) {names : List String}
    (hnames : ∀ name ∈ names, ∃ body, config.get? name = some body ∧ WellFormedBody body)
    (wholeName : String) :
    ∃ whole, (Profile.new wholeName (concatenated config names)).process = .ok whole ∧
      (PollingInfo.profile whole).Asks (Profile.BulkOf (names.flatMap (varbindsOf config)))
        (Profile.GetOf (names.flatMap (varbindsOf config))) := by
  obtain ⟨whole, hwhole⟩ := (Profile.process_returns_iff wholeName (concatenated config names)).mpr
    ⟨_, rfl, fun v hv => (wellFormed_of_mem_flatMap h hnames hv).2⟩
  have hnotWalk : (concatenated config names).conditionType ≠ some "walk" := by
    simp [concatenated, ProfileBody.conditionType]
  exact ⟨whole, hwhole, (Profile.asks_process hnotWalk rfl
    (fun v hv => (wellFormed_of_mem_flatMap h hnames hv).1) hwhole).1⟩

theorem bulkOf_flatMap_iff (names : List String) (v : Varbind) :
    Profile.BulkOf (names.flatMap (varbindsOf config)) v ↔
      ∃ name ∈ names, Profile.BulkOf (varbindsOf config name) v := by
  unfold Profile.BulkOf
  rw [List.mem_flatMap]
  constructor
  · rintro ⟨⟨name, hname, hv⟩, hshort⟩
    exact ⟨name, hname, hv, hshort⟩
  · rintro ⟨name, hname, hv, hshort⟩
    exact ⟨⟨name, hname, hv⟩, hshort⟩

/-- **Profiles polled together are as one**: they request what a single profile with all
their varbinds requests, nothing that one of its general varbinds covers, and the same in
every order. -/
structure CombinesAsOne (c : ProfileCollection) (config : Dict String ProfileBody)
    (names : List String) (wholeName : String) : Prop where
  same : ∃ info whole, c.getPollingInfoFromProfiles names false = .ok info ∧
    (Profile.new wholeName (concatenated config names)).process = .ok whole ∧
    (∀ k, k ∈ info.bulkKeys ↔ k ∈ whole.varbindsBulk.map) ∧
    ∀ k, k ∈ info.getKeys ↔ k ∈ whole.varbindsGet.map
  uncovered : ∀ info, c.getPollingInfoFromProfiles names false = .ok info →
    ∀ v ∈ names.flatMap (varbindsOf config), 2 < v.length → .str v.key ∈ info.getKeys →
      ∀ u ∈ v.parents, u ∉ names.flatMap (varbindsOf config)
  order : ∀ names', names'.Perm names → ∃ info info',
    c.getPollingInfoFromProfiles names false = .ok info ∧
    c.getPollingInfoFromProfiles names' false = .ok info' ∧
    (∀ k, k ∈ info'.bulkKeys ↔ k ∈ info.bulkKeys) ∧ ∀ k, k ∈ info'.getKeys ↔ k ∈ info.getKeys

/-- A GET varbind that a general varbind of one of the profiles covers is covered by one of
its own profile. -/
def NoneCovered (config : Dict String ProfileBody) (names : List String) : Prop :=
  ∀ name ∈ names, ∀ other ∈ names, ∀ v ∈ varbindsOf config name, 2 < v.length →
    (∃ u ∈ v.parents, u ∈ varbindsOf config other) → ∃ u ∈ v.parents, u ∈ varbindsOf config name

/-- Without a varbind covered by another profile alone, the single profile asks for what each
one asks for. -/
theorem getOf_flatMap_iff {names : List String} (hnone : NoneCovered config names) (v : Varbind) :
    Profile.GetOf (names.flatMap (varbindsOf config)) v ↔
      ∃ name ∈ names, Profile.GetOf (varbindsOf config name) v := by
  unfold Profile.GetOf
  constructor
  · rintro ⟨hv, hlong, huncovered⟩
    obtain ⟨name, hname, hv⟩ := List.mem_flatMap.mp hv
    exact ⟨name, hname, hv, hlong, fun u hu huV =>
      huncovered u hu (List.mem_flatMap.mpr ⟨name, hname, huV⟩)⟩
  · rintro ⟨name, hname, hv, hlong, huncovered⟩
    refine ⟨List.mem_flatMap.mpr ⟨name, hname, hv⟩, hlong, fun u hu huV => ?_⟩
    obtain ⟨other, hother, huother⟩ := List.mem_flatMap.mp huV
    obtain ⟨t, ht, htV⟩ := hnone name hname other hother v hv hlong ⟨u, hu, huother⟩
    exact huncovered t ht htV

/-- **Profiles polled together are as one exactly when no GET varbind of one is covered by
another alone**, and there is a profile at all. -/
theorem combinesAsOne_iff (config : Dict String ProfileBody) (c : ProfileCollection)
    (h : build config = (c, .ok ())) (names : List String)
    (hnames : ∀ name ∈ names, ∃ body, config.get? name = some body ∧ WellFormedBody body)
    (wholeName : String) :
    CombinesAsOne c config names wholeName ↔ names ≠ [] ∧ NoneCovered config names := by
  obtain ⟨whole, hwhole, hwholeAsks⟩ := asks_concatenated h hnames wholeName
  have hwell : ∀ v ∈ names.flatMap (varbindsOf config), v.WellFormed := fun v hv =>
    (wellFormed_of_mem_flatMap h hnames hv).1
  constructor
  · rintro ⟨⟨info, whole', hinfo, hwhole', -, hget⟩, -, -⟩
    cases hwhole.symm.trans hwhole'
    have hne : names ≠ [] := by
      rintro rfl
      cases hinfo
    refine ⟨hne, fun name hname other hother v hv hlong => ?_⟩
    rintro ⟨u, hu, huother⟩
    by_contra hown
    -- its own profile asks for it, so the single one does: then nothing covers it
    obtain ⟨info', hinfo', hasks⟩ := asks_getPollingInfo h hnames hne
    cases hinfo.symm.trans hinfo'
    have hasked : .str v.key ∈ info.getKeys := by
      rw [hasks.getKeys]
      exact ⟨v, ⟨name, hname, hv, hlong, fun t ht htown => hown ⟨t, ht, htown⟩⟩, rfl⟩
    obtain ⟨w, ⟨hw, hwlong, hwnone⟩, hkey⟩ := (hwholeAsks.getKeys _).mp ((hget _).mp hasked)
    have hvflat := List.mem_flatMap.mpr ⟨name, hname, hv⟩
    have hparents := Varbind.parents_eq_of_key_eq (hwell v hvflat) (hwell w hw)
      (VarbindItem.str.inj hkey)
    rw [hparents] at hu
    exact hwnone u hu (List.mem_flatMap.mpr ⟨other, hother, huother⟩)
  · rintro ⟨hne, hnone⟩
    obtain ⟨info, hinfo, hasks⟩ := asks_getPollingInfo h hnames hne
    have hinfoAsks : info.Asks (Profile.BulkOf (names.flatMap (varbindsOf config)))
        (Profile.GetOf (names.flatMap (varbindsOf config))) :=
      hasks.congr (fun v => (bulkOf_flatMap_iff names v).symm) fun v =>
        (getOf_flatMap_iff hnone v).symm
    refine ⟨⟨info, whole, hinfo, hwhole, fun k => ?_, fun k => ?_⟩, ?_, ?_⟩
    · rw [hinfoAsks.bulkKeys, ← hwholeAsks.bulkKeys]
      rfl
    · rw [hinfoAsks.getKeys, ← hwholeAsks.getKeys]
      rfl
    · intro info' hinfo' v hv hlong hasked u hu huflat
      cases hinfo.symm.trans hinfo'
      obtain ⟨w, ⟨hw, hwlong, hwnone⟩, hkey⟩ := (hinfoAsks.getKeys _).mp hasked
      have hparents := Varbind.parents_eq_of_key_eq (hwell v hv) (hwell w hw)
        (VarbindItem.str.inj hkey)
      rw [hparents] at hu
      exact hwnone u hu huflat
    · intro names' hperm
      have hnames' : ∀ name ∈ names', ∃ body, config.get? name = some body ∧ WellFormedBody body :=
        fun name hname => hnames name (hperm.mem_iff.mp hname)
      have hne' : names' ≠ [] := fun hnil => by
        subst hnil
        exact hne (List.nil_perm.mp hperm)
      obtain ⟨info', hinfo', hasks'⟩ := asks_getPollingInfo h hnames' hne'
      have hasks'' := hasks'.congr (fun v => exists_congr fun name => and_congr_left fun _ =>
        hperm.mem_iff) fun v => exists_congr fun name => and_congr_left fun _ => hperm.mem_iff
      refine ⟨info, info', hinfo, hinfo', ?_, ?_⟩
      · intro k
        rw [hasks''.bulkKeys, hasks.bulkKeys]
      · intro k
        rw [hasks''.getKeys, hasks.getKeys]

end Combined

/-! ### A profile that walks what another one asks for -/

/-- The name of the MIB both profiles poll. -/
theorem mibName_ifMib : MibName "IF-MIB" := ⟨⟨by decide, by decide⟩, by decide⟩

/-- One profile walks a MIB, the other asks for an instance in it. -/
def overlappingConfig : Dict String ProfileBody :=
  Dict.ofList [("walked", { varBinds := some [[.str "IF-MIB"]] }),
    ("asked", { varBinds := some [[.str "IF-MIB", .str "ifDescr", .int 1]] })]

theorem overlappingConfig_wellFormed :
    ∀ name ∈ ["walked", "asked"], ∃ body, overlappingConfig.get? name = some body ∧
      WellFormedBody body := by
  intro name hname
  simp only [List.mem_cons, List.not_mem_nil, or_false] at hname
  rcases hname with rfl | rfl
  · refine ⟨{ varBinds := some [[.str "IF-MIB"]] }, by rfl, by decide, fun V hV v hv => ?_⟩
    cases hV
    rw [List.mem_singleton] at hv
    subst hv
    exact .mib mibName_ifMib
  · refine ⟨{ varBinds := some [[.str "IF-MIB", .str "ifDescr", .int 1]] }, by rfl, by decide,
      fun V hV v hv => ?_⟩
    cases hV
    rw [List.mem_singleton] at hv
    subst hv
    exact .object mibName_ifMib ⟨by decide, by decide⟩

theorem combinesAsOne_iff_overlapping :
    CombinesAsOne (build overlappingConfig).1 overlappingConfig ["walked", "asked"] "whole" ↔
      ["walked", "asked"] ≠ [] ∧ NoneCovered overlappingConfig ["walked", "asked"] :=
  combinesAsOne_iff overlappingConfig (build overlappingConfig).1 (by rfl) ["walked", "asked"]
    overlappingConfig_wellFormed "whole"

/-- The instance is asked for although the whole MIB is walked. -/
theorem combinesAsOne_fails :
    ¬ ∀ (config : Dict String ProfileBody) (c : ProfileCollection) (names : List String)
      (wholeName : String), build config = (c, .ok ()) →
      (∀ name ∈ names, ∃ body, config.get? name = some body ∧ WellFormedBody body) →
      CombinesAsOne c config names wholeName := by
  intro hclaim
  have hone := hclaim overlappingConfig (build overlappingConfig).1 ["walked", "asked"] "whole"
    (by rfl) overlappingConfig_wellFormed
  obtain ⟨info, whole, hinfo, -⟩ := hone.same
  have hasked : (getPollingInfoFromProfiles (build overlappingConfig).1 ["walked", "asked"]
      false).map PollingInfo.getKeys = .ok [.str "IF-MIB::ifDescr.1"] := by decide
  rw [hinfo] at hasked
  have hkeys : info.getKeys = [.str "IF-MIB::ifDescr.1"] := Except.ok.inj hasked
  have hmem : .str (Varbind.key [.str "IF-MIB", .str "ifDescr", .int 1]) ∈ info.getKeys := by
    rw [hkeys]
    decide
  exact hone.uncovered info hinfo [.str "IF-MIB", .str "ifDescr", .int 1] (by decide) (by decide)
    hmem [.str "IF-MIB"] (by decide) (by decide)

end ProfileCollection

end Sc4snmp
