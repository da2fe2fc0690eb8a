import Sc4snmp.Snmp.Poll

/-!
# The merged mapping of a poll

The profiles polled together are merged into one mapping from keys to texts, and a text
names the profiles that ask under its key, in the order they are polled.  A metric takes
the text of the most special key it is found under.  The name of a generated profile ends
in two underscores and an address, and the text is cut at its first two underscores: that
takes the address off the first generated profile, and the profiles after it away.

## Main definitions

* `reportedUpTo` — the names of a list of profiles that are left of their text.
* `namesUnder`, `MergedMapping` — the profiles that ask under a key, and the mapping that
  names them.
* `lookupKey` — the key a metric is found under.
* `shownNames` — the names a metric shows.

## Main results

* `cleanProfileName_intercalate` — cutting the text of several names.
* `joins_getPollingInfo` — the profile that is polled has the merged mapping.
* `setProfileName_merged` — **the text of a metric is that of the names it shows**.
-/

namespace Sc4snmp

/-! ### Names in a text -/

/-- What is left of the names of a text when it is cut at its first two underscores. -/
def reportedUpTo : List String → List String
  | [] => []
  | name :: names =>
    if ProfileCollection.isProfileConditional name then [cleanProfileName name]
    else name :: reportedUpTo names

/-- A profile name that can be told from a text: it has no comma, and a base. -/
def ReportableName (name : String) : Prop := ',' ∉ name.toList ∧ cleanProfileName name ≠ ""

theorem cleanProfileName_toList (name : String) :
    (Text.splitDoubled '_' name.toList).head? = some (cleanProfileName name).toList := by
  unfold cleanProfileName
  cases hsplit : Text.splitDoubled '_' name.toList with
  | nil => exact absurd hsplit (Text.splitDoubled_ne_nil _ _)
  | cons w ws => simp

theorem splitDoubled_of_not_conditional {name : String}
    (h : ¬ ProfileCollection.isProfileConditional name = true) :
    Text.splitDoubled '_' name.toList = [name.toList] := by
  have hjoined := Text.intercalate_splitDoubled '_' name.toList
  unfold ProfileCollection.isProfileConditional at h
  rw [decide_eq_true_iff] at h
  cases hsplit : Text.splitDoubled '_' name.toList with
  | nil => exact absurd hsplit (Text.splitDoubled_ne_nil _ _)
  | cons w ws =>
    rw [hsplit, List.length_cons] at h
    obtain rfl : ws = [] := List.length_eq_zero_iff.mp (by omega)
    rw [hsplit, List.intercalate_singleton] at hjoined
    rw [hjoined]

theorem cleanProfileName_of_not_conditional {name : String}
    (h : ¬ ProfileCollection.isProfileConditional name = true) : cleanProfileName name = name := by
  have hclean := cleanProfileName_toList name
  rw [splitDoubled_of_not_conditional h, List.head?_cons, Option.some.injEq] at hclean
  exact String.toList_injective hclean.symm

/-- **Cutting the text of several names** leaves those up to the first generated one. -/
theorem cleanProfileName_intercalate {names : List String} (hne : names ≠ []) :
    cleanProfileName (",".intercalate names) = ",".intercalate (reportedUpTo names) := by
  induction names with
  | nil => exact absurd rfl hne
  | cons name names ih =>
    unfold reportedUpTo
    cases names with
    | nil =>
      rw [String.intercalate_singleton]
      split
      · rw [String.intercalate_singleton]
      · next h =>
          rw [cleanProfileName_of_not_conditional h, reportedUpTo, String.intercalate_singleton]
    | cons next names =>
      have hih := ih (List.cons_ne_nil next names)
      have hcons : ∃ n ns, reportedUpTo (next :: names) = n :: ns := by
        unfold reportedUpTo
        split
        · exact ⟨_, _, rfl⟩
        · exact ⟨_, _, rfl⟩
      obtain ⟨n, ns, hreported⟩ := hcons
      apply String.toList_injective
      rw [← Option.some.injEq, ← cleanProfileName_toList, String.intercalate_cons_cons,
        String.toList_append, String.toList_append, List.append_assoc]
      split
      · next h =>
        -- a generated name: the cut falls into it
        rw [String.intercalate_singleton, ← cleanProfileName_toList]
        exact Text.head?_splitDoubled_append (of_decide_eq_true h) _
      · next h =>
        have hhead := cleanProfileName_toList (",".intercalate (next :: names))
        rw [hih, hreported] at hhead
        have hcomma : ",".toList = [','] := rfl
        rw [hreported, String.intercalate_cons_cons, String.toList_append, String.toList_append,
          hcomma, List.append_assoc, List.singleton_append, List.singleton_append,
          Text.splitDoubled_append_cons (by decide) (splitDoubled_of_not_conditional h)]
        cases hsplit : Text.splitDoubled '_' (",".intercalate (next :: names)).toList with
        | nil => exact absurd hsplit (Text.splitDoubled_ne_nil _ _)
        | cons w ws =>
          rw [hsplit, List.head?_cons, Option.some.injEq] at hhead
          rw [List.modifyHead_cons, List.head?_cons, hhead]

theorem comma_notMem_cleanProfileName {name : String} (h : ',' ∉ name.toList) :
    ',' ∉ (cleanProfileName name).toList := by
  intro hmem
  have hclean := cleanProfileName_toList name
  have hjoined := Text.intercalate_splitDoubled '_' name.toList
  cases hsplit : Text.splitDoubled '_' name.toList with
  | nil => exact absurd hsplit (Text.splitDoubled_ne_nil _ _)
  | cons w ws =>
    rw [hsplit, List.head?_cons, Option.some.injEq] at hclean
    rw [hsplit, hclean] at hjoined
    refine h (hjoined ▸ ?_)
    cases ws with
    | nil => rwa [List.intercalate_singleton]
    | cons w' ws =>
      rw [List.intercalate_cons_cons]
      exact List.mem_append_left _ (List.mem_append_left _ hmem)

/-- A shown name is the base of one of the profiles, and a text of its own. -/
theorem mem_reportedUpTo {names : List String} {name : String} (h : name ∈ reportedUpTo names) :
    ∃ n ∈ names, cleanProfileName n = name := by
  induction names with
  | nil => exact absurd h List.not_mem_nil
  | cons n names ih =>
    unfold reportedUpTo at h
    split at h
    · exact ⟨n, List.mem_cons_self, (List.mem_singleton.mp h).symm⟩
    · next hplain =>
      rcases List.mem_cons.mp h with rfl | h
      · exact ⟨name, List.mem_cons_self, cleanProfileName_of_not_conditional hplain⟩
      · obtain ⟨n', hn', hname⟩ := ih h
        exact ⟨n', List.mem_cons_of_mem _ hn', hname⟩

theorem reportedUpTo_ne_nil {names : List String} (h : names ≠ []) : reportedUpTo names ≠ [] := by
  cases names with
  | nil => exact absurd rfl h
  | cons n names =>
    unfold reportedUpTo
    split <;> exact List.cons_ne_nil _ _

/-! ### Merged mappings -/

/-- The profiles that ask under a key, each once, in the order they are polled. -/
def namesUnder (asked : List (String × List VarbindItem)) (k : VarbindItem) : List String :=
  ((asked.filter fun a => k ∈ a.2).map Prod.fst).eraseDups

theorem mem_namesUnder {asked : List (String × List VarbindItem)} {k : VarbindItem}
    {name : String} :
    name ∈ namesUnder asked k ↔ ∃ ks, (name, ks) ∈ asked ∧ k ∈ ks := by
  simp [namesUnder]

theorem nodup_eraseDups {α : Type} [DecidableEq α] (l : List α) : l.eraseDups.Nodup := by
  induction hn : l.length using Nat.strong_induction_on generalizing l with
  | _ n ih =>
    cases l with
    | nil => exact List.nodup_nil
    | cons a l =>
      have hlt : (l.filter fun b => !b == a).length < n := by
        have hle := List.length_filter_le (fun b => !b == a) l
        rw [List.length_cons] at hn
        omega
      rw [List.eraseDups_cons, List.nodup_cons]
      refine ⟨fun hmem => ?_, ih _ hlt _ rfl⟩
      rw [List.mem_eraseDups, List.mem_filter] at hmem
      simp at hmem

theorem eraseDups_of_nodup {α : Type} [DecidableEq α] {l : List α} (h : l.Nodup) :
    l.eraseDups = l := by
  induction l with
  | nil => rfl
  | cons a l ih =>
    rw [List.nodup_cons] at h
    have hfilter : (l.filter fun b => !b == a) = l := by
      rw [List.filter_eq_self]
      intro b hb
      have hne : b ≠ a := fun heq => h.1 (heq ▸ hb)
      simpa using hne
    rw [List.eraseDups_cons, hfilter, ih h.2]

/-- Dropping repetitions and filtering change places. -/
theorem eraseDups_filter {α : Type} [DecidableEq α] (p : α → Bool) (l : List α) :
    (l.filter p).eraseDups = l.eraseDups.filter p := by
  induction hn : l.length using Nat.strong_induction_on generalizing l with
  | _ n ih =>
    cases l with
    | nil => rfl
    | cons a l =>
      have hlt : (l.filter fun b => !b == a).length < n := by
        have hle := List.length_filter_le (fun b => !b == a) l
        rw [List.length_cons] at hn
        omega
      have hrest := ih _ hlt (l.filter fun b => !b == a) rfl
      rw [List.filter_filter] at hrest
      rw [List.eraseDups_cons, List.filter_cons, List.filter_cons, ← hrest]
      by_cases ha : p a = true
      · rw [if_pos ha, if_pos ha, List.eraseDups_cons, List.filter_filter]
        simp only [Bool.and_comm]
      · -- what is equal to the head is filtered away as well
        rw [if_neg ha, if_neg ha]
        congr 1
        refine List.filter_congr fun b _ => ?_
        by_cases hb : b = a
        · simp [hb, ha]
        · simp [hb]

/-- The first appearances in two lists one after the other. -/
theorem eraseDups_append {α : Type} [DecidableEq α] (l l' : List α) :
    (l ++ l').eraseDups = l.eraseDups ++ l'.eraseDups.filter (· ∉ l.eraseDups) := by
  have hremoved : l'.removeAll l = l'.filter (· ∉ l.eraseDups) := by
    refine List.filter_congr ?_
    intro b _
    simp [List.mem_eraseDups]
  rw [List.eraseDups_append, hremoved, eraseDups_filter]

/-- Profiles that are polled after others. -/
theorem namesUnder_append (asked asked' : List (String × List VarbindItem)) (k : VarbindItem) :
    namesUnder (asked ++ asked') k =
      namesUnder asked k ++ (namesUnder asked' k).filter (· ∉ namesUnder asked k) := by
  rw [namesUnder, List.filter_append, List.map_append, eraseDups_append]
  rfl

/-- The mapping names under each key the profiles that ask under it. -/
structure MergedMapping (mapping : Dict VarbindItem String)
    (asked : List (String × List VarbindItem)) : Prop where
  keys : mapping.keys = (asked.flatMap Prod.snd).eraseDups
  value : ∀ k text, mapping.get? k = some text → text = ",".intercalate (namesUnder asked k)

namespace Profile

/-- The names of a text come out as they went in. -/
theorem uniqueProfileNames_intercalate {names : List String} (hne : names ≠ [])
    (hnodup : names.Nodup) (h : ∀ n ∈ names, n ≠ "" ∧ ',' ∉ n.toList) :
    uniqueProfileNames (",".intercalate names) = names := by
  rw [uniqueProfileNames, Text.splitOn_intercalate_of_notMem rfl hne fun n hn => (h n hn).2]
  have hfilter : names.filter (fun n => decide (n ≠ "")) = names := by
    rw [List.filter_eq_self]
    exact fun n hn => decide_eq_true (h n hn).1
  rw [hfilter, eraseDups_of_nodup hnodup]

/-- One entry of `add_mappings`. -/
def mergeEntry (merged : Dict VarbindItem (List String)) (e : VarbindItem × String) :
    Dict VarbindItem (List String) :=
  let baseProfiles := merged.getD e.1 []
  let addedProfiles := (uniqueProfileNames e.2).filter (· ∉ baseProfiles)
  merged.insert e.1 (baseProfiles ++ addedProfiles)

theorem addMappings_eq (base incoming : Dict VarbindItem String) :
    addMappings base incoming =
      (incoming.entries.foldl mergeEntry (base.mapValues uniqueProfileNames)).mapValues
        (String.intercalate ",") := rfl

/-- The loop of `add_mappings`, entry by entry: each key is written once. -/
theorem get?_foldl_mergeEntry {es : List (VarbindItem × String)} (hnodup : (es.map Prod.fst).Nodup)
    (merged : Dict VarbindItem (List String)) (k : VarbindItem) :
    (es.foldl mergeEntry merged).get? k = match es.lookup k with
      | none => merged.get? k
      | some text => some (merged.getD k [] ++
          (uniqueProfileNames text).filter (· ∉ merged.getD k [])) := by
  induction es generalizing merged with
  | nil => rfl
  | cons e es ih =>
    obtain ⟨j, text⟩ := e
    rw [List.map_cons, List.nodup_cons] at hnodup
    rw [List.foldl_cons, ih hnodup.2, Dict.lookup_cons_ite]
    by_cases hk : k = j
    · subst hk
      have hnone : es.lookup k = none := by
        rw [List.lookup_eq_none_iff]
        intro e he
        have hne : k ≠ e.1 := fun heq => hnodup.1 (List.mem_map.mpr ⟨e, he, heq.symm⟩)
        simpa using hne
      rw [hnone, if_pos rfl]
      exact (Dict.get?_insert _ _ _ _).trans (if_pos rfl)
    · have hother : (mergeEntry merged (j, text)).get? k = merged.get? k :=
        (Dict.get?_insert _ _ _ _).trans (if_neg hk)
      rw [if_neg hk, Dict.getD, Dict.getD, hother]

theorem keys_foldl_mergeEntry {es : List (VarbindItem × String)} (hnodup : (es.map Prod.fst).Nodup)
    (merged : Dict VarbindItem (List String)) :
    (es.foldl mergeEntry merged).keys =
      merged.keys ++ (es.map Prod.fst).filter (· ∉ merged.keys) := by
  induction es generalizing merged with
  | nil => simp
  | cons e es ih =>
    rw [List.map_cons, List.nodup_cons] at hnodup
    rw [List.foldl_cons, ih hnodup.2, mergeEntry, Dict.keys_insert, List.map_cons, List.filter_cons]
    by_cases hmem : e.1 ∈ merged.keys
    · rw [if_pos hmem, if_neg (by simpa using hmem)]
    · have hrest : (es.map Prod.fst).filter (fun k => decide (k ∉ merged.keys ++ [e.1])) =
          (es.map Prod.fst).filter fun k => decide (k ∉ merged.keys) := by
        refine List.filter_congr ?_
        intro k hk
        have hne : k ≠ e.1 := fun heq => hnodup.1 (heq ▸ hk)
        simp [hne]
      rw [if_neg hmem, if_pos (decide_eq_true hmem), hrest, List.append_assoc,
        List.singleton_append]

/-- The mapping of one profile. -/
theorem mergedMapping_single {mapping : Dict VarbindItem String} {name : String}
    (h : ∀ k text, mapping.get? k = some text → text = name) :
    MergedMapping mapping [(name, mapping.keys)] := by
  constructor
  · simpa using (eraseDups_of_nodup mapping.nodup_keys).symm
  · intro k text hget
    have hmem : k ∈ mapping.keys := Dict.mem_keys_iff.mpr ⟨text, hget⟩
    rw [h k text hget]
    simp [namesUnder, hmem, List.eraseDups_cons]

theorem keys_addMappings (mapping incoming : Dict VarbindItem String) :
    (addMappings mapping incoming).keys =
      mapping.keys ++ incoming.keys.filter (· ∉ mapping.keys) := by
  have hkeys : (mapping.mapValues uniqueProfileNames).keys = mapping.keys := by
    simp [Dict.keys, Dict.mapValues, Function.comp_def]
  have hfold := keys_foldl_mergeEntry incoming.nodupKeys (mapping.mapValues uniqueProfileNames)
  change _ = _ ++ incoming.keys.filter _ at hfold
  rw [hkeys] at hfold
  rw [addMappings_eq, ← hfold]
  simp [Dict.keys, Dict.mapValues, Function.comp_def]

end Profile

namespace MergedMapping

open Profile

variable {mapping incoming : Dict VarbindItem String} {asked : List (String × List VarbindItem)}

theorem mem_keys_iff (h : MergedMapping mapping asked) (k : VarbindItem) :
    k ∈ mapping.keys ↔ ∃ a ∈ asked, k ∈ a.2 := by
  rw [h.keys, List.mem_eraseDups, List.mem_flatMap]

/-- The names of a text that is there already. -/
theorem uniqueProfileNames_of_get? (h : MergedMapping mapping asked)
    (hasked : ∀ a ∈ asked, a.1 ≠ "" ∧ ',' ∉ a.1.toList) {k : VarbindItem} {text : String}
    (hget : mapping.get? k = some text) : uniqueProfileNames text = namesUnder asked k := by
  obtain ⟨a, ha, hk⟩ := (h.mem_keys_iff k).mp (Dict.mem_keys_iff.mpr ⟨text, hget⟩)
  have hne : namesUnder asked k ≠ [] := List.ne_nil_of_mem (mem_namesUnder.mpr ⟨a.2, ha, hk⟩)
  rw [h.value k text hget]
  refine uniqueProfileNames_intercalate hne (nodup_eraseDups _) ?_
  intro n hn
  obtain ⟨ks, hks, -⟩ := mem_namesUnder.mp hn
  exact hasked _ hks

/-- What an entry of another mapping is added to. -/
theorem getD_uniqueProfileNames (h : MergedMapping mapping asked)
    (hasked : ∀ a ∈ asked, a.1 ≠ "" ∧ ',' ∉ a.1.toList) (k : VarbindItem) :
    (mapping.mapValues uniqueProfileNames).getD k [] = namesUnder asked k := by
  rw [Dict.getD, Dict.get?_mapValues]
  cases hget : mapping.get? k with
  | none =>
    refine (List.eq_nil_iff_forall_not_mem.mpr ?_).symm
    intro n hn
    obtain ⟨ks, hks, hk⟩ := mem_namesUnder.mp hn
    exact Dict.get?_eq_none_iff.mp hget ((h.mem_keys_iff k).mpr ⟨_, hks, hk⟩)
  | some text => exact h.uniqueProfileNames_of_get? hasked hget

/-- **Merging two merged mappings** merges the profiles of both. -/
theorem append (h : MergedMapping mapping asked) {asked' : List (String × List VarbindItem)}
    (h' : MergedMapping incoming asked') (hasked : ∀ a ∈ asked, a.1 ≠ "" ∧ ',' ∉ a.1.toList)
    (hasked' : ∀ a ∈ asked', a.1 ≠ "" ∧ ',' ∉ a.1.toList) :
    MergedMapping (addMappings mapping incoming) (asked ++ asked') := by
  constructor
  · rw [keys_addMappings, h.keys, h'.keys, List.flatMap_append, eraseDups_append]
  · intro k text hget
    rw [addMappings_eq, Dict.get?_mapValues, get?_foldl_mergeEntry incoming.nodupKeys,
      h.getD_uniqueProfileNames hasked] at hget
    obtain ⟨names, hnames, rfl⟩ := Option.map_eq_some_iff.mp hget
    rw [namesUnder_append]
    congr 1
    cases hlookup : incoming.entries.lookup k with
    | some text =>
      rw [hlookup] at hnames
      rw [← Option.some.inj hnames, h'.uniqueProfileNames_of_get? hasked' hlookup]
    | none =>
      -- no profile of the second list asks under the key
      have hnone : namesUnder asked' k = [] := by
        refine List.eq_nil_iff_forall_not_mem.mpr fun n hn => ?_
        obtain ⟨ks, hks, hk⟩ := mem_namesUnder.mp hn
        exact Dict.get?_eq_none_iff.mp hlookup ((h'.mem_keys_iff k).mpr ⟨_, hks, hk⟩)
      rw [hlookup, Dict.get?_mapValues] at hnames
      obtain ⟨text, htext, rfl⟩ := Option.map_eq_some_iff.mp hnames
      rw [hnone, List.filter_nil, List.append_nil, h.uniqueProfileNames_of_get? hasked htext]

end MergedMapping

/-! ### The text of a metric -/

/-- The key is a text with another one in it. -/
def VarbindItem.contains (mib : String) : VarbindItem → Bool
  | .str k => Text.contains k mib
  | .int _ => false

/-- The key a metric is found under: its instance, its object, its MIB, or else the first one
with the name of the MIB in it. -/
def lookupKey (keys : List VarbindItem) (identity : ObjectIdentity) : Option VarbindItem :=
  let unquoted := String.ofList (identity.prettyPrint.toList.filter (· ≠ Char.ofNat 34))
  ([.str unquoted, .str (identity.mib ++ "::" ++ identity.metric), .str identity.mib].find?
    (· ∈ keys)).or (keys.find? (VarbindItem.contains identity.mib))

section Lookup

variable {mapping : Dict VarbindItem String}

theorem entries_textKeyed (mapping : Dict VarbindItem String) :
    (textKeyed mapping).entries = mapping.entries.filterMap textEntry := by
  have hnodup : ((mapping.entries.filterMap textEntry).map Prod.fst).Nodup := by
    have hmap : (mapping.entries.filterMap textEntry).map Prod.fst =
        mapping.keys.filterMap fun
          | .str k => some k
          | .int _ => none := by
      rw [List.map_filterMap, Dict.keys, List.filterMap_map]
      refine List.filterMap_congr ?_
      intro e _
      obtain ⟨k, v⟩ := e
      cases k <;> rfl
    rw [hmap]
    refine mapping.nodup_keys.filterMap ?_
    rintro (k | k) (j | j) s hk hj
    all_goals simp_all
  rw [textKeyed, Dict.ofList, Dict.entries_updateList_of_fresh hnodup (by simp)]
  rfl

theorem mem_entries_textKeyed {k text : String} :
    (k, text) ∈ (textKeyed mapping).entries ↔ (.str k, text) ∈ mapping.entries := by
  rw [entries_textKeyed, List.mem_filterMap]
  constructor
  · rintro ⟨⟨j, v⟩, hmem, heq⟩
    cases j with
    | str j =>
      cases heq
      exact hmem
    | int j => cases heq
  · intro hmem
    exact ⟨_, hmem, rfl⟩

theorem get?_textKeyed (k : String) : (textKeyed mapping).get? k = mapping.get? (.str k) := by
  refine Option.ext ?_
  intro text
  rw [← Dict.mem_entries_iff, ← Dict.mem_entries_iff, mem_entries_textKeyed]

/-- The first of some keys that is there. -/
theorem find?_bind_get? (k : VarbindItem) (ks : List VarbindItem) :
    ((k :: ks).find? (· ∈ mapping.keys)).bind mapping.get? =
      (mapping.get? k).or ((ks.find? (· ∈ mapping.keys)).bind mapping.get?) := by
  by_cases hk : k ∈ mapping.keys
  · obtain ⟨text, htext⟩ := Dict.mem_keys_iff.mp hk
    rw [List.find?_cons_of_pos (by simpa using hk), Option.bind_some, htext, Option.some_or]
  · rw [List.find?_cons_of_neg (by simpa using hk), Dict.get?_eq_none_iff.mpr hk, Option.none_or]

/-- The first entry with the name of a MIB in its key. -/
theorem find?_entries_textKeyed (mapping : Dict VarbindItem String) (mib : String) :
    ((textKeyed mapping).entries.find? fun e => Text.contains e.1 mib).map Prod.snd =
      (mapping.keys.find? (VarbindItem.contains mib)).bind mapping.get? := by
  rw [entries_textKeyed, List.find?_filterMap, Dict.keys, List.find?_map]
  have hpred : (fun e => (textEntry e).any fun e => Text.contains e.1 mib) =
      VarbindItem.contains mib ∘ Prod.fst := by
    funext e
    obtain ⟨k, v⟩ := e
    cases k <;> rfl
  rw [hpred]
  cases hfind : mapping.entries.find? (VarbindItem.contains mib ∘ Prod.fst) with
  | none => rfl
  | some e =>
    have hcontains : (VarbindItem.contains mib ∘ Prod.fst) e = true := List.find?_some hfind
    have hget : mapping.get? e.1 = some e.2 :=
      Dict.mem_entries_iff.mp (List.mem_of_find?_eq_some hfind)
    obtain ⟨k, v⟩ := e
    cases k with
    | str k => exact hget.symm
    | int k => cases hcontains

/-- A key that is found has a text. -/
theorem exists_get?_of_find? {ks : List VarbindItem} {k : VarbindItem}
    (h : ks.find? (· ∈ mapping.keys) = some k) : ∃ text, mapping.get? k = some text :=
  Dict.mem_keys_iff.mp (by simpa using List.find?_some h)

/-- **The text of a metric** is that of the key it is found under, cut. -/
theorem setProfileName_textKeyed (hvalues : ∀ k text, mapping.get? k = some text → text ≠ "")
    (identity : ObjectIdentity) :
    setProfileName (textKeyed mapping) identity =
      ((lookupKey mapping.keys identity).bind mapping.get?).map cleanProfileName := by
  unfold setProfileName lookupKey
  dsimp only
  set unquoted := String.ofList (identity.prettyPrint.toList.filter (· ≠ Char.ofNat 34))
  set special : Option VarbindItem := [.str unquoted,
    .str (identity.mib ++ "::" ++ identity.metric), .str identity.mib].find? (· ∈ mapping.keys)
    with hspecial
  have hdirect : special.bind mapping.get? = ((textKeyed mapping).get? unquoted).or
      (((textKeyed mapping).get? (identity.mib ++ "::" ++ identity.metric)).or
        ((textKeyed mapping).get? identity.mib)) := by
    rw [hspecial, find?_bind_get?, find?_bind_get?, find?_bind_get?, get?_textKeyed, get?_textKeyed,
      get?_textKeyed]
    simp
  have hfallback := find?_entries_textKeyed mapping identity.mib
  split
  · next hempty =>
    -- no key is a text, so that nothing is found
    have hnil : (textKeyed mapping).entries = [] := List.isEmpty_iff.mp hempty
    have hget : ∀ k, (textKeyed mapping).get? k = none := by
      intro k
      rw [Dict.get?, hnil]
      rfl
    rw [hnil] at hfallback
    simp only [hget, Option.none_or] at hdirect
    cases hsome : special with
    | none =>
      rw [Option.none_or, ← hfallback]
      rfl
    | some k =>
      obtain ⟨text, htext⟩ := exists_get?_of_find? (hspecial ▸ hsome)
      rw [hsome, Option.bind_some, htext] at hdirect
      cases hdirect
  · rw [← hdirect]
    congr 1
    unfold matchMappingToProfile
    cases hsome : special with
    | none =>
      rw [Option.none_or, Option.bind_none, ← hfallback]
      simp only [Option.getD_none, if_true]
      cases (textKeyed mapping).entries.find? fun e => Text.contains e.1 identity.mib <;> rfl
    | some k =>
      obtain ⟨text, htext⟩ := exists_get?_of_find? (hspecial ▸ hsome)
      rw [Option.some_or, Option.bind_some, htext, Option.getD_some, if_neg (hvalues k text htext)]

end Lookup

/-! ### The profiles of a poll -/

/-- The profile is labelled with its name: its mappings name nothing else. -/
def Profile.Labelled (name : String) (p : Profile) : Prop :=
  ∀ part k text, (p.mapping part).get? k = some text → text = name

/-- The polled profiles there are, in the order they are polled. -/
def ProfileCollection.polled (c : ProfileCollection) (names : List String) :
    List (String × Profile) :=
  names.filterMap fun name =>
    match c.getProfile name with
    | .profile p => some (name, p)
    | _ => none

/-- The keys each of the profiles is mapped under in a part. -/
def askedIn (polled : List (String × Profile)) (part : RequestPart) :
    List (String × List VarbindItem) :=
  polled.map fun e => (e.1, (e.2.mapping part).keys)

/-- An answer joins the profiles: its mappings name them. -/
def PollingInfo.Joins (info : PollingInfo) (polled : List (String × Profile)) : Prop :=
  match info with
  | .profile p => ∀ part, MergedMapping (p.mapping part) (askedIn polled part)
  | _ => polled = []

section Joined

variable {polled : List (String × Profile)} {p q r : Profile} {name : String}

theorem joins_single (hlabelled : p.Labelled name) :
    (PollingInfo.profile p).Joins [(name, p)] := fun part =>
  Profile.mergedMapping_single (hlabelled part)

theorem mapping_add (h : p.add q = .ok r) (part : RequestPart) :
    r.mapping part = Profile.addMappings (p.mapping part) (q.mapping part) := by
  obtain ⟨bulk, -, h⟩ := PyError.bind_eq_ok.mp h
  obtain ⟨get, -, h⟩ := PyError.bind_eq_ok.mp h
  cases h
  cases part <;> rfl

/-- **Adding a profile** to joined ones joins it to them. -/
theorem joins_add (h : (PollingInfo.profile p).Joins polled) (hlabelled : q.Labelled name)
    (hnames : ∀ e ∈ polled, e.1 ≠ "" ∧ ',' ∉ e.1.toList) (hname : name ≠ "" ∧ ',' ∉ name.toList)
    (hadd : p.add q = .ok r) : (PollingInfo.profile r).Joins (polled ++ [(name, q)]) := by
  intro part
  rw [mapping_add hadd part, askedIn, List.map_append]
  refine (h part).append (Profile.mergedMapping_single (hlabelled part)) (fun a ha => ?_)
    (by simpa using hname)
  obtain ⟨e, he, rfl⟩ := List.mem_map.mp ha
  exact hnames e he

end Joined

namespace ProfileCollection

variable {c : ProfileCollection}

/-- Every profile of the collection that is answered is labelled with its name. -/
def LabelledFor (c : ProfileCollection) (names : List String) : Prop :=
  ∀ name ∈ names, ∀ p, c.getProfile name = .profile p → p.Labelled name

theorem polled_cons (name : String) (names : List String) :
    c.polled (name :: names) = c.polled [name] ++ c.polled names := by
  simp only [polled, List.filterMap_cons, List.filterMap_nil]
  split <;> simp_all

theorem mem_polled {names : List String} {name : String} {p : Profile} :
    (name, p) ∈ c.polled names ↔ name ∈ names ∧ c.getProfile name = .profile p := by
  rw [polled, List.mem_filterMap]
  constructor
  · rintro ⟨n, hn, heq⟩
    split at heq
    · next q hq =>
      cases heq
      exact ⟨hn, hq⟩
    · cases heq
  · rintro ⟨hn, hq⟩
    exact ⟨name, hn, by rw [hq]⟩

/-- The answer for one name. -/
theorem joins_getProfile {name : String} (h : c.LabelledFor [name]) :
    (c.getProfile name).Joins (c.polled [name]) := by
  cases hget : c.getProfile name with
  | profile p =>
    have hpolled : c.polled [name] = [(name, p)] := by simp [polled, hget]
    rw [hpolled]
    exact joins_single (h name List.mem_cons_self p hget)
  | nothing => simp [polled, hget, PollingInfo.Joins]
  | none => simp [polled, hget, PollingInfo.Joins]

/-- Combining an answer with that for one more name. -/
theorem joins_combineProfiles {info info' : PollingInfo} {polled : List (String × Profile)}
    {name : String} (h : info.Joins polled) (hnames : ∀ e ∈ polled, e.1 ≠ "" ∧ ',' ∉ e.1.toList)
    (hlabelled : c.LabelledFor [name]) (hname : name ≠ "" ∧ ',' ∉ name.toList)
    (hrun : combineProfiles info (c.getProfile name) = .ok info') :
    info'.Joins (polled ++ c.polled [name]) := by
  have hone := joins_getProfile hlabelled
  cases hget : c.getProfile name with
  | profile q =>
    have hpolled : c.polled [name] = [(name, q)] := by simp [ProfileCollection.polled, hget]
    rw [hget] at hrun hone
    rw [hpolled] at hone ⊢
    cases info with
    | profile p =>
      obtain ⟨r, hadd, hrun⟩ := PyError.bind_eq_ok.mp hrun
      cases hrun
      exact joins_add h (hlabelled name List.mem_cons_self q hget) hnames hname hadd
    | nothing =>
      cases hrun
      rw [show polled = [] from h]
      exact hone
    | none =>
      cases hrun
      rw [show polled = [] from h]
      exact hone
  | nothing =>
    have hpolled : c.polled [name] = [] := by simp [ProfileCollection.polled, hget]
    rw [hget] at hrun
    rw [hpolled, List.append_nil]
    cases info <;> cases hrun <;> exact h
  | none =>
    have hpolled : c.polled [name] = [] := by simp [ProfileCollection.polled, hget]
    rw [hget] at hrun
    rw [hpolled, List.append_nil]
    cases info <;> cases hrun <;> exact h

theorem LabelledFor.single {names : List String} (h : c.LabelledFor names) {name : String}
    (hname : name ∈ names) : c.LabelledFor [name] :=
  fun _ hn => h _ (List.mem_singleton.mp hn ▸ hname)

/-- A polled name is one of the names. -/
theorem plain_of_polled {names : List String} (h : ∀ name ∈ names, name ≠ "" ∧ ',' ∉ name.toList) :
    ∀ e ∈ c.polled names, e.1 ≠ "" ∧ ',' ∉ e.1.toList := by
  rintro ⟨n, q⟩ he
  exact h n (mem_polled.mp he).1

/-- Combining an answer with those for more names. -/
theorem joins_foldlM {names : List String} {info info' : PollingInfo}
    {polled : List (String × Profile)} (h : info.Joins polled)
    (hpolled : ∀ e ∈ polled, e.1 ≠ "" ∧ ',' ∉ e.1.toList) (hlabelled : c.LabelledFor names)
    (hnames : ∀ name ∈ names, name ≠ "" ∧ ',' ∉ name.toList)
    (hrun : (names.map c.getProfile).foldlM combineProfiles info = .ok info') :
    info'.Joins (polled ++ c.polled names) := by
  induction names generalizing info polled with
  | nil =>
    cases hrun
    simpa [ProfileCollection.polled] using h
  | cons name names ih =>
    rw [List.map_cons, List.foldlM_cons] at hrun
    obtain ⟨info₁, hfirst, hrun⟩ := PyError.bind_eq_ok.mp hrun
    have hname := hnames name List.mem_cons_self
    have hjoined := joins_combineProfiles h hpolled (hlabelled.single List.mem_cons_self) hname
      hfirst
    rw [polled_cons, ← List.append_assoc]
    refine ih hjoined ?_ (fun n hn => hlabelled n (List.mem_cons_of_mem _ hn))
      (fun n hn => hnames n (List.mem_cons_of_mem _ hn)) hrun
    intro e he
    rcases List.mem_append.mp he with he | he
    · exact hpolled e he
    · exact plain_of_polled (by simpa using hname) e he

/-- **The profile that is polled joins the named ones.** -/
theorem joins_getPollingInfo {names : List String} {info : PollingInfo}
    (hlabelled : c.LabelledFor names) (hnames : ∀ name ∈ names, name ≠ "" ∧ ',' ∉ name.toList)
    (hrun : c.getPollingInfoFromProfiles names false = .ok info) : info.Joins (c.polled names) := by
  cases names with
  | nil => cases hrun
  | cons name names =>
    rw [getPollingInfoFromProfiles_cons] at hrun
    have hname := hnames name List.mem_cons_self
    rw [polled_cons]
    exact joins_foldlM (joins_getProfile (hlabelled.single List.mem_cons_self))
      (plain_of_polled (by simpa using hname))
      (fun n hn => hlabelled n (List.mem_cons_of_mem _ hn))
      (fun n hn => hnames n (List.mem_cons_of_mem _ hn)) hrun

end ProfileCollection

/-! ### What a metric shows -/

/-- A comma-separated text as a list. -/
def commaNames (text : String) : List String := if text = "" then [] else Text.splitOn ',' text

/-- The names a metric shows: those of its key, up to the first generated one. -/
def shownNames (asked : List (String × List VarbindItem)) (identity : ObjectIdentity) :
    List String :=
  (lookupKey (asked.flatMap Prod.snd).eraseDups identity).elim [] fun k =>
    reportedUpTo (namesUnder asked k)

section Shown

variable {asked : List (String × List VarbindItem)} {mapping : Dict VarbindItem String}

theorem intercalate_ne_empty {names : List String} (hne : names ≠ [])
    (h : ∀ n ∈ names, n ≠ "" ∧ ',' ∉ n.toList) : ",".intercalate names ≠ "" := by
  intro hempty
  have hcomma : ",".toList = [','] := rfl
  have hsplit := Text.splitOn_intercalate_of_notMem hcomma hne fun n hn => (h n hn).2
  rw [hempty, Text.splitOn_of_notMem (by simp)] at hsplit
  exact (h "" (hsplit ▸ List.mem_cons_self)).1 rfl

theorem ReportableName.plain {name : String} (h : ReportableName name) :
    name ≠ "" ∧ ',' ∉ name.toList := by
  refine ⟨fun hempty => h.2 ?_, h.1⟩
  subst hempty
  rfl

/-- A shown name is the base of a profile, without a comma. -/
theorem mem_shownNames (hasked : ∀ a ∈ asked, ReportableName a.1) {identity : ObjectIdentity}
    {name : String} (h : name ∈ shownNames asked identity) : name ≠ "" ∧ ',' ∉ name.toList := by
  unfold shownNames at h
  cases hkey : lookupKey (asked.flatMap Prod.snd).eraseDups identity with
  | none =>
    rw [hkey] at h
    exact absurd h List.not_mem_nil
  | some k =>
    rw [hkey] at h
    obtain ⟨n, hn, rfl⟩ := mem_reportedUpTo h
    obtain ⟨ks, hks, -⟩ := mem_namesUnder.mp hn
    exact ⟨(hasked _ hks).2, comma_notMem_cleanProfileName (hasked _ hks).1⟩

/-- A key is found among the keys there are. -/
theorem mem_of_lookupKey {keys : List VarbindItem} {identity : ObjectIdentity} {k : VarbindItem}
    (h : lookupKey keys identity = some k) : k ∈ keys := by
  unfold lookupKey at h
  rcases Option.or_eq_some_iff.mp h with h | ⟨-, h⟩
  · simpa using List.find?_some h
  · exact List.mem_of_find?_eq_some h

/-- **The text of a metric** under a merged mapping is that of the names it shows. -/
theorem setProfileName_merged (h : MergedMapping mapping asked)
    (hasked : ∀ a ∈ asked, ReportableName a.1) (identity : ObjectIdentity) :
    setProfileName (textKeyed mapping) identity =
      if shownNames asked identity = [] then none
      else some (",".intercalate (shownNames asked identity)) := by
  -- a key of the mapping was asked for by someone
  have hunder : ∀ k ∈ mapping.keys, namesUnder asked k ≠ [] := by
    intro k hk
    rw [h.keys, List.mem_eraseDups] at hk
    obtain ⟨a, ha, hka⟩ := List.mem_flatMap.mp hk
    exact List.ne_nil_of_mem (mem_namesUnder.mpr ⟨a.2, ha, hka⟩)
  have hplain : ∀ k, ∀ n ∈ namesUnder asked k, n ≠ "" ∧ ',' ∉ n.toList := by
    intro k n hn
    obtain ⟨ks, hks, -⟩ := mem_namesUnder.mp hn
    exact (hasked _ hks).plain
  have hvalues : ∀ k text, mapping.get? k = some text → text ≠ "" := by
    intro k text hget
    rw [h.value k text hget]
    exact intercalate_ne_empty (hunder k (Dict.mem_keys_iff.mpr ⟨text, hget⟩)) (hplain k)
  rw [setProfileName_textKeyed hvalues, shownNames, ← h.keys]
  cases hkey : lookupKey mapping.keys identity with
  | none => rfl
  | some k =>
    have hmem : k ∈ mapping.keys := mem_of_lookupKey hkey
    obtain ⟨text, htext⟩ := Dict.mem_keys_iff.mp hmem
    have hne := hunder k hmem
    rw [Option.bind_some, htext, Option.map_some, h.value k text htext,
      cleanProfileName_intercalate hne]
    exact (if_neg (reportedUpTo_ne_nil hne)).symm

end Shown

end Sc4snmp
