import Mathlib.Data.List.Nodup
import Sc4snmp.Snmp.ProfileAttribution

/-!
# Folding the mappings of profiles

`reduce` adds profiles from the left, and every addition merges two mappings: the texts
under a key are taken apart, names that are there already are left out, and the rest is
put together again.  A merged mapping is determined by the profiles that went into it and
their order, so that it is the same however they were grouped, and merging it once more
with itself changes nothing.

`add_mappings` works on a dictionary of its own and makes a new one of it.  On a heap of
mapping objects that is a run that writes to one address, a fresh one.

## Main definitions

* `mergedMappings` — the fold of `add_mappings` over the mappings of profiles.
* `firstSeen` — the names of the profiles with a key, in the order they are first seen.
* `MergeHeap`, `addMappingsAt`, `foldMappingsAt` — the fold on a heap.
* `FirstSeenUnion` — the laws of the fold.

## Main results

* `MergedMapping.unique` — a merged mapping is determined by the profiles.
* `addMappingsAt_spec` — merging on the heap changes none of the objects that are there.
* `mergedMappings_firstSeenUnion` — **the fold is a union in the order of first appearance**.
-/

/-- Dictionaries with the same keys in the same order that read alike are equal. -/
theorem Dict.eq_of_keys_get? {κ ν : Type*} [DecidableEq κ] {d e : Dict κ ν}
    (hkeys : d.keys = e.keys) (hget : ∀ k, d.get? k = e.get? k) : d = e := by
  have hlength : d.entries.length = e.entries.length := by
    simpa [Dict.keys] using congrArg List.length hkeys
  refine Dict.eq_of_entries (List.ext_getElem hlength fun i hd he => ?_)
  have hkey : d.entries[i].1 = e.entries[i].1 := by
    have h := congrArg (fun l : List κ => l[i]?) hkeys
    simpa [Dict.keys, hd, he] using h
  have hdget : d.get? d.entries[i].1 = some d.entries[i].2 :=
    Dict.mem_entries_iff.mp (List.getElem_mem hd)
  have heget : e.get? e.entries[i].1 = some e.entries[i].2 :=
    Dict.mem_entries_iff.mp (List.getElem_mem he)
  rw [hget, hkey] at hdget
  exact Prod.ext hkey (Option.some.inj (hdget.symm.trans heget))

namespace Sc4snmp

open Profile

/-! ### On a heap -/

/-- The objects of the fold: mappings, and the dictionaries that `add_mappings` works on. -/
inductive MergeObject
  | mapping (m : Dict VarbindItem String)
  | profileNames (m : Dict VarbindItem (List String))

/-- The objects, by their addresses. -/
abbrev MergeHeap := List MergeObject

/-- The mapping at an address. -/
def MergeHeap.mapping? (h : MergeHeap) (a : ℕ) : Option (Dict VarbindItem String) :=
  match h[a]? with
  | some (.mapping m) => some m
  | _ => none

/-- The names at an address. -/
def MergeHeap.profileNames? (h : MergeHeap) (a : ℕ) : Option (Dict VarbindItem (List String)) :=
  match h[a]? with
  | some (.profileNames m) => some m
  | _ => none

/-- The loop body of `add_mappings`: the names under a key are replaced. -/
def mergeEntryAt (merged : ℕ) (h : MergeHeap) (e : VarbindItem × String) : Option MergeHeap :=
  (h.profileNames? merged).map fun m => h.set merged (.profileNames (mergeEntry m e))

/-- `add_mappings` on a heap: where its result is. -/
def addMappingsAt (h : MergeHeap) (baseMapping incomingMapping : ℕ) : Option (MergeHeap × ℕ) := do
  let base ← h.mapping? baseMapping
  let merged := h.length
  let h := h ++ [.profileNames (base.mapValues uniqueProfileNames)]
  let incoming ← h.mapping? incomingMapping
  let h ← incoming.entries.foldlM (mergeEntryAt merged) h
  let names ← h.profileNames? merged
  return (h ++ [.mapping (names.mapValues (String.intercalate ","))], h.length)

/-- The fold on a heap: the result so far is at `a`. -/
def foldMappingsAt : MergeHeap → ℕ → List ℕ → Option (MergeHeap × ℕ)
  | h, a, [] => some (h, a)
  | h, a, b :: bs => do
    let (h, a) ← addMappingsAt h a b
    foldMappingsAt h a bs

section Heap

variable {h : MergeHeap} {a b : ℕ} {base incoming : Dict VarbindItem String}

theorem getElem?_of_mapping? (hmap : h.mapping? a = some base) : h[a]? = some (.mapping base) := by
  unfold MergeHeap.mapping? at hmap
  split at hmap
  · next m hm =>
    cases hmap
    exact hm
  · cases hmap

theorem MergeHeap.mapping?_of_prefix {h' : MergeHeap} (hinitial : h <+: h')
    (hmap : h.mapping? a = some base) : h'.mapping? a = some base := by
  have hget : h'[a]? = some (.mapping base) := by
    obtain ⟨t, rfl⟩ := hinitial
    have hcell := getElem?_of_mapping? hmap
    rw [List.getElem?_append_left (List.getElem?_eq_some_iff.mp hcell).1, hcell]
  rw [MergeHeap.mapping?, hget]

/-- The loop of `add_mappings` writes to one address. -/
theorem foldlM_mergeEntryAt (h : MergeHeap) (es : List (VarbindItem × String))
    (m : Dict VarbindItem (List String)) :
    es.foldlM (mergeEntryAt h.length) (h ++ [.profileNames m]) =
      some (h ++ [.profileNames (es.foldl mergeEntry m)]) := by
  induction es generalizing m with
  | nil => rfl
  | cons e es ih =>
    have hstep : mergeEntryAt h.length (h ++ [.profileNames m]) e =
        some (h ++ [.profileNames (mergeEntry m e)]) := by
      simp [mergeEntryAt, MergeHeap.profileNames?]
    rw [List.foldlM_cons, hstep, List.foldl_cons]
    exact ih (mergeEntry m e)

/-- **Merging on the heap** is `add_mappings`, and changes none of the objects that are there. -/
theorem addMappingsAt_spec (ha : h.mapping? a = some base) (hb : h.mapping? b = some incoming) :
    ∃ h' r, addMappingsAt h a b = some (h', r) ∧ h <+: h' ∧
      h'.mapping? r = some (addMappings base incoming) := by
  set working : MergeHeap := h ++ [.profileNames (base.mapValues uniqueProfileNames)]
    with hworking
  have hb' : working.mapping? b = some incoming :=
    MergeHeap.mapping?_of_prefix (List.prefix_append _ _) hb
  have hloop := foldlM_mergeEntryAt h incoming.entries (base.mapValues uniqueProfileNames)
  rw [← hworking] at hloop
  set written : MergeHeap := h ++ [.profileNames
    (incoming.entries.foldl mergeEntry (base.mapValues uniqueProfileNames))] with hwritten
  have hnames : written.profileNames? h.length =
      some (incoming.entries.foldl mergeEntry (base.mapValues uniqueProfileNames)) := by
    simp [hwritten, MergeHeap.profileNames?]
  refine ⟨written ++ [.mapping (addMappings base incoming)], written.length, ?_, ?_, ?_⟩
  · unfold addMappingsAt
    rw [ha]
    simp only [Option.bind_eq_bind, Option.bind_some]
    rw [← hworking, hb', Option.bind_some, hloop, Option.bind_some, hnames]
    rfl
  · exact (List.prefix_append h _).trans (List.prefix_append written _)
  · simp [MergeHeap.mapping?]

/-- The fold on the heap is the fold of the mappings, and changes none of the objects that are
there. -/
theorem foldMappingsAt_spec (ha : h.mapping? a = some base) {bs : List ℕ}
    {mappings : List (Dict VarbindItem String)}
    (hbs : List.Forall₂ (fun b m => h.mapping? b = some m) bs mappings) :
    ∃ h' r, foldMappingsAt h a bs = some (h', r) ∧ h <+: h' ∧
      h'.mapping? r = some (mappings.foldl addMappings base) := by
  induction bs generalizing h a base mappings with
  | nil =>
    cases hbs
    exact ⟨h, a, rfl, List.prefix_rfl, ha⟩
  | cons b bs ih =>
    cases hbs with
    | @cons b m bs mappings hb hbs =>
      obtain ⟨h₁, r₁, hrun, hinitial, hr₁⟩ := addMappingsAt_spec ha hb
      obtain ⟨h₂, r₂, hrun₂, hinitial₂, hr₂⟩ := ih hr₁
        (hbs.imp fun b m hb => MergeHeap.mapping?_of_prefix hinitial hb)
      refine ⟨h₂, r₂, ?_, hinitial.trans hinitial₂, hr₂⟩
      rw [foldMappingsAt, hrun]
      exact hrun₂

end Heap

/-! ### Merged mappings -/

/-- A merged mapping is determined by the profiles, and their order. -/
theorem MergedMapping.unique {m m' : Dict VarbindItem String}
    {asked : List (String × List VarbindItem)} (h : MergedMapping m asked)
    (h' : MergedMapping m' asked) : m = m' := by
  have hkeys : m.keys = m'.keys := h.keys.trans h'.keys.symm
  refine Dict.eq_of_keys_get? hkeys fun k => ?_
  by_cases hk : k ∈ m.keys
  · obtain ⟨text, htext⟩ := Dict.mem_keys_iff.mp hk
    obtain ⟨text', htext'⟩ := Dict.mem_keys_iff.mp (hkeys ▸ hk)
    rw [htext, htext', h.value k text htext, h'.value k text' htext']
  · rw [Dict.get?_eq_none_iff.mpr hk, Dict.get?_eq_none_iff.mpr (hkeys ▸ hk)]

/-- The fold of `add_mappings` over the mappings of profiles. -/
def mergedMappings (part : RequestPart) : List Profile → Dict VarbindItem String
  | [] => Dict.empty
  | p :: ps => (ps.map fun q => q.mapping part).foldl addMappings (p.mapping part)

/-- The names of the profiles that have a key, each once, in the order they are first seen. -/
def firstSeen (part : RequestPart) (profiles : List Profile) (k : VarbindItem) : List String :=
  ((profiles.filter fun p => k ∈ (p.mapping part).keys).map Profile.name).eraseDups

/-- The keys of each profile, under its name. -/
def keysByName (part : RequestPart) (profiles : List Profile) :
    List (String × List VarbindItem) :=
  profiles.map fun p => (p.name, (p.mapping part).keys)

/-- The profile has a name that can be told from a text, and its mappings name nothing else. -/
def Profile.Nameable (p : Profile) : Prop :=
  p.Labelled p.name ∧ p.name ≠ "" ∧ ',' ∉ p.name.toList

/-- A processed profile with such a name. -/
theorem Profile.nameable_process {name : String} {body : ProfileBody} {p : Profile}
    (h : (new name body).process = .ok p) (hname : name ≠ "" ∧ ',' ∉ name.toList) :
    p.Nameable := by
  obtain rfl := name_process h
  exact ⟨labelled_process h, hname⟩

section Fold

variable {part : RequestPart} {profiles : List Profile} {k : VarbindItem}

theorem namesUnder_keysByName (part : RequestPart) (profiles : List Profile) (k : VarbindItem) :
    namesUnder (keysByName part profiles) k = firstSeen part profiles k := by
  rw [namesUnder, keysByName, List.filter_map, List.map_map]
  rfl

theorem plain_keysByName (h : ∀ p ∈ profiles, p.Nameable) :
    ∀ a ∈ keysByName part profiles, a.1 ≠ "" ∧ ',' ∉ a.1.toList := by
  intro a ha
  obtain ⟨p, hp, rfl⟩ := List.mem_map.mp ha
  exact (h p hp).2

/-- **The fold merges the profiles.** By induction on the profiles, from the last one on. -/
theorem mergedMapping_mergedMappings (hne : profiles ≠ []) (h : ∀ p ∈ profiles, p.Nameable) :
    MergedMapping (mergedMappings part profiles) (keysByName part profiles) := by
  induction profiles using List.reverseRecOn with
  | nil => exact absurd rfl hne
  | append_singleton ps q ih =>
    have hq : q.Nameable := h q (by simp)
    have hps : ∀ p ∈ ps, p.Nameable := fun p hp => h p (List.mem_append_left _ hp)
    have hone := mergedMapping_single (hq.1 part)
    cases ps with
    | nil => exact hone
    | cons p ps =>
      have hfold : mergedMappings part (p :: ps ++ [q]) =
          addMappings (mergedMappings part (p :: ps)) (q.mapping part) := by
        simp [mergedMappings]
      have hkeys : keysByName part (p :: ps ++ [q]) =
          keysByName part (p :: ps) ++ [(q.name, (q.mapping part).keys)] := by
        simp [keysByName]
      rw [hfold, hkeys]
      exact (ih (List.cons_ne_nil _ _) hps).append hone (plain_keysByName hps)
        (by simpa using hq.2)

/-- However the profiles are grouped, the result is the same. -/
theorem addMappings_mergedMappings {l l' : List Profile} (hl : l ≠ []) (hl' : l' ≠ [])
    (h : ∀ p ∈ l ++ l', p.Nameable) :
    addMappings (mergedMappings part l) (mergedMappings part l') =
      mergedMappings part (l ++ l') := by
  rw [List.forall_mem_append] at h
  have hleft : MergedMapping (mergedMappings part l) (keysByName part l) :=
    mergedMapping_mergedMappings hl h.1
  have hright : MergedMapping (mergedMappings part l') (keysByName part l') :=
    mergedMapping_mergedMappings hl' h.2
  have hboth := hleft.append hright (plain_keysByName h.1) (plain_keysByName h.2)
  have hkeys : keysByName part (l ++ l') = keysByName part l ++ keysByName part l' :=
    List.map_append
  rw [← hkeys] at hboth
  exact hboth.unique (mergedMapping_mergedMappings (by simp [hl])
    (List.forall_mem_append.mpr h))

/-- Merging a merged mapping with itself changes nothing. -/
theorem addMappings_self (hne : profiles ≠ []) (h : ∀ p ∈ profiles, p.Nameable) :
    addMappings (mergedMappings part profiles) (mergedMappings part profiles) =
      mergedMappings part profiles := by
  have hmerged : MergedMapping (mergedMappings part profiles) (keysByName part profiles) :=
    mergedMapping_mergedMappings hne h
  have htwice := hmerged.append hmerged (plain_keysByName h) (plain_keysByName h)
  -- in a list twice nothing appears first in the second one
  have hdups : ∀ {α : Type} [DecidableEq α] (l : List α), (l ++ l).eraseDups = l.eraseDups := by
    intro α _ l
    rw [eraseDups_append]
    simp
  refine htwice.unique ⟨?_, fun k text hget => ?_⟩
  · rw [List.flatMap_append, hdups, hmerged.keys]
  · have htwiceNames : namesUnder (keysByName part profiles ++ keysByName part profiles) k =
        namesUnder (keysByName part profiles) k := by
      rw [namesUnder, List.filter_append, List.map_append, hdups]
      rfl
    rw [hmerged.value k text hget, htwiceNames]

theorem mem_firstSeen {name : String} :
    name ∈ firstSeen part profiles k ↔
      ∃ p ∈ profiles, k ∈ (p.mapping part).keys ∧ p.name = name := by
  simp only [firstSeen, List.mem_eraseDups, List.mem_map, List.mem_filter, decide_eq_true_eq,
    and_assoc]

theorem firstSeen_perm {profiles' : List Profile} (h : profiles'.Perm profiles) :
    (firstSeen part profiles' k).Perm (firstSeen part profiles k) := by
  refine (List.perm_ext_iff_of_nodup (nodup_eraseDups _) (nodup_eraseDups _)).mpr fun name => ?_
  refine mem_firstSeen.trans (Iff.trans ?_ mem_firstSeen.symm)
  exact exists_congr fun p => and_congr_left fun _ => h.mem_iff

/-- The names a merged mapping has under a key. -/
def mergedNames (part : RequestPart) (profiles : List Profile) (k : VarbindItem) : List String :=
  ((mergedMappings part profiles).mapValues uniqueProfileNames).getD k []

theorem mergedNames_eq (hne : profiles ≠ []) (h : ∀ p ∈ profiles, p.Nameable) :
    mergedNames part profiles k = firstSeen part profiles k := by
  rw [mergedNames, (mergedMapping_mergedMappings hne h).getD_uniqueProfileNames
    (plain_keysByName h), namesUnder_keysByName]

end Fold

/-- **The fold of the mappings is a union in the order of first appearance.** -/
structure FirstSeenUnion (part : RequestPart) (profiles : List Profile) : Prop where
  keys : ∀ k, k ∈ (mergedMappings part profiles).keys ↔
    ∃ p ∈ profiles, k ∈ (p.mapping part).keys
  value : ∀ k ∈ (mergedMappings part profiles).keys, (mergedMappings part profiles).get? k =
    some (",".intercalate (firstSeen part profiles k))
  grouping : ∀ l l', l ≠ [] → l' ≠ [] → l ++ l' = profiles →
    addMappings (mergedMappings part l) (mergedMappings part l') = mergedMappings part profiles
  assoc : ∀ l₁ l₂ l₃, l₁ ≠ [] → l₂ ≠ [] → l₃ ≠ [] → l₁ ++ l₂ ++ l₃ = profiles →
    addMappings (addMappings (mergedMappings part l₁) (mergedMappings part l₂))
        (mergedMappings part l₃) =
      addMappings (mergedMappings part l₁)
        (addMappings (mergedMappings part l₂) (mergedMappings part l₃))
  idem : addMappings (mergedMappings part profiles) (mergedMappings part profiles) =
    mergedMappings part profiles
  order : ∀ profiles' : List Profile, profiles'.Perm profiles →
    (∀ k, k ∈ (mergedMappings part profiles').keys ↔ k ∈ (mergedMappings part profiles).keys) ∧
    ∀ k, (mergedNames part profiles' k).Perm (mergedNames part profiles k)
  inputs : ∀ (h : MergeHeap) (a : ℕ) (bs : List ℕ),
    List.Forall₂ (fun b p => h.mapping? b = some (p.mapping part)) (a :: bs) profiles →
    ∃ h' r, foldMappingsAt h a bs = some (h', r) ∧ h <+: h' ∧
      h'.mapping? r = some (mergedMappings part profiles)

/-- **The mappings of profiles polled together** are merged in the order of first appearance,
however they are grouped, once and for all, and their own are left alone. -/
theorem mergedMappings_firstSeenUnion (part : RequestPart) (profiles : List Profile)
    (hne : profiles ≠ []) (h : ∀ p ∈ profiles, p.Nameable) : FirstSeenUnion part profiles := by
  have hmerged : MergedMapping (mergedMappings part profiles) (keysByName part profiles) :=
    mergedMapping_mergedMappings hne h
  have hkeys : ∀ (l : List Profile), l ≠ [] → (∀ p ∈ l, p.Nameable) → ∀ k,
      k ∈ (mergedMappings part l).keys ↔ ∃ p ∈ l, k ∈ (p.mapping part).keys := by
    intro l hl hnames k
    rw [(mergedMapping_mergedMappings hl hnames).mem_keys_iff k]
    simp [keysByName]
  refine ⟨hkeys profiles hne h, ?_, ?_, ?_, addMappings_self hne h, ?_, ?_⟩
  · intro k hk
    obtain ⟨text, htext⟩ := Dict.mem_keys_iff.mp hk
    rw [htext, hmerged.value k text htext, namesUnder_keysByName]
  · rintro l l' hl hl' rfl
    exact addMappings_mergedMappings hl hl' h
  · rintro l₁ l₂ l₃ hl₁ hl₂ hl₃ rfl
    have hleft : ∀ p ∈ l₁ ++ l₂, p.Nameable := fun p hp => h p (List.mem_append_left _ hp)
    have hright : ∀ p ∈ l₂ ++ l₃, p.Nameable := by
      intro p hp
      rw [List.append_assoc] at h
      exact h p (List.mem_append_right _ hp)
    rw [addMappings_mergedMappings hl₁ hl₂ hleft, addMappings_mergedMappings hl₂ hl₃ hright,
      addMappings_mergedMappings (by simp [hl₁]) hl₃ h,
      addMappings_mergedMappings hl₁ (by simp [hl₂]) (List.append_assoc _ _ _ ▸ h),
      List.append_assoc]
  · intro profiles' hperm
    have h' : ∀ p ∈ profiles', p.Nameable := fun p hp => h p (hperm.mem_iff.mp hp)
    have hne' : profiles' ≠ [] := by
      rintro rfl
      exact hne (List.nil_perm.mp hperm)
    refine ⟨fun k => ?_, fun k => ?_⟩
    · rw [hkeys profiles' hne' h', hkeys profiles hne h]
      exact exists_congr fun p => and_congr_left fun _ => hperm.mem_iff
    · rw [mergedNames_eq hne' h', mergedNames_eq hne h]
      exact firstSeen_perm hperm
  · intro heap a bs hcells
    cases hcells with
    | @cons a p bs ps ha hbs =>
      have hmappings : List.Forall₂ (fun b m => heap.mapping? b = some m) bs
          (ps.map fun q => q.mapping part) := by
        rw [List.forall₂_map_right_iff]
        exact hbs
      exact foldMappingsAt_spec ha hmappings

/-- Two profiles that walk the same MIB, the first one polled twice. -/
theorem mergedMappings_firstSeenUnion_repeated : ∃ p q,
    (Profile.new "a" { varBinds := some [[.str "IF-MIB"]] }).process = .ok p ∧
    (Profile.new "b" { varBinds := some [[.str "IF-MIB"]] }).process = .ok q ∧
    FirstSeenUnion .bulk [p, q, p] := by
  have hreturns : ∀ name, ∃ p,
      (Profile.new name { varBinds := some [[.str "IF-MIB"]] }).process = .ok p := by
    intro name
    refine (process_returns_iff name _).mpr ⟨_, rfl, fun v hv => ?_⟩
    obtain rfl := List.mem_singleton.mp hv
    exact ⟨List.cons_ne_nil _ _, fun h => absurd h (by decide)⟩
  obtain ⟨p, hp⟩ := hreturns "a"
  obtain ⟨q, hq⟩ := hreturns "b"
  have hpName := Profile.nameable_process hp ⟨by decide, by decide⟩
  have hqName := Profile.nameable_process hq ⟨by decide, by decide⟩
  refine ⟨p, q, hp, hq, mergedMappings_firstSeenUnion .bulk [p, q, p] (List.cons_ne_nil _ _) ?_⟩
  intro r hr
  simp only [List.mem_cons, List.not_mem_nil, or_false] at hr
  rcases hr with rfl | rfl | rfl
  · exact hpName
  · exact hqName
  · exact hpName

end Sc4snmp
