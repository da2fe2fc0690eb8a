import Sc4snmp.Lib.Minimals
import Sc4snmp.Snmp.MergedProfiles
import Sc4snmp.Snmp.ProfileDivision

/-!
# Adding containers

A key is below another one if it is that of the MIB or of the object of a varbind with
the other key.  Two containers are added by inserting what both have, the shorter keys
first, and a key below another one is the shorter one.  So the sum has the minimal keys of
both together, and addition is the join of sets of keys.

A container that varbinds have been inserted into in any order may have a key and one
below it; that is gone after an addition, also after the addition of the container to
itself.

## Main definitions

* `Below` — the order of keys.
* `VarBindContainer.Built` — containers that varbinds of names have been inserted into.
* `VarBindContainer.Joins` — addition is a join.

## Main results

* `add_named` — the keys of a sum.
* `requested_joined` — the keys of profiles polled together.
* `VarBindContainer.add_joins` — **addition is a join, and the order of profiles does not matter**.
-/

namespace Sc4snmp

open Minimals

/-! ### The order of keys -/

/-- The key of a general varbind is below that of a varbind it covers. -/
def Below (j k : VarbindItem) : Prop :=
  ∃ v : Varbind, v.WellFormed ∧ k = .str v.key ∧ ∃ u ∈ v.parents, j = .str u.key

theorem wellFounded_below : WellFounded Below := by
  have hlength : ∀ j k, Below j k → j.format.length < k.format.length := by
    rintro j k ⟨v, hv, rfl, u, hu, rfl⟩
    exact Varbind.key_length_lt hv hu
  exact Subrelation.wf (fun {j k} h => hlength j k h) (measure _).wf

theorem below_trans (i j k : VarbindItem) (hij : Below i j) (hjk : Below j k) : Below i k := by
  obtain ⟨u, hu, rfl, t, ht, rfl⟩ := hij
  obtain ⟨v, hv, rfl, w, hw, hkey⟩ := hjk
  -- a general varbind is the only one with its key
  obtain rfl := Varbind.eq_of_key_eq (hv.of_mem_parents hw) hu (VarbindItem.str.inj hkey).symm
    (Varbind.length_lt_of_mem_parents hw).2
  exact ⟨v, hv, rfl, t, Varbind.mem_parents_trans ht hw, rfl⟩

namespace VarBindContainer

/-- The keys of a container. -/
def keySet (c : VarBindContainer) : Set VarbindItem := {k | k ∈ c.map}

/-- The container has varbinds of names, each under its key. -/
def Named (c : VarBindContainer) : Prop :=
  ∀ k v, c.map.get? k = some v → v.WellFormed ∧ k = .str v.key

/-- Varbinds of names have been inserted into the container, in any order. -/
def Built (c : VarBindContainer) : Prop :=
  ∃ L : List Varbind, (∀ v ∈ L, v.WellFormed) ∧ L.foldlM insertVarbind empty = .ok c

theorem Keeps.named {c : VarBindContainer} {S : Varbind → Prop} (h : c.Keeps S) : c.Named := by
  intro k v hget
  obtain ⟨hv, hk⟩ := h.entries k v hget
  exact ⟨h.wellFormed v hv, hk⟩

theorem named_empty : empty.Named := fun _ _ h => by cases h

/-- Inserting a varbind of names. -/
theorem Named.insert {c c' : VarBindContainer} (h : c.Named) {v : Varbind} (hv : v.WellFormed)
    (hrun : c.insertVarbind v = .ok c') : c'.Named := by
  rw [insertVarbind_eq c hv] at hrun
  cases hrun
  split
  · exact h
  · intro k w hget
    rw [Dict.get?_insert] at hget
    split at hget
    · next hk =>
      cases hget
      exact ⟨hv, hk⟩
    · exact h k w hget

theorem Built.named {c : VarBindContainer} (h : c.Built) : c.Named := by
  obtain ⟨L, hL, hrun⟩ := h
  induction L using List.reverseRecOn generalizing c with
  | nil =>
    cases hrun
    exact named_empty
  | append_singleton L v ih =>
    rw [List.foldlM_append] at hrun
    obtain ⟨c₁, hfirst, hlast⟩ := PyError.bind_eq_ok.mp hrun
    rw [List.foldlM_cons] at hlast
    obtain ⟨c₂, hinsert, hlast⟩ := PyError.bind_eq_ok.mp hlast
    cases hlast
    rw [List.forall_mem_append] at hL
    exact (ih hL.1 hfirst).insert (hL.2 v List.mem_cons_self) hinsert

/-- **The keys of a sum** are the minimal keys of both containers together. -/
theorem add_named {a b : VarBindContainer} (ha : a.Named) (hb : b.Named) :
    ∃ d, a.add b = .ok d ∧ d.Named ∧ d.Built ∧
      d.keySet = minimals Below (a.keySet ∪ b.keySet) := by
  have hjoined : ∀ k v, (a.map.update b.map).get? k = some v → v.WellFormed ∧ k = .str v.key := by
    intro k v hget
    rw [Dict.get?_update, Option.or_eq_some_iff] at hget
    rcases hget with hget | ⟨-, hget⟩
    · exact hb k v hget
    · exact ha k v hget
  have hkeys : ∀ k, k ∈ a.keySet ∪ b.keySet ↔ ∃ v, (a.map.update b.map).get? k = some v := by
    intro k
    rw [← Dict.mem_keys_iff, Dict.mem_keys_update, or_comm]
    rfl
  obtain ⟨J, hrun, hmemJ, horder⟩ := add_eq_foldlM a b hjoined
  have hJwell : ∀ v ∈ J, v.WellFormed := by
    intro v hv
    obtain ⟨k, hk⟩ := (hmemJ v).mp hv
    exact (hjoined k v hk).1
  obtain ⟨d, hd, hkeeps⟩ := keeps_insertAll J hJwell horder
  refine ⟨d, hrun.trans hd, hkeeps.named, ⟨J, hJwell, hd⟩, Set.ext fun k => ?_⟩
  refine (hkeeps.keys k).trans ?_
  constructor
  · rintro ⟨v, hv, hnone, rfl⟩
    obtain ⟨k, hk⟩ := (hmemJ v).mp hv
    obtain rfl := (hjoined k v hk).2
    refine ⟨(hkeys _).mpr ⟨v, hk⟩, ?_⟩
    rintro j ⟨w, hw, hkey, u, hu, rfl⟩ hj
    -- what stands under the key of a general varbind is that varbind
    obtain ⟨t, ht⟩ := (hkeys _).mp hj
    rw [← Varbind.parents_eq_of_key_eq (hJwell v hv) hw (VarbindItem.str.inj hkey)] at hu
    obtain rfl := Varbind.eq_of_key_eq ((hJwell v hv).of_mem_parents hu) (hjoined _ t ht).1
      (VarbindItem.str.inj (hjoined _ t ht).2) (Varbind.length_lt_of_mem_parents hu).2
    exact hnone t hu ((hmemJ t).mpr ⟨_, ht⟩)
  · rintro ⟨hk, hnone⟩
    obtain ⟨v, hv⟩ := (hkeys k).mp hk
    refine ⟨v, (hmemJ v).mpr ⟨k, hv⟩, fun u hu huJ => ?_, (hjoined k v hv).2⟩
    obtain ⟨j, hj⟩ := (hmemJ u).mp huJ
    obtain rfl := (hjoined j u hj).2
    exact hnone _ ⟨v, (hjoined k v hv).1, (hjoined k v hv).2, u, hu, rfl⟩ ((hkeys _).mpr ⟨u, hj⟩)

/-! ### Laws -/

/-- No key of the container is below another one. -/
def Reduced (c : VarBindContainer) : Prop := ∀ j ∈ c.map, ∀ k ∈ c.map, ¬ Below j k

theorem Reduced.minimals_keySet {c : VarBindContainer} (h : c.Reduced) :
    minimals Below c.keySet = c.keySet :=
  Set.Subset.antisymm minimals_subset fun k hk => ⟨hk, fun j hjk hj => h j hj k hk hjk⟩

/-- What is kept of a set of varbinds is reduced, as the containers of a processed profile are. -/
theorem Keeps.reduced {c : VarBindContainer} {S : Varbind → Prop} (h : c.Keeps S) : c.Reduced := by
  rintro j hj k hk ⟨w, hw, rfl, u, hu, rfl⟩
  obtain ⟨v, hv⟩ := Dict.mem_keys_iff.mp hk
  obtain ⟨hwell, hkey⟩ := h.named _ v hv
  rw [Varbind.parents_eq_of_key_eq hw hwell (VarbindItem.str.inj hkey)] at hu
  exact h.apart hv u hu hj

/-- **Addition is a join** on the keys of three containers. -/
structure Joins (a b c : VarBindContainer) : Prop where
  sum : ∃ d, a.add b = .ok d ∧ d.keySet = minimals Below (a.keySet ∪ b.keySet)
  comm : ∃ d d', a.add b = .ok d ∧ b.add a = .ok d' ∧ d.keySet = d'.keySet
  assoc : ∃ ab left bc right, a.add b = .ok ab ∧ ab.add c = .ok left ∧ b.add c = .ok bc ∧
    a.add bc = .ok right ∧ left.keySet = right.keySet
  idem : a.Reduced → ∃ d, a.add a = .ok d ∧ d.keySet = a.keySet
  idemSum : ∃ ab d, a.add b = .ok ab ∧ ab.add ab = .ok d ∧ d.keySet = ab.keySet

theorem joins_of_named {a b c : VarBindContainer} (ha : a.Named) (hb : b.Named) (hc : c.Named) :
    Joins a b c := by
  obtain ⟨ab, hab, habNamed, -, habKeys⟩ := add_named ha hb
  obtain ⟨ba, hba, -, -, hbaKeys⟩ := add_named hb ha
  obtain ⟨bc, hbc, hbcNamed, -, hbcKeys⟩ := add_named hb hc
  obtain ⟨left, hleft, -, -, hleftKeys⟩ := add_named habNamed hc
  obtain ⟨right, hright, -, -, hrightKeys⟩ := add_named ha hbcNamed
  obtain ⟨aa, haa, -, -, haaKeys⟩ := add_named ha ha
  obtain ⟨twice, htwice, -, -, htwiceKeys⟩ := add_named habNamed habNamed
  refine ⟨⟨ab, hab, habKeys⟩, ⟨ab, ba, hab, hba, ?_⟩,
    ⟨ab, left, bc, right, hab, hleft, hbc, hright, ?_⟩, fun h => ⟨aa, haa, ?_⟩,
    ab, twice, hab, htwice, ?_⟩
  · rw [habKeys, hbaKeys, Set.union_comm]
  · rw [hleftKeys, hrightKeys, habKeys, hbcKeys, join_assoc wellFounded_below below_trans]
  · rw [haaKeys, Set.union_self, h.minimals_keySet]
  · rw [htwiceKeys, Set.union_self, habKeys, minimals_minimals wellFounded_below below_trans]

end VarBindContainer

/-! ### Profiles polled together -/

/-- The keys that an answer requests in a part. -/
def PollingInfo.keySet (part : RequestPart) : PollingInfo → Set VarbindItem
  | .profile p => (p.container part).keySet
  | _ => ∅

/-- The keys that each of the profiles requests in a part. -/
def keySets (polled : List (String × Profile)) (part : RequestPart) : List (Set VarbindItem) :=
  polled.map fun e => (e.2.container part).keySet

/-- An answer holds the profiles together: a part of it has the keys of theirs, reduced if there
are several. -/
def PollingInfo.Holds (info : PollingInfo) (polled : List (String × Profile)) : Prop :=
  match info with
  | .profile p => polled ≠ [] ∧ ∀ part, (p.container part).Named ∧
      (p.container part).keySet = joined Below (keySets polled part)
  | _ => polled = []

section Requested

variable {polled : List (String × Profile)} {p q : Profile} {name : String}

theorem holds_single (hq : ∀ part, (q.container part).Named) :
    (PollingInfo.profile q).Holds [(name, q)] :=
  ⟨List.cons_ne_nil _ _, fun part => ⟨hq part, rfl⟩⟩

/-- Adding a profile of names to others. -/
theorem holds_add (h : (PollingInfo.profile p).Holds polled)
    (hq : ∀ part, (q.container part).Named) :
    ∃ r, p.add q = .ok r ∧ (PollingInfo.profile r).Holds (polled ++ [(name, q)]) := by
  obtain ⟨hne, hparts⟩ := h
  obtain ⟨bulk, hbulk, hbulkNamed, -, hbulkKeys⟩ :=
    VarBindContainer.add_named (hparts .bulk).1 (hq .bulk)
  obtain ⟨get, hget, hgetNamed, -, hgetKeys⟩ :=
    VarBindContainer.add_named (hparts .get).1 (hq .get)
  refine ⟨_, PyError.bind_eq_ok.mpr ⟨bulk, hbulk, PyError.bind_eq_ok.mpr ⟨get, hget, rfl⟩⟩,
    by simp, fun part => ?_⟩
  have hsets : keySets (polled ++ [(name, q)]) part =
      keySets polled part ++ [(q.container part).keySet] := by simp [keySets]
  have hsetsNe : keySets polled part ≠ [] := by simpa [keySets] using hne
  rw [hsets, joined_append wellFounded_below below_trans hsetsNe, ← (hparts part).2]
  cases part with
  | bulk => exact ⟨hbulkNamed, hbulkKeys⟩
  | get => exact ⟨hgetNamed, hgetKeys⟩

end Requested

namespace ProfileCollection

variable {coll : ProfileCollection} {names : List String}

/-- The profiles of the names are made of varbinds of names. -/
def BuiltFor (coll : ProfileCollection) (names : List String) : Prop :=
  ∀ name ∈ names, ∀ p, coll.getProfile name = .profile p → ∀ part, (p.container part).Built

/-- Combining an answer with that for one more name. -/
theorem holds_combineProfiles {info : PollingInfo} {polled : List (String × Profile)}
    {name : String} (h : info.Holds polled) (hbuilt : coll.BuiltFor [name]) :
    ∃ r, combineProfiles info (coll.getProfile name) = .ok r ∧
      r.Holds (polled ++ coll.polled [name]) := by
  cases hget : coll.getProfile name with
  | profile q =>
    have hq : ∀ part, (q.container part).Named := fun part =>
      (hbuilt name List.mem_cons_self q hget part).named
    have hpolled : coll.polled [name] = [(name, q)] := by simp [ProfileCollection.polled, hget]
    rw [hpolled]
    cases info with
    | profile p =>
      obtain ⟨r, hr, hholds⟩ : ∃ r, p.add q = .ok r ∧
          (PollingInfo.profile r).Holds (polled ++ [(name, q)]) := holds_add h hq
      exact ⟨.profile r, PyError.bind_eq_ok.mpr ⟨r, hr, rfl⟩, hholds⟩
    | nothing =>
      rw [show polled = [] from h]
      exact ⟨_, rfl, holds_single hq⟩
    | none =>
      rw [show polled = [] from h]
      exact ⟨_, rfl, holds_single hq⟩
  | nothing =>
    have hpolled : coll.polled [name] = [] := by simp [ProfileCollection.polled, hget]
    rw [hpolled, List.append_nil]
    cases info with
    | profile p => exact ⟨_, rfl, h⟩
    | nothing => exact ⟨_, rfl, h⟩
    | none => exact ⟨_, rfl, h⟩
  | none =>
    have hpolled : coll.polled [name] = [] := by simp [ProfileCollection.polled, hget]
    rw [hpolled, List.append_nil]
    cases info with
    | profile p => exact ⟨_, rfl, h⟩
    | nothing => exact ⟨_, rfl, h⟩
    | none => exact ⟨_, rfl, h⟩

/-- The answer for one name. -/
theorem holds_getProfile {name : String} (hbuilt : coll.BuiltFor [name]) :
    (coll.getProfile name).Holds (coll.polled [name]) := by
  cases hget : coll.getProfile name with
  | profile q =>
    have hpolled : coll.polled [name] = [(name, q)] := by simp [ProfileCollection.polled, hget]
    rw [hpolled]
    exact holds_single fun part => (hbuilt name List.mem_cons_self q hget part).named
  | nothing => simp [ProfileCollection.polled, hget, PollingInfo.Holds]
  | none => simp [ProfileCollection.polled, hget, PollingInfo.Holds]

/-- Combining an answer with those for more names. -/
theorem holds_foldlM {info : PollingInfo} {polled : List (String × Profile)}
    (h : info.Holds polled) (hbuilt : coll.BuiltFor names) :
    ∃ r, (names.map coll.getProfile).foldlM combineProfiles info = .ok r ∧
      r.Holds (polled ++ coll.polled names) := by
  induction names generalizing info polled with
  | nil => exact ⟨info, rfl, by simpa [ProfileCollection.polled] using h⟩
  | cons name names ih =>
    obtain ⟨hone, hrest⟩ : coll.BuiltFor [name] ∧ coll.BuiltFor names :=
      ⟨fun n hn => hbuilt n (List.mem_singleton.mp hn ▸ List.mem_cons_self),
        fun n hn => hbuilt n (List.mem_cons_of_mem _ hn)⟩
    obtain ⟨r, hr, hholds⟩ := holds_combineProfiles h hone
    obtain ⟨r', hr', hholds'⟩ := ih hholds hrest
    refine ⟨r', ?_, ?_⟩
    · rw [List.map_cons, List.foldlM_cons, hr]
      exact hr'
    · rwa [polled_cons, ← List.append_assoc]

/-- **What is requested for a list of names** holds their profiles together. -/
theorem holds_getPollingInfo (hbuilt : coll.BuiltFor names) (hne : names ≠ []) :
    ∃ info, coll.getPollingInfoFromProfiles names false = .ok info ∧
      info.Holds (coll.polled names) := by
  cases names with
  | nil => exact absurd rfl hne
  | cons name names =>
    obtain ⟨hone, hrest⟩ : coll.BuiltFor [name] ∧ coll.BuiltFor names :=
      ⟨fun n hn => hbuilt n (List.mem_singleton.mp hn ▸ List.mem_cons_self),
        fun n hn => hbuilt n (List.mem_cons_of_mem _ hn)⟩
    obtain ⟨r, hr, hholds⟩ := holds_foldlM (holds_getProfile hone) hrest
    refine ⟨r, (getPollingInfoFromProfiles_cons coll name names).trans hr, ?_⟩
    rwa [polled_cons]

/-- **The keys that are requested** in each part are those of the profiles together. -/
theorem requested_joined {info : PollingInfo} (hbuilt : coll.BuiltFor names)
    (hrun : coll.getPollingInfoFromProfiles names false = .ok info) (part : RequestPart) :
    info.keySet part = joined Below (keySets (coll.polled names) part) := by
  have hne : names ≠ [] := by
    rintro rfl
    cases hrun
  obtain ⟨info', hinfo, hholds⟩ := holds_getPollingInfo hbuilt hne
  cases hrun.symm.trans hinfo
  cases info with
  | profile p => exact (hholds.2 part).2
  | nothing =>
    rw [show coll.polled names = [] from hholds]
    rfl
  | none =>
    rw [show coll.polled names = [] from hholds]
    rfl

/-- The keys requested for the names in another order are the same. -/
def OrderFree (coll : ProfileCollection) (names names' : List String) : Prop :=
  ∀ info, coll.getPollingInfoFromProfiles names false = .ok info →
    ∃ info', coll.getPollingInfoFromProfiles names' false = .ok info' ∧
      ∀ part, info'.keySet part = info.keySet part

theorem orderFree_of_perm {names' : List String} (hbuilt : coll.BuiltFor names)
    (hperm : names'.Perm names) : coll.OrderFree names names' := by
  intro info hrun
  have hbuilt' : coll.BuiltFor names' := fun name hname => hbuilt name (hperm.mem_iff.mp hname)
  have hne' : names' ≠ [] := by
    rintro rfl
    rw [List.nil_perm.mp hperm] at hrun
    cases hrun
  obtain ⟨info', hinfo', -⟩ := holds_getPollingInfo hbuilt' hne'
  refine ⟨info', hinfo', fun part => ?_⟩
  rw [requested_joined hbuilt' hinfo' part, requested_joined hbuilt hrun part]
  exact joined_perm ((hperm.filterMap _).map _)

end ProfileCollection

namespace VarBindContainer

/-- **Container addition is a join on the keys, and the order in which profiles are combined does
not matter.** -/
theorem add_joins (a b c : VarBindContainer) (ha : a.Built) (hb : b.Built) (hc : c.Built)
    (coll : ProfileCollection) (names names' : List String) (hbuilt : coll.BuiltFor names)
    (hperm : names'.Perm names) : Joins a b c ∧ coll.OrderFree names names' :=
  ⟨joins_of_named ha.named hb.named hc.named, ProfileCollection.orderFree_of_perm hbuilt hperm⟩

/-! ### An object before its MIB, and a colon -/

/-- Varbinds of names without dots and doubled colons have been inserted, in any order. -/
def PlainlyBuilt (c : VarBindContainer) : Prop :=
  ∃ L : List Varbind, (∀ v ∈ L, v.PlainlyNamed) ∧ L.foldlM insertVarbind empty = .ok c

/-- A container that an object has been inserted into before its MIB. -/
def objectFirst : VarBindContainer :=
  ⟨Dict.ofList [(.str "IF-MIB::ifDescr", [.str "IF-MIB", .str "ifDescr"]),
    (.str "IF-MIB", [.str "IF-MIB"])]⟩

/-- A container with one varbind. -/
def lone (v : Varbind) : VarBindContainer := ⟨Dict.ofList [(.str v.key, v)]⟩

theorem plainlyBuilt_lone {v : Varbind} (hv : v.PlainlyNamed)
    (hrun : empty.insertVarbind v = .ok (lone v)) : PlainlyBuilt (lone v) := by
  refine ⟨[v], fun w hw => List.mem_singleton.mp hw ▸ hv, ?_⟩
  rw [List.foldlM_cons, hrun]
  rfl

/-- The object is gone when the container is added to itself; and two varbinds with one key, of
a MIB whose name ends with a colon and of an object whose name begins with one, come under
different MIBs. -/
theorem add_joins_fails :
    (¬ ∀ a, PlainlyBuilt a → ∃ d, a.add a = .ok d ∧ d.keySet = a.keySet) ∧
    ¬ ∀ a b c, PlainlyBuilt a → PlainlyBuilt b → PlainlyBuilt c →
      ∃ ab left bc right, a.add b = .ok ab ∧ ab.add c = .ok left ∧ b.add c = .ok bc ∧
        a.add bc = .ok right ∧ left.keySet = right.keySet := by
  constructor
  · intro hclaim
    have hbuilt : PlainlyBuilt objectFirst := by
      refine ⟨[[.str "IF-MIB", .str "ifDescr"], [.str "IF-MIB"]], ?_, by decide⟩
      intro v hv
      simp only [List.mem_cons, List.not_mem_nil, or_false] at hv
      rcases hv with rfl | rfl
      · exact .object ⟨by decide, by decide⟩ ⟨by decide, by decide⟩
      · exact .mib ⟨by decide, by decide⟩
    obtain ⟨d, hd, hkeys⟩ := hclaim objectFirst hbuilt
    have hsum : objectFirst.add objectFirst = .ok (lone [.str "IF-MIB"]) := by decide
    cases hd.symm.trans hsum
    have hmem : .str "IF-MIB::ifDescr" ∈ (lone [.str "IF-MIB"]).keySet :=
      hkeys ▸ (by decide : .str "IF-MIB::ifDescr" ∈ objectFirst.map)
    exact absurd hmem (by decide : .str "IF-MIB::ifDescr" ∉ (lone [.str "IF-MIB"]).map)
  · intro hclaim
    obtain ⟨ab, left, bc, right, hab, hleft, hbc, hright, hkeys⟩ :=
      hclaim (lone [.str "A:", .str "b"]) (lone [.str "A", .str ":b"]) (lone [.str "A"])
        (plainlyBuilt_lone (.object ⟨by decide, by decide⟩ ⟨by decide, by decide⟩) (by decide))
        (plainlyBuilt_lone (.object ⟨by decide, by decide⟩ ⟨by decide, by decide⟩) (by decide))
        (plainlyBuilt_lone (.mib ⟨by decide, by decide⟩) (by decide))
    have hab' : (lone [.str "A:", .str "b"]).add (lone [.str "A", .str ":b"]) =
        .ok (lone [.str "A", .str ":b"]) := by decide
    cases hab.symm.trans hab'
    have hleft' : (lone [.str "A", .str ":b"]).add (lone [.str "A"]) =
        .ok (lone [.str "A"]) := by decide
    cases hleft.symm.trans hleft'
    cases hbc.symm.trans hleft'
    have hright' : (lone [.str "A:", .str "b"]).add (lone [.str "A"]) =
        .ok ⟨Dict.ofList [(.str "A", [.str "A"]), (.str "A:::b", [.str "A:", .str "b"])]⟩ := by
      decide
    cases hright.symm.trans hright'
    have hmem : .str "A:::b" ∈ (lone [.str "A"]).keySet := by
      rw [hkeys]
      exact (by decide : .str "A:::b" ∈ (⟨Dict.ofList [(.str "A", [.str "A"]),
        (.str "A:::b", [.str "A:", .str "b"])]⟩ : VarBindContainer).map)
    exact absurd hmem (by decide : .str "A:::b" ∉ (lone [.str "A"]).map)

/-- A profile that walks one varbind. -/
def walking (name : String) (v : Varbind) : Profile where
  name := name
  type := none
  varbinds := some [v]
  varbindsBulk := lone v

/-- Two profiles, one that walks a MIB and one that walks an object of it. -/
def twoProfiles : ProfileCollection where
  listOfProfilesRaw := Dict.empty
  listOfProfiles := Dict.ofList [("whole", walking "whole" [.str "IF-MIB"]),
    ("part", walking "part" [.str "IF-MIB", .str "ifDescr"])]

theorem add_joins_twoProfiles :
    Joins objectFirst (lone [.str "IF-MIB", .str "ifDescr"]) (lone [.str "IF-MIB"]) ∧
      twoProfiles.OrderFree ["whole", "part"] ["part", "whole"] := by
  have hmib : Varbind.WellFormed [.str "IF-MIB"] := .mib ProfileCollection.mibName_ifMib
  have hobject : Varbind.WellFormed [.str "IF-MIB", .str "ifDescr"] :=
    .object ProfileCollection.mibName_ifMib ⟨by decide, by decide⟩
  have hwhole : Built (lone [.str "IF-MIB"]) :=
    ⟨[[.str "IF-MIB"]], by simpa using hmib, by decide⟩
  have hpart : Built (lone [.str "IF-MIB", .str "ifDescr"]) :=
    ⟨[[.str "IF-MIB", .str "ifDescr"]], by simpa using hobject, by decide⟩
  have hempty : Built empty := ⟨[], by simp, rfl⟩
  refine add_joins _ _ _ ⟨[[.str "IF-MIB", .str "ifDescr"], [.str "IF-MIB"]],
    by simpa using ⟨hobject, hmib⟩, by decide⟩ hpart hwhole twoProfiles _ _ ?_ (by decide)
  intro name hname p hp part
  simp only [List.mem_cons, List.not_mem_nil, or_false] at hname
  rcases hname with rfl | rfl
  · have hwalking : twoProfiles.getProfile "whole" =
        .profile (walking "whole" [.str "IF-MIB"]) := by
      decide
    cases hp.symm.trans hwalking
    cases part with
    | bulk => exact hwhole
    | get => exact hempty
  · have hwalking : twoProfiles.getProfile "part" =
        .profile (walking "part" [.str "IF-MIB", .str "ifDescr"]) := by decide
    cases hp.symm.trans hwalking
    cases part with
    | bulk => exact hpart
    | get => exact hempty

end VarBindContainer

end Sc4snmp
