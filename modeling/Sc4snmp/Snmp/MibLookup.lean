import Sc4snmp.Lib.LongestPrefix
import Sc4snmp.Snmp.Trap

/-!
# The MIB of an object identifier

`Poller.is_mib_known` looks for the longest prefix of an object identifier that the index of
MIBs has, component by component.  Prefixes that short that every vendor has them are left
out, and more of them are left out below the enterprises.  Whether an identifier is below
the enterprises is tested on its text, here as in the preloading of the MIBs of a trap, so
`1.3.6.1.4.10` is taken for an enterprise.

## Main definitions

* `components`, `InEnterprises` — an identifier by its components.
* `KnownByLongest mibMap oid found` — `found` names the longest prefix the index has.
* `RunsOn oid` — the text of the enterprises ends in the middle of a component.

## Main results

* `startsWith_enterprises_iff` — what the test of the text says about the components.
* `isMibKnown_knownByLongest_iff` — when the search is right.
* `isMibKnown_eq_iff` — what the search returns then.
* `isMibKnown_isEnterpriseOid_iff` — when the search and the test are both right.
-/

namespace Sc4snmp

open LongestPrefix

/-! ### Object identifiers by their components -/

/-- The components of an object identifier. -/
def components (oid : String) : List String := Text.splitOn '.' oid

/-- The components of `1.3.6.1.4.1`. -/
def enterprises : List String := ["1", "3", "6", "1", "4", "1"]

/-- The identifier is in the subtree of the enterprises. -/
def InEnterprises (oid : String) : Prop := enterprises <+: components oid

instance (oid : String) : Decidable (InEnterprises oid) :=
  inferInstanceAs (Decidable (_ <+: _))

/-- The text of the enterprises, and something other than the end of a component after it. -/
def RunsOn (oid : String) : Prop :=
  ∃ c rest, oid.toList = "1.3.6.1.4.1".toList ++ c :: rest ∧ c ≠ '.'

/-- What the index has for a list of components. -/
def mibAt (mibMap : Dict String String) (parts : List String) : Option String :=
  mibMap.get? (".".intercalate parts)

/-- The pair `is_mib_known` returns for what it found. -/
def foundMib : Option String → Bool × String
  | some mib => (true, mib)
  | none => (false, "")

/-- `found` names the MIB of the longest prefix of more than five components, six below the
enterprises, that the index has. -/
def KnownByLongest (mibMap : Dict String String) (oid : String) (found : Bool × String) : Prop :=
  ∃ r, Longest (mibAt mibMap) (if InEnterprises oid then 6 else 5) (components oid) r ∧
    found = foundMib r

variable {mibMap : Dict String String} {oid : String}

theorem foundMib_injective : ∀ {r r' : Option String}, foundMib r = foundMib r' → r = r'
  | none, none, _ => rfl
  | none, some _, h => absurd (congrArg Prod.fst h) Bool.false_ne_true
  | some _, none, h => absurd (congrArg Prod.fst h).symm Bool.false_ne_true
  | some _, some _, h => congrArg some (congrArg Prod.snd h)

/-- The loop of `is_mib_known` is the search for the longest prefix. -/
theorem longestKnown_eq_search (parts : List String) (start n : ℕ) :
    longestKnown mibMap parts start n = foundMib (search (mibAt mibMap) parts start n) := by
  induction n with
  | zero => rfl
  | succ n ih =>
    rw [longestKnown, search, mibAt]
    split
    · rfl
    · cases mibMap.get? (".".intercalate (parts.take (n + 1))) with
      | some mib => rfl
      | none => exact ih

/-! ### The text and the components -/

theorem intercalate_components (oid : String) :
    List.intercalate ['.'] ((components oid).map String.toList) = oid.toList := by
  rw [components, Text.splitOn_eq_map, List.map_map]
  have hid : String.toList ∘ String.ofList = id := funext fun _ => String.toList_ofList
  rw [hid, List.map_id, List.intercalate_splitOn]

/-- The text of an identifier below the enterprises. -/
theorem toList_of_inEnterprises (h : InEnterprises oid) :
    oid.toList = "1.3.6.1.4.1".toList ∨
      ∃ rest, oid.toList = "1.3.6.1.4.1".toList ++ '.' :: rest := by
  obtain ⟨more, hmore⟩ := h
  have htext := intercalate_components oid
  rw [← hmore] at htext
  cases more with
  | nil => exact Or.inl htext.symm
  | cons part more =>
    refine Or.inr ⟨List.intercalate ['.'] ((part :: more).map String.toList), ?_⟩
    rw [← htext]
    rfl

/-- A text that goes on after the enterprises with the next component. -/
theorem inEnterprises_of_append {rest : List Char}
    (h : oid.toList = "1.3.6.1.4.1".toList ++ '.' :: rest) : InEnterprises oid := by
  rw [InEnterprises, components, Text.splitOn_eq_map, h, List.splitOn_append_cons_self,
    List.map_append]
  exact List.prefix_append _ _

/-- A text that goes on inside the last component is not below the enterprises. -/
theorem not_inEnterprises_of_runsOn (h : RunsOn oid) : ¬ InEnterprises oid := by
  obtain ⟨c, rest, htext, hc⟩ := h
  intro hin
  rcases toList_of_inEnterprises hin with hend | ⟨rest', hnext⟩
  · have hlen := congrArg List.length (htext.symm.trans hend)
    rw [List.length_append, List.length_cons] at hlen
    omega
  · have hcons := List.append_cancel_left (htext.symm.trans hnext)
    exact hc (List.cons.inj hcons).1

/-- **What the test of the text says about the components.** -/
theorem startsWith_enterprises_iff (oid : String) :
    isEnterpriseOid oid = true ↔ InEnterprises oid ∨ RunsOn oid := by
  rw [isEnterpriseOid, Text.startsWith, List.isPrefixOf_iff_prefix]
  constructor
  · rintro ⟨rest, hrest⟩
    cases rest with
    | nil =>
      have hoid : oid = "1.3.6.1.4.1" := String.toList_injective (by simpa using hrest.symm)
      exact Or.inl (hoid ▸ by decide)
    | cons c rest =>
      by_cases hc : c = '.'
      · subst hc
        exact Or.inl (inEnterprises_of_append hrest.symm)
      · exact Or.inr ⟨c, rest, hrest.symm, hc⟩
  · rintro (hin | ⟨c, rest, htext, _⟩)
    · rcases toList_of_inEnterprises hin with hend | ⟨rest, hnext⟩
      · exact hend ▸ List.prefix_refl _
      · exact hnext ▸ List.prefix_append _ _
    · exact htext ▸ List.prefix_append _ _

/-- The test is right unless the text runs on. -/
theorem isEnterpriseOid_iff_inEnterprises (oid : String) :
    (isEnterpriseOid oid = true ↔ InEnterprises oid) ↔ ¬ RunsOn oid := by
  rw [startsWith_enterprises_iff]
  constructor
  · intro h hruns
    exact not_inEnterprises_of_runsOn hruns (h.mp (Or.inr hruns))
  · intro hruns
    exact or_iff_left hruns

/-! ### The search -/

/-- What `is_mib_known` does: the search, from the number of components the text gives. -/
theorem isMibKnown_longest (mibMap : Dict String String) (oid : String) :
    ∃ r, Longest (mibAt mibMap) (if isEnterpriseOid oid then 6 else 5) (components oid) r ∧
      isMibKnown mibMap oid = foundMib r :=
  ⟨_, search_longest, longestKnown_eq_search _ _ _⟩

/-- **When the search is right**: an identifier whose text runs on has to have a prefix of
more than six components in the index, or none of six. -/
theorem isMibKnown_knownByLongest_iff (mibMap : Dict String String) (oid : String) :
    KnownByLongest mibMap oid (isMibKnown mibMap oid) ↔
      (RunsOn oid → (isMibKnown mibMap oid).1 = true ∨
        ∀ q, q <+: components oid → q.length = 6 → mibAt mibMap q = none) := by
  obtain ⟨r, hr, heq⟩ := isMibKnown_longest mibMap oid
  have hanswer : KnownByLongest mibMap oid (isMibKnown mibMap oid) ↔
      Longest (mibAt mibMap) (if InEnterprises oid then 6 else 5) (components oid) r := by
    constructor
    · rintro ⟨r', hr', heq'⟩
      rwa [foundMib_injective (heq.symm.trans heq')]
    · exact fun h => ⟨r, h, heq⟩
  have hfound : (isMibKnown mibMap oid).1 = true ↔ r ≠ none := by
    rw [heq]
    cases r <;> simp [foundMib]
  rw [hanswer, hfound]
  by_cases hruns : RunsOn oid
  · have hin := not_inEnterprises_of_runsOn hruns
    have htest : isEnterpriseOid oid = true := (startsWith_enterprises_iff oid).mpr (Or.inr hruns)
    rw [if_pos htest] at hr
    rw [if_neg hin, longest_iff_of_le (by omega) hr]
    constructor
    · exact fun h _ => h.imp_right fun h q hq hlen => h q hq (by omega) (by omega)
    · exact fun h => (h hruns).imp_right fun h q hq hlen hle => h q hq (by omega)
  · have htest := (isEnterpriseOid_iff_inEnterprises oid).mpr hruns
    refine iff_of_true ?_ fun h => absurd h hruns
    simpa only [htest] using hr

/-- What the search finds is all there is to find: for an identifier whose text does not run
on, it returns a pair exactly if the pair is right. -/
theorem isMibKnown_eq_iff (h : ¬ RunsOn oid) (found : Bool × String) :
    isMibKnown mibMap oid = found ↔ KnownByLongest mibMap oid found := by
  have hright := (isMibKnown_knownByLongest_iff mibMap oid).mpr fun hruns => absurd hruns h
  constructor
  · rintro rfl
    exact hright
  · obtain ⟨r, hr, heq⟩ := hright
    rintro ⟨r', hr', rfl⟩
    rw [heq, hr.unique hr']

/-- **The search gives the longest prefix and the test finds the enterprises** for exactly the
identifiers whose text does not run on. -/
theorem isMibKnown_isEnterpriseOid_iff (mibMap : Dict String String) (oid : String) :
    (KnownByLongest mibMap oid (isMibKnown mibMap oid) ∧
      (isEnterpriseOid oid = true ↔ InEnterprises oid)) ↔ ¬ RunsOn oid := by
  constructor
  · rintro ⟨_, htest⟩
    exact (isEnterpriseOid_iff_inEnterprises oid).mp htest
  · intro hruns
    refine ⟨?_, (isEnterpriseOid_iff_inEnterprises oid).mpr hruns⟩
    exact (isMibKnown_knownByLongest_iff mibMap oid).mpr fun h => absurd h hruns

/-- An index with a MIB next to the enterprises. -/
def nextToEnterprises : Dict String String := Dict.empty.insert "1.3.6.1.4.10" "TEN-MIB"

/-- **A subtree next to the enterprises is taken for one of them**: the index has `1.3.6.1.4.10`,
and the search does not find it for `1.3.6.1.4.10.5`. -/
theorem isMibKnown_nextToEnterprises :
    isMibKnown nextToEnterprises "1.3.6.1.4.10.5" = (false, "") ∧
      ¬ KnownByLongest nextToEnterprises "1.3.6.1.4.10.5"
        (isMibKnown nextToEnterprises "1.3.6.1.4.10.5") ∧
      ¬ (isEnterpriseOid "1.3.6.1.4.10.5" = true ↔ InEnterprises "1.3.6.1.4.10.5") := by
  have hfound : isMibKnown nextToEnterprises "1.3.6.1.4.10.5" = (false, "") := by decide +kernel
  have hin : ¬ InEnterprises "1.3.6.1.4.10.5" := by decide
  refine ⟨hfound, ?_, fun h => hin (h.mp (by decide))⟩
  rw [hfound]
  rintro ⟨r, hr, heq⟩
  cases hr with
  | found => cases heq
  | absent hnone =>
    rw [if_neg hin] at hnone
    have hsix := hnone ["1", "3", "6", "1", "4", "10"] (by decide) (by decide)
    exact absurd hsix (by decide +kernel)

end Sc4snmp
