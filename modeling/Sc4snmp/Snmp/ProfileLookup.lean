import Sc4snmp.Snmp.ProcessSnmpData
import Sc4snmp.Snmp.ProfileCombination

/-!
# The profile a varbind is attributed to

A varbind is looked up under three keys, from its instance to its MIB, and the text of the
first one that is there is its profile.  All three are keys of its MIB.  If there is none of
them, or its text is empty, the keys are gone through in order, and the first one that has
the name of the MIB somewhere in it gives its text: that need not be a key of the MIB at
all.

## Main definitions

* `mibOf` — the MIB of a key.
* `ownText` — the text of the most specific key of a varbind.
* `AttributedToMib` — the text is one that was asked for the MIB under.
* `ScanStaysInMib` — where the keys are gone through, a key of the MIB is found.

## Main results

* `attributedToMib_iff` — **when a varbind is attributed to a profile of its MIB**.
* `attributedToMib_fails` — a MIB whose name is part of that of another one.
-/

namespace Sc4snmp

/-- The MIB of a key: what comes before its first two colons. -/
def mibOf (key : String) : String :=
  String.ofList ((Text.splitDoubled ':' key.toList).headD [])

/-- The text of the most specific key of a varbind: that of its instance, of its object, or of its
MIB. -/
def ownText (mapping : Dict String String) (identity : ObjectIdentity) : Option String :=
  (mapping.get? (String.ofList (identity.prettyPrint.toList.filter (· ≠ Char.ofNat 34)))).or
    ((mapping.get? (identity.mib ++ "::" ++ identity.metric)).or (mapping.get? identity.mib))

/-- The first entry whose key has the name of the MIB in it. -/
def firstContaining (mapping : Dict String String) (mib : String) : Option (String × String) :=
  mapping.entries.find? fun e => Text.contains e.1 mib

/-- The object is resolved: it is printed as its MIB, its name and the instance, and its MIB has a
name without quotes, dots and colons that count. -/
structure ObjectIdentity.Resolved (identity : ObjectIdentity) : Prop where
  mibName : MibName identity.mib
  quoteless : Char.ofNat 34 ∉ identity.mib.toList
  printed : ∃ inst, identity.prettyPrint = identity.mib ++ "::" ++ identity.metric ++ inst

/-- **The profile of a varbind was asked for its MIB**: it is the text of a key of the MIB, and if
the varbind has a key of its own, the text of the most specific one. -/
structure AttributedToMib (mapping : Dict String String) (identity : ObjectIdentity) : Prop where
  mib : ∀ profile, setProfileName mapping identity = some profile →
    ∃ key text, mapping.get? key = some text ∧ mibOf key = identity.mib ∧
      profile = cleanProfileName text
  specific : ∀ text, ownText mapping identity = some text →
    setProfileName mapping identity = some (cleanProfileName text)

/-- Where the keys are gone through, the first one with the name of the MIB in it has the text of a
key of the MIB, and none if a key of the varbind has none. -/
def ScanStaysInMib (mapping : Dict String String) (identity : ObjectIdentity) : Prop :=
  match ownText mapping identity with
  | some text => text = "" → ∀ e, firstContaining mapping identity.mib = some e →
      cleanProfileName e.2 = ""
  | none => ∀ e, firstContaining mapping identity.mib = some e →
      ∃ key text, mapping.get? key = some text ∧ mibOf key = identity.mib ∧
        cleanProfileName e.2 = cleanProfileName text

section Lookup

variable {mapping : Dict String String} {identity : ObjectIdentity}

theorem mibOf_append {mib : String} (h : MibName mib) (rest : String) :
    mibOf (mib ++ "::" ++ rest) = mib := by
  have hkey : (mib ++ "::" ++ rest).toList = mib.toList ++ ':' :: ':' :: rest.toList := by
    simp
  rw [mibOf, hkey, Text.splitDoubled_append h.1.2 h.2]
  simp

theorem mibOf_mib {mib : String} (h : MibName mib) : mibOf mib = mib := by
  rw [mibOf, h.1.2]
  simp

/-- The keys a resolved varbind is looked up under are keys of its MIB. -/
theorem exists_key_of_ownText (hid : identity.Resolved) {text : String}
    (h : ownText mapping identity = some text) :
    ∃ key, mapping.get? key = some text ∧ mibOf key = identity.mib := by
  obtain ⟨inst, hprinted⟩ := hid.printed
  rcases Option.or_eq_some_iff.mp h with h | ⟨-, h⟩
  · refine ⟨_, h, ?_⟩
    -- without its quotes the instance still begins with the MIB
    have hmib : identity.mib.toList.filter (· ≠ Char.ofNat 34) = identity.mib.toList := by
      rw [List.filter_eq_self]
      intro c hc
      have hne : c ≠ Char.ofNat 34 := fun heq => hid.quoteless (heq ▸ hc)
      simpa using hne
    have hkey : String.ofList (identity.prettyPrint.toList.filter (· ≠ Char.ofNat 34)) =
        identity.mib ++ "::" ++ String.ofList
          ((identity.metric ++ inst).toList.filter (· ≠ Char.ofNat 34)) := by
      apply String.toList_injective
      have hcolons : "::".toList.filter (· ≠ Char.ofNat 34) = "::".toList := by decide
      rw [hprinted]
      simp only [String.toList_append, List.filter_append, hmib, hcolons, String.toList_ofList,
        List.append_assoc]
    rw [hkey]
    exact mibOf_append hid.mibName _
  · rcases Option.or_eq_some_iff.mp h with h | ⟨-, h⟩
    · exact ⟨_, h, mibOf_append hid.mibName _⟩
    · exact ⟨_, h, mibOf_mib hid.mibName⟩

/-- What is looked up: the varbind's own text, or else what the keys are gone through for. -/
theorem setProfileName_eq (mapping : Dict String String) (identity : ObjectIdentity) :
    setProfileName mapping identity =
      (if (ownText mapping identity).getD "" = "" then
        ((firstContaining mapping identity.mib).map Prod.snd).or (ownText mapping identity)
      else ownText mapping identity).map cleanProfileName := by
  unfold setProfileName matchMappingToProfile
  by_cases hempty : mapping.entries.isEmpty = true
  · -- an empty mapping has no key at all
    have hnil : mapping.entries = [] := List.isEmpty_iff.mp hempty
    have hget : ∀ k, mapping.get? k = none := fun k => by rw [Dict.get?, hnil]; rfl
    simp [ownText, hget, firstContaining, hnil]
  · rw [if_neg hempty]
    dsimp only
    rw [← ownText]
    congr 1
    split
    · cases hfirst : mapping.entries.find? fun e => Text.contains e.1 identity.mib <;>
        simp [firstContaining, hfirst]
    · rfl

/-- A varbind whose text is that of its most specific key is attributed to its MIB. -/
theorem attributedToMib_of_own (hid : identity.Resolved) {text : String}
    (hown : ownText mapping identity = some text)
    (hset : setProfileName mapping identity = some (cleanProfileName text)) :
    AttributedToMib mapping identity := by
  refine ⟨fun profile hprofile => ?_, fun text' hown' => ?_⟩
  · obtain ⟨key, hget, hmib⟩ := exists_key_of_ownText hid hown
    exact ⟨key, text, hget, hmib, Option.some.inj (hprofile.symm.trans hset)⟩
  · cases hown.symm.trans hown'
    exact hset

/-- **When a varbind is attributed to a profile of its MIB.** -/
theorem attributedToMib_iff (mapping : Dict String String) (identity : ObjectIdentity)
    (hid : identity.Resolved) :
    AttributedToMib mapping identity ↔ ScanStaysInMib mapping identity := by
  have hset := setProfileName_eq mapping identity
  unfold ScanStaysInMib
  cases hown : ownText mapping identity with
  | none =>
    -- no key of the varbind is there: what is found, if anything, is what counts
    rw [hown, Option.getD_none, if_pos rfl, Option.or_none, Option.map_map] at hset
    constructor
    · intro h e he
      rw [he] at hset
      exact h.mib _ hset
    · intro h
      refine ⟨fun profile hprofile => ?_, fun text htext => ?_⟩
      · rw [hset] at hprofile
        obtain ⟨e, he, rfl⟩ := Option.map_eq_some_iff.mp hprofile
        exact h e he
      · cases hown.symm.trans htext
  | some text =>
    rw [hown, Option.getD_some] at hset
    by_cases htext : text = ""
    · subst htext
      have hclean : cleanProfileName "" = "" := by decide
      rw [if_pos rfl] at hset
      constructor
      · intro h _ e he
        rw [he, h.specific "" hown, hclean] at hset
        exact (Option.some.inj hset).symm
      · intro h
        refine attributedToMib_of_own hid hown ?_
        rw [hset, hclean]
        cases he : firstContaining mapping identity.mib with
        | none => exact congrArg some hclean
        | some e => exact congrArg some (h rfl e he)
    · rw [if_neg htext] at hset
      exact iff_of_true (attributedToMib_of_own hid hown hset) fun h => absurd h htext

end Lookup

/-! ### A MIB whose name is part of another one's -/

/-- The traffic of an interface. -/
def ifInOctetsIdentity : ObjectIdentity where
  oid := "1.3.6.1.2.1.2.2.1.10.1"
  prettyPrint := "IF-MIB::ifInOctets.1"
  mib := "IF-MIB"
  metric := "ifInOctets"
  index := [.single (.int 1)]

theorem resolved_ifInOctetsIdentity : ifInOctetsIdentity.Resolved :=
  ⟨ProfileCollection.mibName_ifMib, by decide, ".1", by decide⟩

/-- A profile that asks for an object of a vendor's MIB. -/
def vendorMapping : Dict String String :=
  Dict.ofList [("JUNIPER-IF-MIB::ifJnxInErrors", "vendor")]

theorem attributedToMib_iff_ifInOctets :
    AttributedToMib (Dict.ofList [("JUNIPER-IF-MIB::ifJnxInErrors", "vendor"),
        ("IF-MIB::ifInOctets", "traffic")]) ifInOctetsIdentity ↔
      ScanStaysInMib (Dict.ofList [("JUNIPER-IF-MIB::ifJnxInErrors", "vendor"),
        ("IF-MIB::ifInOctets", "traffic")]) ifInOctetsIdentity :=
  attributedToMib_iff _ ifInOctetsIdentity resolved_ifInOctetsIdentity

/-- The traffic is attributed to the vendor's profile. -/
theorem attributedToMib_fails :
    ¬ ∀ (mapping : Dict String String) (identity : ObjectIdentity),
      (∀ key ∈ mapping.keys, ∃ v : Varbind, v.WellFormed ∧ key = v.key) → identity.Resolved →
      AttributedToMib mapping identity := by
  intro hclaim
  have hwell : ∀ key ∈ vendorMapping.keys, ∃ v : Varbind, v.WellFormed ∧ key = v.key := by
    intro key hkey
    obtain rfl : key = "JUNIPER-IF-MIB::ifJnxInErrors" := List.mem_singleton.mp hkey
    exact ⟨[.str "JUNIPER-IF-MIB", .str "ifJnxInErrors"],
      .object ⟨⟨by decide, by decide⟩, by decide⟩ ⟨by decide, by decide⟩, by decide⟩
  obtain ⟨key, text, hget, hmib, -⟩ := (hclaim vendorMapping ifInOctetsIdentity hwell
    resolved_ifInOctetsIdentity).mib "vendor" (by decide)
  have hkey : key ∈ vendorMapping.keys := Dict.mem_keys_iff.mpr ⟨text, hget⟩
  obtain rfl : key = "JUNIPER-IF-MIB::ifJnxInErrors" := List.mem_singleton.mp hkey
  exact absurd hmib (by decide)

end Sc4snmp
