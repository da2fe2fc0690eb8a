import Sc4snmp.Snmp.Trap
import Sc4snmp.Splunk.Prepare

/-!
# Custom translations

`apply_custom_translations` puts the entries of every group into new dictionaries, some of them
under new names.  Two entries that get the same name become one.

## Main definitions

* `newName` — the name of an entry behind the translations.
* `KeepsEntry`, `NothingDropped` — every entry is still there, with its content.
* `Lossless` — different entries get different names, and what is unresolved keeps its own.

## Main results

* `keepsItems_iff` — when the entries of one dictionary are kept.
* `nothingDropped_iff` — **when a translation drops nothing**.
-/

namespace Sc4snmp

namespace Splunk

/-- The name of an entry behind the translations. -/
def newName (translations : Dict String (Dict String String)) (field : String) : String :=
  (translation translations field).getD field

/-- The key is that of a varbind without a name. -/
def Unresolved (field : String) : Prop := ∃ oid, field = unresolvedFieldName oid

/-- An entry behind the translations against the one before: its content is the same, up to the
name it is given, and its key is the new name or, without a translation, the old one. -/
structure KeepsEntry (translations : Dict String (Dict String String)) (areFields : Bool)
    (e e' : String × Item) : Prop where
  content : ∀ k, k ≠ "name" → e'.2.get? k = e.2.get? k
  untranslated : translation translations e.1 = none → e' = e
  translated : ∀ name, translation translations e.1 = some name → e'.1 = name ∧
    (areFields = true → e'.2.get? "name" = some (.str name)) ∧ (areFields = false → e'.2 = e.2)
  unresolved : Unresolved e.1 → e'.1 = e.1

/-- The entries of a dictionary are all still there. -/
def KeepsItems (translations : Dict String (Dict String String)) (areFields : Bool)
    (items items' : Dict String Item) : Prop :=
  List.Forall₂ (KeepsEntry translations areFields) items.entries items'.entries

/-- The entries of a group are all still there. -/
structure KeepsGroup (translations : Dict String (Dict String String)) (data data' : WorkGroup) :
    Prop where
  fields : KeepsItems translations true data.fields data'.fields
  metrics : KeepsItems translations false data.metrics data'.metrics
  profiles : data'.profiles = data.profiles
  indexes : data'.indexes = data.indexes

/-- The translations drop nothing of a result. -/
def NothingDropped (env : SplunkEnv) (work : Work) : Prop :=
  List.Forall₂ (KeepsGroup env.customTranslations) work.result.values
    (applyCustomTranslations env work)

/-- Different entries get different names, and what is unresolved keeps its own. -/
structure Lossless (translations : Dict String (Dict String String)) (items : Dict String Item) :
    Prop where
  apart : ∀ field ∈ items.keys, ∀ field' ∈ items.keys,
    newName translations field = newName translations field' → field = field'
  unresolved : ∀ field ∈ items.keys, Unresolved field → newName translations field = field

variable {translations : Dict String (Dict String String)} {areFields : Bool}
  {items : Dict String Item}

/-! ### One dictionary -/

/-- What becomes of an entry. -/
def translateEntry (translations : Dict String (Dict String String)) (areFields : Bool)
    (e : String × Item) : String × Item :=
  match translation translations e.1 with
  | some name => (name, if areFields then e.2.insert "name" (.str name) else e.2)
  | none => e

theorem applyCustomTranslationToCollection_eq (translations : Dict String (Dict String String))
    (areFields : Bool) (items : Dict String Item) :
    applyCustomTranslationToCollection translations areFields items =
      Dict.ofList (items.entries.map (translateEntry translations areFields)) := by
  exact congrArg Dict.ofList (List.map_congr_left fun ⟨field, values⟩ _ => rfl)

theorem fst_translateEntry (e : String × Item) :
    (translateEntry translations areFields e).1 = newName translations e.1 := by
  unfold translateEntry newName
  cases translation translations e.1 <;> rfl

theorem keys_translateEntry (items : Dict String Item) :
    (items.entries.map (translateEntry translations areFields)).map Prod.fst =
      items.keys.map (newName translations) := by
  rw [Dict.keys, List.map_map, List.map_map]
  exact List.map_congr_left fun e _ => fst_translateEntry e

/-- An entry is kept if it keeps its name or is resolved. -/
theorem keepsEntry_translateEntry {e : String × Item}
    (h : Unresolved e.1 → newName translations e.1 = e.1) :
    KeepsEntry translations areFields e (translateEntry translations areFields e) := by
  have hunresolved : Unresolved e.1 → (translateEntry translations areFields e).1 = e.1 :=
    fun hun => (fst_translateEntry e).trans (h hun)
  cases hname : translation translations e.1 with
  | none =>
    have hsame : translateEntry translations areFields e = e := by
      rw [translateEntry, hname]
    rw [hsame]
    exact {
      content := fun _ _ => rfl
      untranslated := fun _ => rfl
      translated := fun name hsome => by
        rw [hname] at hsome
        cases hsome
      unresolved := fun _ => rfl }
  | some name =>
    have hnew : translateEntry translations areFields e =
        (name, if areFields then e.2.insert "name" (.str name) else e.2) := by
      rw [translateEntry, hname]
    rw [hnew] at hunresolved ⊢
    refine {
      content := fun k hk => ?_
      untranslated := fun hnone => ?_
      translated := fun name' hsome => ?_
      unresolved := hunresolved }
    · cases areFields with
      | true => exact (Dict.get?_insert ..).trans (if_neg hk)
      | false => rfl
    · rw [hname] at hnone
      cases hnone
    · obtain rfl : name = name' := Option.some.inj (hname.symm.trans hsome)
      refine ⟨rfl, fun hfields => ?_, fun hfields => ?_⟩
      · rw [hfields]
        exact (Dict.get?_insert ..).trans (if_pos rfl)
      · rw [hfields]
        rfl

/-- **When the entries of a dictionary are kept.** -/
theorem keepsItems_iff (translations : Dict String (Dict String String)) (areFields : Bool)
    (items : Dict String Item) :
    KeepsItems translations areFields items
        (applyCustomTranslationToCollection translations areFields items) ↔
      Lossless translations items := by
  rw [KeepsItems, applyCustomTranslationToCollection_eq]
  constructor
  · intro h
    have hnodup := Dict.nodup_of_length_ofList (h.length_eq.symm.trans (List.length_map _).symm)
    rw [Dict.entries_ofList hnodup, List.forall₂_map_right_iff, List.forall₂_same] at h
    rw [keys_translateEntry] at hnodup
    refine ⟨fun field hfield field' hfield' heq => ?_, fun field hfield hun => ?_⟩
    · exact List.inj_on_of_nodup_map hnodup hfield hfield' heq
    · obtain ⟨e, he, rfl⟩ := List.mem_map.mp hfield
      exact (fst_translateEntry e).symm.trans ((h e he).unresolved hun)
  · intro h
    have hnodup : ((items.entries.map (translateEntry translations areFields)).map
        Prod.fst).Nodup := by
      rw [keys_translateEntry]
      exact items.nodup_keys.map_on fun field hfield field' hfield' =>
        h.apart field hfield field' hfield'
    rw [Dict.entries_ofList hnodup, List.forall₂_map_right_iff, List.forall₂_same]
    intro e he
    exact keepsEntry_translateEntry (h.unresolved e.1 (List.mem_map_of_mem he))

/-! ### A result -/

/-- Without translations nothing changes. -/
theorem translate_of_isEmpty (h : translations.entries.isEmpty = true) (data : WorkGroup) :
    data.translate translations = data := by
  have hnone : ∀ mib, translations.get? mib = none := by
    intro mib
    rw [Dict.get?, List.isEmpty_iff.mp h]
    rfl
  have hsame : ∀ areFields items,
      applyCustomTranslationToCollection translations areFields items = items := by
    intro areFields items
    have hentry : ∀ e : String × Item, translateEntry translations areFields e = e := by
      intro e
      have htranslation : translation translations e.1 = none := by
        unfold translation
        cases partition e.1 with
        | none => rfl
        | some parts => exact congrArg (Option.bind · _) (hnone parts.1)
      rw [translateEntry, htranslation]
    rw [applyCustomTranslationToCollection_eq, List.map_congr_left fun e _ => hentry e,
      List.map_id', Dict.ofList_entries]
  rw [WorkGroup.translate, hsame, hsame]

theorem applyCustomTranslations_eq (env : SplunkEnv) (work : Work) :
    applyCustomTranslations env work =
      work.result.values.map (WorkGroup.translate env.customTranslations) := by
  rw [applyCustomTranslations, Dict.values, List.map_map]
  refine List.map_congr_left ?_
  rintro ⟨key, data⟩ -
  dsimp only [Function.comp_apply]
  split
  · next hempty => exact (translate_of_isEmpty hempty data).symm
  · rfl

/-- **A translation drops nothing** exactly if in every group different fields get different
names, and different metrics, and what is unresolved keeps its own. -/
theorem nothingDropped_iff (env : SplunkEnv) (work : Work) :
    NothingDropped env work ↔ ∀ data ∈ work.result.values,
      Lossless env.customTranslations data.fields ∧
        Lossless env.customTranslations data.metrics := by
  rw [NothingDropped, applyCustomTranslations_eq, List.forall₂_map_right_iff, List.forall₂_same]
  refine forall₂_congr fun data _ => ?_
  rw [← keepsItems_iff env.customTranslations true, ← keepsItems_iff env.customTranslations false]
  exact ⟨fun h => ⟨h.fields, h.metrics⟩, fun h => ⟨h.1, h.2, rfl, rfl⟩⟩

/-- Both directions of the traffic get one name. -/
def octetsEnv : SplunkEnv where
  sourcetypeTraps := "sc4snmp:traps"
  sourcetypePollingMetrics := "sc4snmp:metric"
  sourcetypePollingEvents := "sc4snmp:event"
  indexEvents := "netops"
  indexMetrics := "netmetrics"
  metricNameHyphenToUnderscore := false
  metricsIndexingEnabled := false
  aggregateTrapsEvents := false
  customTranslations := Dict.ofList [("IF-MIB",
    Dict.ofList [("ifInOctets", "octets"), ("ifOutOctets", "octets")])]

/-- An interface with its traffic. -/
def octetsGroup : WorkGroup where
  fields := Dict.empty
  metrics := Dict.ofList [("IF-MIB.ifInOctets", Dict.ofList [("value", .int 17)]),
    ("IF-MIB.ifOutOctets", Dict.ofList [("value", .int 42)])]
  profiles := none
  indexes := none

/-- A poll of it. -/
def octetsWork : Work where
  time := Float.ofInt 0
  address := "10.0.0.1"
  sourcetype := none
  frequency := some 60
  group := none
  fields := none
  result := Dict.ofList [("IF-MIB::int=1", octetsGroup)]
  time_finite := PyFloat.isFinite_ofInt_zero

/-- **Of two metrics with one new name the first is lost.** -/
theorem applyCustomTranslations_octets :
    octetsWork.result.values.map (·.metrics.keys) =
        [["IF-MIB.ifInOctets", "IF-MIB.ifOutOctets"]] ∧
      (applyCustomTranslations octetsEnv octetsWork).map (·.metrics.keys) = [["IF-MIB.octets"]] ∧
      ¬ NothingDropped octetsEnv octetsWork := by
  refine ⟨rfl, rfl, fun h => ?_⟩
  have hmetrics := ((List.forall₂_cons.mp h).1.metrics).length_eq
  exact absurd hmetrics (by decide)

end Splunk

end Sc4snmp
