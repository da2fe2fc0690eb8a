import Sc4snmp.Lib.PyFloat
import Sc4snmp.Snmp.LostVarbinds
import Sc4snmp.Snmp.Trap

/-!
# What becomes of the varbinds of a trap

Each varbind of a trap is translated in front of the metrics and again after every MIB that
the metric loop loads.  What is left over is settled before: a varbind without a translation
stays so, and one with a translation is left over when no entry carries its identifier.

## Main definitions

* `entryAt`, `EntryPlace` — the entries of the metrics by their places.
* `TrapStage`, `stageAt` — what pysnmp makes of the varbinds with the modules of a builder.
* `frontStage`, `loopBuilders` — the stage in front of the metrics, and the modules after each
  load of the metric loop.
* `Attempt`, `frontAttempts` — the translations that are tried.
* `LastNew`, `valuesOf` — the last value that is new.

## Main results

* `HasEntries.readTables` — the entries that several stages leave.
* `translateTrap_eq_ok_iff`, `trapPasses_returns_iff` — the task goes on unless an attempt raises.
* `lookup_eraseDups_iff` — the last value of a name in a list without repetitions.
-/

namespace Sc4snmp

/-- A list with one more element, split at an element. -/
theorem concat_eq_iff {α : Type} {l before after : List α} {last x : α} :
    l ++ [last] = before ++ x :: after ↔
      (after = [] ∧ l = before ∧ last = x) ∨
        ∃ after', after = after' ++ [last] ∧ l = before ++ x :: after' := by
  constructor
  · intro h
    rcases List.eq_nil_or_concat after with rfl | ⟨after', last', rfl⟩
    · obtain ⟨rfl, hlast⟩ := List.append_inj' h rfl
      cases hlast
      exact Or.inl ⟨rfl, rfl, rfl⟩
    · rw [List.concat_eq_append, ← List.cons_append, ← List.append_assoc] at h
      obtain ⟨rfl, hlast⟩ := List.append_inj' h rfl
      cases hlast
      exact Or.inr ⟨after', List.concat_eq_append, rfl⟩
  · rintro (⟨rfl, rfl, rfl⟩ | ⟨after', rfl, rfl⟩)
    · rfl
    · simp

/-! ### The entries of the metrics -/

/-- A place for an entry: a group, its metrics or its fields, and a name. -/
structure EntryPlace where
  groupKey : String
  isMetric : Bool
  name : String
  deriving DecidableEq

/-- The entries of a group, by their kind. -/
def MetricGroup.entriesOf (group : MetricGroup) (isMetric : Bool) : Dict String MetricItem :=
  if isMetric then group.metrics else group.fields

/-- The entry at a place. -/
def entryAt (metrics : Metrics) (place : EntryPlace) : Option MetricItem :=
  (metrics.get? place.groupKey).bind fun group => (group.entriesOf place.isMetric).get? place.name

/-- The place of the entry of a varbind. -/
def ResponseVarbind.place (vb : ResponseVarbind) : EntryPlace where
  groupKey := vb.groupKey
  isMetric := (vb.item?.map fun item => isMetric item.type item.value).getD false
  name := vb.fieldName

/-- The varbinds of which `process_snmp_data` writes an entry. -/
def writtenPart (mibMap : Dict String String) (table : List ResponseVarbind) :
    List ResponseVarbind :=
  (reportedPart mibMap table).filter fun vb => vb.Carries

/-- The entry of a varbind, with its place. -/
def ResponseVarbind.placedItem (vb : ResponseVarbind) : Option (EntryPlace × MetricItem) :=
  vb.item?.map fun item => (vb.place, item)

/-- The entries that some varbinds write in their order, by their places. -/
def entriesOf (table : List ResponseVarbind) : List (EntryPlace × MetricItem) :=
  table.filterMap ResponseVarbind.placedItem

/-- The entries of the metrics, by their places. -/
def HasEntries (metrics : Metrics) (entries : Dict EntryPlace MetricItem) : Prop :=
  ∀ place, entryAt metrics place = entries.get? place

section Entries

variable {mibMap mapping : Dict String String} {metrics : Metrics} {vb : ResponseVarbind}
  {item : MetricItem} {entries : Dict EntryPlace MetricItem}

theorem entryAt_handleGroupkeyWithoutMetrics (groupKey : String) (index : List IndexContent)
    (place : EntryPlace) :
    entryAt (handleGroupkeyWithoutMetrics mapping groupKey index metrics) place =
      entryAt metrics place := by
  unfold handleGroupkeyWithoutMetrics
  split
  · rfl
  next hnew =>
    have hnone : metrics.get? groupKey = none := Dict.get?_eq_none_iff.mpr hnew
    unfold entryAt
    rw [Dict.get?_insert]
    split
    · next hkey =>
      rw [hkey, hnone]
      cases hmetric : place.isMetric <;> simp [MetricGroup.entriesOf]
    · rfl

/-- What writing an entry leaves in a group. -/
theorem get?_entriesOf_write (group : MetricGroup) (name name' : String) (item : MetricItem)
    (profile : Option String) (kind : Bool) :
    ((group.write name item profile).entriesOf kind).get? name' =
      if kind = isMetric item.type item.value ∧ name' = name then some item
      else (group.entriesOf kind).get? name' := by
  unfold MetricGroup.write MetricGroup.entriesOf
  by_cases hitem : isMetric item.type item.value = true
  · rw [if_pos hitem, addProfile_metrics, addProfile_fields, hitem]
    cases kind with
    | true => simp
    | false => simp
  · rw [if_neg hitem, Bool.eq_false_iff.mpr hitem]
    cases kind with
    | true => simp
    | false => simp

/-- A varbind that has an entry writes it to its place. -/
theorem entryAt_processResolved (h : vb.item? = some item) (place : EntryPlace) :
    entryAt (processResolved mapping vb metrics) place =
      if place = vb.place then some item else entryAt metrics place := by
  have hplace : vb.place = ⟨vb.groupKey, isMetric item.type item.value, vb.fieldName⟩ := by
    simp [ResponseVarbind.place, h]
  have hsame := @entryAt_handleGroupkeyWithoutMetrics mapping metrics vb.groupKey
    vb.identity.index place
  obtain ⟨group, hgroup⟩ := Dict.mem_keys_iff.mp
    (@mem_handleGroupkeyWithoutMetrics mapping metrics vb.groupKey vb.identity.index)
  unfold processResolved handleMetrics
  simp only [h, hgroup]
  rw [← hsame, hplace]
  obtain ⟨groupKey, kind, name⟩ := place
  unfold entryAt
  rw [Dict.get?_insert]
  by_cases hkey : groupKey = vb.groupKey
  · subst hkey
    rw [if_pos rfl, hgroup, Option.bind_some, Option.bind_some, get?_entriesOf_write]
    simp
  · rw [if_neg hkey, if_neg (fun heq => hkey (congrArg EntryPlace.groupKey heq))]

/-- A varbind without an entry writes none. -/
theorem entryAt_processResolved_none (h : vb.item? = none) (place : EntryPlace) :
    entryAt (processResolved mapping vb metrics) place = entryAt metrics place := by
  unfold processResolved
  simp only [h]
  exact entryAt_handleGroupkeyWithoutMetrics _ _ _

theorem HasEntries.processResolved (h : HasEntries metrics entries)
    (hresolved : vb.resolved = true) :
    HasEntries (processResolved mapping vb metrics)
      (entries.updateList (entriesOf ([vb].filter fun vb => vb.Carries))) := by
  intro place
  unfold entriesOf
  cases hitem : vb.item? with
  | none =>
    have hcarries : ¬ vb.Carries := by simp [ResponseVarbind.Carries, hitem]
    rw [entryAt_processResolved_none hitem]
    simpa [hcarries] using h place
  | some item =>
    have hcarries : vb.Carries := by simp [ResponseVarbind.Carries, hitem, hresolved]
    have hplaced : vb.placedItem = some (vb.place, item) := by
      rw [ResponseVarbind.placedItem, hitem, Option.map_some]
    rw [entryAt_processResolved hitem, List.filter_cons_of_pos (by simpa using hcarries),
      List.filter_nil, List.filterMap_cons_some hplaced, List.filterMap_nil, Dict.updateList_cons,
      Dict.updateList_nil, Dict.get?_insert, h place]

/-- The loop, from any point. -/
theorem HasEntries.processFrom (table : List ResponseVarbind) (remotemibs : List String)
    (h : HasEntries metrics entries) :
    HasEntries (processFrom mibMap mapping table remotemibs metrics).metrics
      (entries.updateList (entriesOf (writtenPart mibMap table))) := by
  induction table generalizing metrics entries with
  | nil => exact h
  | cons vb table ih =>
    unfold writtenPart
    rw [reportedPart_cons]
    by_cases hresolved : vb.resolved = true
    · have hcons : (vb :: reportedPart mibMap table).filter (fun vb => vb.Carries) =
          [vb].filter (fun vb => vb.Carries) ++ writtenPart mibMap table := by
        rw [writtenPart, ← List.filter_append, List.singleton_append]
      rw [processFrom_resolved hresolved, if_neg (by simp [blocks_of_resolved hresolved]), hcons,
        entriesOf, List.filterMap_append, Dict.updateList_append]
      exact ih (h.processResolved hresolved)
    have hcarries : ¬ vb.Carries := by simp [ResponseVarbind.Carries, hresolved]
    by_cases hblocks : vb.blocks mibMap = true
    · rw [processFrom_blocks hblocks, if_pos hblocks]
      exact h
    · rw [processFrom_unknown hresolved hblocks, if_neg hblocks, List.filter_cons_of_neg (by simpa)]
      exact ih h

/-- **The entries after some passes**: at each place that of the varbind that is written there
last. -/
theorem HasEntries.readTables (tables : List (List ResponseVarbind))
    (h : HasEntries metrics entries) :
    HasEntries (readTables mibMap mapping tables metrics)
      (entries.updateList (entriesOf (tables.flatMap (writtenPart mibMap)))) := by
  induction tables generalizing metrics entries with
  | nil => exact h
  | cons table tables ih =>
    rw [List.flatMap_cons, entriesOf, List.filterMap_append, Dict.updateList_append]
    exact ih (HasEntries.processFrom table [] h)

theorem hasEntries_empty : HasEntries Dict.empty Dict.empty := fun _ => rfl

theorem ResponseVarbind.oid_of_item? (h : vb.item? = some item) : item.oid = vb.identity.oid := by
  unfold ResponseVarbind.item? at h
  split at h
  · cases h
  · split at h
    · cases h
    · cases h
      rfl

/-- The entry at a place is that of the last varbind with the place. -/
theorem get?_entriesOf_iff {table : List ResponseVarbind} (h : ∀ vb ∈ table, vb.Carries)
    {place : EntryPlace} :
    (Dict.empty.updateList (entriesOf table)).get? place = some item ↔
      ∃ before vb after, table = before ++ vb :: after ∧ vb.placedItem = some (place, item) ∧
        ∀ other ∈ after, other.place ≠ place := by
  rw [Dict.get?_updateList_eq_last, Dict.get?_empty, Option.or_none]
  induction table using List.reverseRecOn with
  | nil =>
    refine iff_of_false (by simp [entriesOf]) ?_
    rintro ⟨_, _, _, h, -⟩
    simp at h
  | append_singleton table last ih =>
    obtain ⟨lastItem, hlast⟩ := Option.isSome_iff_exists.mp (h last (by simp)).2
    have hplaced : last.placedItem = some (last.place, lastItem) := by
      rw [ResponseVarbind.placedItem, hlast, Option.map_some]
    have hentries : entriesOf (table ++ [last]) = entriesOf table ++ [(last.place, lastItem)] := by
      rw [entriesOf, List.filterMap_append, List.filterMap_cons_some hplaced, List.filterMap_nil]
      rfl
    rw [hentries, List.reverse_append, List.reverse_singleton, List.singleton_append,
      Dict.lookup_cons_ite]
    by_cases hplace : place = last.place
    · rw [if_pos hplace, Option.some.injEq]
      constructor
      · rintro rfl
        exact ⟨table, last, [], rfl, by rw [hplaced, hplace], List.forall_mem_nil _⟩
      · rintro ⟨before, vb, after, hsplit, hvb, hafter⟩
        rcases concat_eq_iff.mp hsplit with ⟨rfl, -, rfl⟩ | ⟨after, rfl, -⟩
        · rw [hplaced] at hvb
          cases hvb
          rfl
        · exact absurd hplace.symm (hafter last (by simp))
    · rw [if_neg hplace, ih fun vb hvb => h vb (List.mem_append_left _ hvb)]
      constructor
      · rintro ⟨before, vb, after, rfl, hvb, hafter⟩
        refine ⟨before, vb, after ++ [last], by simp, hvb, fun other hother => ?_⟩
        rcases List.mem_append.mp hother with hother | hother
        · exact hafter other hother
        · rw [List.mem_singleton.mp hother]
          exact Ne.symm hplace
      · rintro ⟨before, vb, after, hsplit, hvb, hafter⟩
        rcases concat_eq_iff.mp hsplit with ⟨rfl, -, rfl⟩ | ⟨after, rfl, rfl⟩
        · rw [hplaced] at hvb
          cases hvb
          exact absurd rfl hplace
        · exact ⟨before, vb, after, rfl, hvb, fun other hother => hafter other (by simp [hother])⟩

/-- The processed identifiers are those of the entries. -/
theorem mem_collectProcessedTrapOids (h : HasEntries metrics entries) {oid : String} :
    oid ∈ collectProcessedTrapOids metrics ↔
      oid ≠ "" ∧ ∃ item ∈ entries.values, item.oid = oid := by
  unfold collectProcessedTrapOids
  rw [List.mem_filter, List.mem_flatMap, decide_eq_true_eq, and_comm]
  refine and_congr_right ?_
  intro _
  simp only [Dict.mem_values_iff]
  constructor
  · rintro ⟨group, hgroup, hoid⟩
    obtain ⟨groupKey, hgroup⟩ := hgroup
    obtain ⟨item, hitem, rfl⟩ := List.mem_map.mp hoid
    -- a field or a metric of the group
    rcases List.mem_append.mp hitem with hitem | hitem
    · obtain ⟨name, hname⟩ := Dict.mem_values_iff.mp hitem
      refine ⟨item, ⟨⟨groupKey, false, name⟩, ?_⟩, rfl⟩
      rw [← h, entryAt, hgroup]
      exact hname
    · obtain ⟨name, hname⟩ := Dict.mem_values_iff.mp hitem
      refine ⟨item, ⟨⟨groupKey, true, name⟩, ?_⟩, rfl⟩
      rw [← h, entryAt, hgroup]
      exact hname
  · rintro ⟨item, ⟨place, hplace⟩, rfl⟩
    rw [← h, entryAt] at hplace
    obtain ⟨group, hgroup, hitem⟩ := Option.bind_eq_some_iff.mp hplace
    refine ⟨group, ⟨_, hgroup⟩, List.mem_map.mpr ⟨item, ?_, rfl⟩⟩
    rw [List.mem_append]
    unfold MetricGroup.entriesOf at hitem
    split at hitem
    · exact Or.inr (Dict.mem_values_iff.mpr ⟨_, hitem⟩)
    · exact Or.inl (Dict.mem_values_iff.mpr ⟨_, hitem⟩)

end Entries

/-! ### The stages of a trap -/

variable {B : Type}

/-- A stage of a trap: its varbinds in the order of the stage, and what it makes of them. -/
structure TrapStage where
  pairs : List TrapPair
  translation : TrapPair → Option ResponseVarbind

/-- What the stage translates. -/
def TrapStage.table (stage : TrapStage) : List ResponseVarbind :=
  stage.pairs.filterMap stage.translation

/-- What the stage does not translate. -/
def TrapStage.untranslated (stage : TrapStage) : List TrapPair :=
  stage.pairs.filter fun pair => (stage.translation pair).isNone

def TrapStage.trapTable (stage : TrapStage) : TrapTable := ⟨stage.table, stage.untranslated⟩

/-- The stage with the MIB modules of a builder. -/
def stageAt (py : PySnmp B) (builder : B) (pairs : List TrapPair) : TrapStage :=
  ⟨pairs, translated py builder⟩

/-- An attempt to translate some varbinds with the modules of a builder. -/
structure Attempt (B : Type) where
  builder : B
  pairs : List TrapPair

/-- Nothing is raised in the attempt. -/
def Attempt.Settles (py : PySnmp B) (attempt : Attempt B) : Prop :=
  ∀ pair ∈ attempt.pairs, Sc4snmp.Settles py attempt.builder pair

/-- An attempt that returns gives the stage of its builder. -/
theorem resolveWorkVarbinds_eq_stageAt {py : PySnmp B} {builder : B} {pairs : List TrapPair}
    {tt : TrapTable} :
    resolveWorkVarbinds py builder pairs = .ok tt ↔
      Attempt.Settles py ⟨builder, pairs⟩ ∧
        tt = (stageAt py builder pairs).trapTable :=
  resolveWorkVarbinds_eq_ok_iff

/-! ### The stage in front of the metrics -/

/-- A stage whose untranslated varbinds are tried once more with other modules, those whose MIB
is in the index. -/
def retryStage (mibMap : Dict String String) (py : PySnmp B) (before after : B)
    (data : List TrapPair) : TrapStage :=
  let notTranslated := (stageAt py before data).untranslated
  { pairs := data.filter (fun pair => (translated py before pair).isSome) ++
      notTranslated.filter (fun pair => !isRetried mibMap pair) ++
        notTranslated.filter (isRetried mibMap)
    translation := fun pair => (translated py before pair).or
      (if isRetried mibMap pair then translated py after pair else none) }

/-- The stage after the load of the MIBs of the untranslated varbinds. -/
def deferredStage (env : TrapEnv) (py : PySnmp B) (st : MibState B) (data : List TrapPair) :
    MibState B × TrapStage :=
  let (after, anyLoaded) := loadDeferredMibs env py st (stageAt py st.builder data).untranslated
  (after,
    if anyLoaded then stageAt py after.builder data
    else retryStage env.config.mibMap py st.builder after.builder data)

/-- The attempt after that load. -/
def deferredAttempt (env : TrapEnv) (py : PySnmp B) (st : MibState B) (data : List TrapPair) :
    Attempt B :=
  let notTranslated := (stageAt py st.builder data).untranslated
  let (after, anyLoaded) := loadDeferredMibs env py st notTranslated
  ⟨after.builder, if anyLoaded then data else notTranslated.filter (isRetried env.config.mibMap)⟩

/-- The first stage, with the MIB data after its loads. -/
def firstStage (env : TrapEnv) (py : PySnmp B) (st : MibState B) (data : List TrapPair) :
    MibState B × TrapStage :=
  let (st, mibsLoaded) := preloadTrapMibs env py st data
  if mibsLoaded || (stageAt py st.builder data).untranslated.isEmpty then
    (st, stageAt py st.builder data)
  else deferredStage env py st data

/-- The attempts of the first stage. -/
def firstAttempts (env : TrapEnv) (py : PySnmp B) (st : MibState B) (data : List TrapPair) :
    List (Attempt B) :=
  let (st, mibsLoaded) := preloadTrapMibs env py st data
  ⟨st.builder, data⟩ ::
    (if mibsLoaded || (stageAt py st.builder data).untranslated.isEmpty then []
    else [deferredAttempt env py st data])

/-- A varbind of the stage has a name that is no symbol of a loaded MIB. -/
def TrapStage.placeholders (stage : TrapStage) : Bool := stage.table.any fun vb => !vb.resolved

/-- The stage in front of the metrics, with the MIB data after its loads. -/
def frontStage (env : TrapEnv) (py : PySnmp B) (st : MibState B) (data : List TrapPair) :
    MibState B × TrapStage :=
  let (st, stage) := firstStage env py st data
  (st, if stage.placeholders then stageAt py st.builder data else stage)

/-- The attempts in front of the metrics. -/
def frontAttempts (env : TrapEnv) (py : PySnmp B) (st : MibState B) (data : List TrapPair) :
    List (Attempt B) :=
  firstAttempts env py st data ++
    (if (firstStage env py st data).2.placeholders then
      [⟨(firstStage env py st data).1.builder, data⟩]
    else [])

section Front

variable {env : TrapEnv} {py : PySnmp B} {st st' : MibState B} {data : List TrapPair}
  {tt : TrapTable}

theorem table_retryStage (mibMap : Dict String String) (py : PySnmp B) (before after : B)
    (data : List TrapPair) :
    (retryStage mibMap py before after data).table =
      (stageAt py before data).table ++
        ((stageAt py before data).untranslated.filter (isRetried mibMap)).filterMap
          (translated py after) := by
  have hfirst : (data.filter fun pair => (translated py before pair).isSome).filterMap
      (retryStage mibMap py before after data).translation = (stageAt py before data).table := by
    rw [TrapStage.table, List.filterMap_filter]
    refine List.filterMap_congr fun pair _ => ?_
    cases h : translated py before pair <;> simp [retryStage, stageAt, h]
  have hnone : ∀ pair ∈ (stageAt py before data).untranslated,
      translated py before pair = none := fun pair hpair =>
    Option.isNone_iff_eq_none.mp (List.mem_filter.mp hpair).2
  have hunknown : ((stageAt py before data).untranslated.filter fun pair =>
      !isRetried mibMap pair).filterMap (retryStage mibMap py before after data).translation =
        [] := by
    rw [List.filterMap_eq_nil_iff]
    intro pair hpair
    obtain ⟨hpair, hretried⟩ := List.mem_filter.mp hpair
    rw [Bool.not_eq_true'] at hretried
    simp [retryStage, hnone pair hpair, hretried]
  have hretried : ((stageAt py before data).untranslated.filter (isRetried mibMap)).filterMap
      (retryStage mibMap py before after data).translation =
        ((stageAt py before data).untranslated.filter (isRetried mibMap)).filterMap
          (translated py after) := by
    refine List.filterMap_congr fun pair hpair => ?_
    obtain ⟨hpair, hretried⟩ := List.mem_filter.mp hpair
    simp [retryStage, hnone pair hpair, hretried]
  show List.filterMap _ (_ ++ _ ++ _) = _
  rw [List.filterMap_append, List.filterMap_append, hfirst, hunknown, hretried, List.append_nil]

theorem untranslated_retryStage (mibMap : Dict String String) (py : PySnmp B) (before after : B)
    (data : List TrapPair) :
    (retryStage mibMap py before after data).untranslated =
      ((stageAt py before data).untranslated.filter fun pair => !isRetried mibMap pair) ++
        ((stageAt py before data).untranslated.filter (isRetried mibMap)).filter
          fun pair => (translated py after pair).isNone := by
  have hnone : ∀ pair ∈ (stageAt py before data).untranslated,
      translated py before pair = none := fun pair hpair =>
    Option.isNone_iff_eq_none.mp (List.mem_filter.mp hpair).2
  have hfirst : (data.filter fun pair => (translated py before pair).isSome).filter
      (fun pair => ((retryStage mibMap py before after data).translation pair).isNone) = [] := by
    rw [List.filter_eq_nil_iff]
    intro pair hpair
    obtain ⟨vb, hvb⟩ := Option.isSome_iff_exists.mp (List.mem_filter.mp hpair).2
    simp [retryStage, hvb]
  have hunknown : ((stageAt py before data).untranslated.filter fun pair =>
      !isRetried mibMap pair).filter (fun pair =>
        ((retryStage mibMap py before after data).translation pair).isNone) =
          (stageAt py before data).untranslated.filter fun pair => !isRetried mibMap pair := by
    rw [List.filter_eq_self]
    intro pair hpair
    obtain ⟨hpair, hretried⟩ := List.mem_filter.mp hpair
    rw [Bool.not_eq_true'] at hretried
    simp [retryStage, hnone pair hpair, hretried]
  have hretried : ((stageAt py before data).untranslated.filter (isRetried mibMap)).filter
      (fun pair => ((retryStage mibMap py before after data).translation pair).isNone) =
        ((stageAt py before data).untranslated.filter (isRetried mibMap)).filter
          fun pair => (translated py after pair).isNone := by
    refine List.filter_congr fun pair hpair => ?_
    obtain ⟨hpair, hretried⟩ := List.mem_filter.mp hpair
    simp [retryStage, hnone pair hpair, hretried]
  show List.filter _ (_ ++ _ ++ _) = _
  rw [List.filter_append, List.filter_append, hfirst, hunknown, hretried, List.nil_append]

theorem retryTrapVarbindsAfterMibLoad_eq_ok_iff :
    (retryTrapVarbindsAfterMibLoad env py st data (stageAt py st.builder data).untranslated
        (stageAt py st.builder data).table).2 = .ok tt ↔
      (deferredAttempt env py st data).Settles py ∧
        tt = (deferredStage env py st data).2.trapTable := by
  unfold retryTrapVarbindsAfterMibLoad deferredAttempt deferredStage
  dsimp only
  generalize loadDeferredMibs env py st (stageAt py st.builder data).untranslated = deferred
  obtain ⟨after, anyLoaded⟩ := deferred
  cases anyLoaded with
  | true => exact resolveWorkVarbinds_eq_stageAt
  | false =>
    have hretry : (retryStage env.config.mibMap py st.builder after.builder data).trapTable =
        ⟨(stageAt py st.builder data).table ++
            ((stageAt py st.builder data).untranslated.filter
              (isRetried env.config.mibMap)).filterMap (translated py after.builder),
          ((stageAt py st.builder data).untranslated.filter fun pair =>
              !isRetried env.config.mibMap pair) ++
            ((stageAt py st.builder data).untranslated.filter (isRetried env.config.mibMap)).filter
              fun pair => (translated py after.builder pair).isNone⟩ := by
      rw [TrapStage.trapTable, table_retryStage, untranslated_retryStage]
    show (resolveWorkVarbinds py after.builder _ >>= _) = _ ↔
      _ ∧ tt = (retryStage env.config.mibMap py st.builder after.builder data).trapTable
    rw [PyError.bind_eq_ok, hretry]
    simp only [resolveWorkVarbinds_eq_stageAt]
    constructor
    · rintro ⟨_, ⟨hsettles, rfl⟩, h⟩
      cases h
      exact ⟨hsettles, rfl⟩
    · rintro ⟨hsettles, rfl⟩
      exact ⟨_, ⟨hsettles, rfl⟩, rfl⟩

/-- The first pass gives the first stage, unless an attempt raises. -/
theorem firstPass_eq_ok_iff :
    (firstPass env py st data).2 = .ok tt ↔
      (∀ attempt ∈ firstAttempts env py st data, attempt.Settles py) ∧
        tt = (firstStage env py st data).2.trapTable := by
  unfold firstPass firstStage firstAttempts
  generalize preloadTrapMibs env py st data = preloaded
  obtain ⟨st₁, mibsLoaded⟩ := preloaded
  dsimp only
  rw [Worked.andThen_eq_ok, List.forall_mem_cons, and_assoc]
  simp only [resolveWorkVarbinds_eq_stageAt, and_assoc, exists_and_left, exists_eq_left]
  refine and_congr_right fun _ => ?_
  show (if (mibsLoaded || (stageAt py st₁.builder data).untranslated.isEmpty) = true then _
    else _ : Worked B TrapTable).2 = _ ↔ _
  by_cases hdone : (mibsLoaded || (stageAt py st₁.builder data).untranslated.isEmpty) = true
  · rw [if_pos hdone, if_pos hdone, if_pos hdone, Except.ok.injEq, eq_comm]
    exact (and_iff_right (List.forall_mem_nil _)).symm
  · rw [if_neg hdone, if_neg hdone, if_neg hdone, List.forall_mem_singleton]
    exact retryTrapVarbindsAfterMibLoad_eq_ok_iff

/-- What the first pass leaves of the MIB data when it returns. -/
theorem firstPass_fst (h : (firstPass env py st data).2 = .ok tt) :
    (firstPass env py st data).1 = (firstStage env py st data).1 := by
  revert h
  unfold firstPass firstStage
  generalize preloadTrapMibs env py st data = preloaded
  obtain ⟨st₁, mibsLoaded⟩ := preloaded
  dsimp only
  unfold Worked.andThen
  cases hresolved : resolveWorkVarbinds py st₁.builder data with
  | error err => exact fun h => by cases h
  | ok resolved =>
    obtain ⟨-, rfl⟩ := resolveWorkVarbinds_eq_stageAt.mp hresolved
    intro _
    show (if (mibsLoaded || (stageAt py st₁.builder data).untranslated.isEmpty) = true then _
      else _ : Worked B TrapTable).1 = _
    split
    · rfl
    · rfl

theorem reResolveTrapWorkIfNeeded_eq_ok_iff (py : PySnmp B) (builder : B) (data : List TrapPair)
    (stage : TrapStage) :
    reResolveTrapWorkIfNeeded py builder data stage.trapTable = .ok tt ↔
      (∀ attempt ∈ (if stage.placeholders then [⟨builder, data⟩] else []),
          Attempt.Settles py attempt) ∧
        tt = (if stage.placeholders then stageAt py builder data else stage).trapTable := by
  show (if stage.placeholders = true then _ else _) = _ ↔ _
  by_cases hplaceholders : stage.placeholders = true
  · rw [if_pos hplaceholders, if_pos hplaceholders, if_pos hplaceholders, List.forall_mem_singleton]
    exact resolveWorkVarbinds_eq_stageAt
  · rw [if_neg hplaceholders, if_neg hplaceholders, if_neg hplaceholders, Except.ok.injEq, eq_comm]
    exact (and_iff_right (List.forall_mem_nil _)).symm

/-- **In front of the metrics** the task has the front stage, unless an attempt raises. -/
theorem translateTrap_eq_ok_iff :
    (translateTrap env py st data).2 = .ok tt ↔
      (∀ attempt ∈ frontAttempts env py st data, attempt.Settles py) ∧
        tt = (frontStage env py st data).2.trapTable := by
  unfold translateTrap frontAttempts frontStage
  rw [Worked.andThen_eq_ok, List.forall_mem_append, and_assoc]
  have hagain := @reResolveTrapWorkIfNeeded_eq_ok_iff B tt py
    (firstStage env py st data).1.builder data (firstStage env py st data).2
  constructor
  · rintro ⟨first, hfirst, h⟩
    rw [firstPass_fst hfirst] at h
    obtain ⟨hsettles, rfl⟩ := firstPass_eq_ok_iff.mp hfirst
    exact ⟨hsettles, hagain.mp h⟩
  · rintro ⟨hsettles, h⟩
    have hfirst := firstPass_eq_ok_iff.mpr ⟨hsettles, rfl⟩
    refine ⟨_, hfirst, ?_⟩
    rw [firstPass_fst hfirst]
    exact hagain.mpr h

theorem translateTrap_fst (h : (translateTrap env py st data).2 = .ok tt) :
    (translateTrap env py st data).1 = (frontStage env py st data).1 := by
  unfold translateTrap at h ⊢
  obtain ⟨first, hfirst, -⟩ := Worked.andThen_eq_ok.mp h
  unfold Worked.andThen
  rw [hfirst]
  exact firstPass_fst hfirst

end Front



/-! ### The stages of the metric loop -/

/-- The MIB modules after the loads of the metric loop, `n` at most. -/
def loopBuilders (config : PollerConfig) (py : PySnmp B) (data : List TrapPair) :
    ℕ → MibState B → List ResponseVarbind → List B
  | 0, _, _ => []
  | n + 1, st, table =>
    let mibs := requestedMibs config.mibMap table
    if mibs = [] then []
    else
      let (st, anyLoaded) := loadNewTrapMibs py st mibs
      if anyLoaded = false then []
      else st.builder :: loopBuilders config py data n st (stageAt py st.builder data).table

section Loop

variable {config : PollerConfig} {py : PySnmp B} {data : List TrapPair}

/-- The tables of the loop; what is translated after the last load is not read. -/
theorem trapTables_eq (n : ℕ) (st : MibState B) (table : List ResponseVarbind) :
    trapTables config py data (n + 1) st table =
      table :: (loopBuilders config py data n st table).map fun b => (stageAt py b data).table := by
  induction n generalizing st table with
  | zero =>
    rw [trapTables, loopBuilders]
    dsimp only
    split
    · rfl
    · split
      · rfl
      · rfl
  | succ n ih =>
    rw [trapTables, loopBuilders]
    dsimp only
    split
    · rfl
    · split
      · rfl
      · rw [ih]
        rfl

/-- The loop returns unless an attempt after a load raises. -/
theorem trapPasses_returns_iff (n : ℕ) (st : MibState B) (table : List ResponseVarbind)
    (metrics : Metrics) :
    (∃ metrics', (trapPasses config py data n st table metrics).2 = .ok metrics') ↔
      ∀ b ∈ loopBuilders config py data n st table, Attempt.Settles py ⟨b, data⟩ := by
  induction n generalizing st table metrics with
  | zero => exact iff_of_true ⟨_, rfl⟩ (List.forall_mem_nil _)
  | succ n ih =>
    rw [trapPasses, loopBuilders]
    dsimp only
    rw [processSnmpData_requests.1, processSnmpData_requests.2]
    by_cases hmibs : requestedMibs config.mibMap table = []
    · rw [if_pos (Or.inr hmibs), if_pos hmibs]
      exact iff_of_true ⟨_, rfl⟩ (List.forall_mem_nil _)
    have hany : table.any (fun vb => vb.blocks config.mibMap) ≠ false := fun h =>
      hmibs (requestedMibs_of_any h)
    rw [if_neg (not_or.mpr ⟨hany, hmibs⟩), if_neg hmibs]
    split
    · exact iff_of_true ⟨_, rfl⟩ (List.forall_mem_nil _)
    rw [List.forall_mem_cons]
    split
    · next tt htt =>
      obtain ⟨hsettles, rfl⟩ := resolveWorkVarbinds_eq_stageAt.mp htt
      rw [and_iff_right hsettles]
      exact ih _ _ _
    · next err herr =>
      refine iff_of_false ?_ fun h => ?_
      · rintro ⟨_, h⟩
        cases h
      rw [resolveWorkVarbinds_eq_stageAt.mpr ⟨h.1, rfl⟩] at herr
      cases herr

end Loop

/-! ### The last value of a name -/

/-- The last value of a list that is not in front of itself. -/
def LastNew {α : Type} (values : List α) (v : α) : Prop :=
  ∃ before after, values = before ++ v :: after ∧ v ∉ before ∧ ∀ w ∈ after, w ∈ before ∨ w = v

/-- The values that come with a name, in their order. -/
def valuesOf (pairs : List TrapPair) (name : String) : List String :=
  (pairs.filter fun pair => pair.1 = name).map Prod.snd

section LastNew

variable {α : Type} {values : List α} {v w : α}

theorem LastNew.mem (h : LastNew values v) : v ∈ values := by
  obtain ⟨before, after, rfl, -⟩ := h
  simp

theorem not_lastNew_nil : ¬ LastNew [] v := fun h => List.not_mem_nil h.mem

/-- One more value is the last new one, unless the list has it. -/
theorem lastNew_concat_iff :
    LastNew (values ++ [w]) v ↔ w ∈ values ∧ LastNew values v ∨ w ∉ values ∧ v = w := by
  constructor
  · rintro ⟨before, after, hsplit, hv, hafter⟩
    rcases concat_eq_iff.mp hsplit with ⟨rfl, rfl, rfl⟩ | ⟨after, rfl, rfl⟩
    · exact Or.inr ⟨hv, rfl⟩
    · refine Or.inl ⟨?_, before, after, rfl, hv, fun x hx => hafter x (by simp [hx])⟩
      rcases hafter w (by simp) with h | rfl
      · exact List.mem_append_left _ h
      · simp
  · rintro (⟨hw, before, after, rfl, hv, hafter⟩ | ⟨hw, rfl⟩)
    · refine ⟨before, after ++ [w], by simp, hv, fun x hx => ?_⟩
      rcases List.mem_append.mp hx with hx | hx
      · exact hafter x hx
      · rw [List.mem_singleton.mp hx]
        rcases List.mem_append.mp hw with hw | hw
        · exact Or.inl hw
        · rcases List.mem_cons.mp hw with rfl | hw
          · exact Or.inr rfl
          · exact hafter w hw
    · exact ⟨values, [], rfl, hw, List.forall_mem_nil _⟩

theorem LastNew.unique (h : LastNew values v) (h' : LastNew values w) : v = w := by
  induction values using List.reverseRecOn with
  | nil => exact absurd h not_lastNew_nil
  | append_singleton values last ih =>
    rw [lastNew_concat_iff] at h h'
    rcases h with ⟨hlast, h⟩ | ⟨hlast, rfl⟩ <;> rcases h' with ⟨hlast', h'⟩ | ⟨hlast', rfl⟩
    · exact ih h h'
    · exact absurd hlast hlast'
    · exact absurd hlast' hlast
    · rfl

theorem valuesOf_append (pairs pairs' : List TrapPair) (name : String) :
    valuesOf (pairs ++ pairs') name = valuesOf pairs name ++ valuesOf pairs' name := by
  rw [valuesOf, List.filter_append, List.map_append]
  rfl

theorem eraseDups_concat (pairs : List TrapPair) (pair : TrapPair) :
    (pairs ++ [pair]).eraseDups =
      if pair ∈ pairs then pairs.eraseDups else pairs.eraseDups ++ [pair] := by
  rw [List.eraseDups_append]
  split <;> rename_i hpair <;> simp [List.removeAll, hpair, List.eraseDups_cons]

theorem valuesOf_concat (pairs : List TrapPair) (name name' value : String) :
    valuesOf (pairs ++ [(name', value)]) name =
      if name' = name then valuesOf pairs name ++ [value] else valuesOf pairs name := by
  unfold valuesOf
  split <;> rename_i hname <;> simp [hname]

theorem mem_valuesOf_iff {pairs : List TrapPair} {name value : String} :
    value ∈ valuesOf pairs name ↔ (name, value) ∈ pairs := by
  simp [valuesOf]

/-- Without repetitions the last value of a name is its last new one. -/
theorem lookup_eraseDups_iff (pairs : List TrapPair) (name value : String) :
    pairs.eraseDups.reverse.lookup name = some value ↔ LastNew (valuesOf pairs name) value := by
  induction pairs using List.reverseRecOn with
  | nil => exact iff_of_false (by simp) not_lastNew_nil
  | append_singleton pairs pair ih =>
    obtain ⟨name', value'⟩ := pair
    rw [eraseDups_concat, valuesOf_concat]
    by_cases hpair : (name', value') ∈ pairs
    · -- nothing is added
      rw [if_pos hpair, ih]
      by_cases hname : name' = name
      · subst hname
        rw [if_pos rfl, lastNew_concat_iff, mem_valuesOf_iff]
        simp [hpair]
      · rw [if_neg hname]
    · rw [if_neg hpair, List.reverse_append, List.reverse_singleton, List.singleton_append,
        Dict.lookup_cons_ite]
      by_cases hname : name' = name
      · subst hname
        rw [if_pos rfl, if_pos rfl, lastNew_concat_iff, mem_valuesOf_iff]
        simp [hpair, eq_comm]
      · rw [if_neg hname, if_neg (Ne.symm hname), ih]

end LastNew

end Sc4snmp
