import Sc4snmp.Inventory.RecordRoundTrip

/-!
# The interval of a walk

A record comes with a walk interval its validator has put in range.  Unless the walk is a full
one, `update` takes the interval from the line again, as it stands there: an empty column makes it
raise, and one that is out of range goes into the inventory and to the scheduler.  The profiles
are taken from the line as well, and have to be a text.

## Main definitions

* `InventoryColumn`, `InventoryLine` — lines whose columns may hold lists.
* `DocumentDb`, `updateLine` — `InventoryRecordManager.update` of such a line.
* `Configured` — the walk interval a line stands for.
* `WalksConfigured` — an update went well, and used that interval.
* `InRange` — the profiles are a text, and the interval need not be put in range.

## Main results

* `updateLine_line` — on a line of scalars this is `InventoryRecordManager.update`.
* `lineSettings_eq_ok_iff` — when the settings of the walk can be read.
* `updateLine_scheduled` — what an update stores and schedules.
* `walksConfigured_iff` — **an update goes well for the lines in range**.
-/

namespace Sc4snmp

variable {ω : Type}

/-! ### Lines -/

/-- The value of a column: a scalar, or a list of anything. -/
inductive InventoryColumn (ω : Type)
  | scalar (v : PyVal)
  | list (elements : List ω)
  deriving DecidableEq

namespace InventoryColumn

/-- The value as a keyword argument. -/
def keyword : InventoryColumn ω → Keyword ω
  | scalar v => .scalar v
  | list elements => .sequence elements

/-- `int`. -/
def toInt : InventoryColumn ω → Except PyError ℤ
  | scalar v => v.toInt
  | list _ => .error .typeError

/-- The value as a scalar; a line with a list for a group has been turned down. -/
def toScalar : InventoryColumn ω → PyVal
  | scalar v => v
  | list _ => .none

theorem toInt_keyword (c : InventoryColumn ω) : c.keyword.toInt = c.toInt := by
  cases c <;> rfl

end InventoryColumn

/-- A line of the inventory. -/
abbrev InventoryLine (ω : Type) := Dict String (InventoryColumn ω)

namespace InventoryLine

/-- `line[key]`. -/
def getItem (line : InventoryLine ω) (key : String) : Except PyError (InventoryColumn ω) :=
  match line.get? key with
  | some v => .ok v
  | none => .error .keyError

/-- The columns as keyword arguments. -/
def keywords (line : InventoryLine ω) : Keywords ω := line.mapValues InventoryColumn.keyword

theorem getItem_eq_ok_iff {line : InventoryLine ω} {key : String} {c : InventoryColumn ω} :
    line.getItem key = .ok c ↔ line.get? key = some c := by
  rw [getItem]
  split <;> simp_all

end InventoryLine

/-! ### The manager -/

/-- What an inventory load writes to. -/
structure DocumentDb (ω : Type) where
  schedules : ScheduleStore
  inventory : InventoryDocuments ω

/-- A record but for its profiles, which its walk does not depend on. -/
def KeywordRecord.host (r : KeywordRecord ω) : InventoryRecord := { r with profiles := [] }

/-- The beginning of `update`: the walk profile, and the record with the walk
interval of its line unless the walk is a full one. -/
def lineSettings (cfg : LoadConfig) (r : KeywordRecord ω) (line : InventoryLine ω) :
    Except PyError (Option String × KeywordRecord ω) := do
  let profiles ← match ← line.getItem "profiles" with
    | .scalar (.str profiles) => .ok (Text.splitOn ';' profiles)
    | _ => .error .attributeError
  let walkProfile := returnWalkProfile cfg profiles
  if walkProfile.isSome then
    let interval ← line.getItem "walk_interval"
    let walkInterval ← interval.toInt
    return (walkProfile, { r with walkInterval })
  else return (walkProfile, r)

/-- The end of `update`: the walk goes to the scheduler. -/
def DocumentDb.scheduleWalk (db : DocumentDb ω) (task : TaskData) :
    DocumentDb ω × Except PyError Unit :=
  match db.schedules.manageTask task with
  | .ok schedules => ({ db with schedules }, .ok ())
  | .error err => (db, .error err)

/-- `InventoryRecordManager.update`. -/
def updateLine [DecidableEq ω] (cfg : LoadConfig) (expiryTimeChanged : Bool) (db : DocumentDb ω)
    (r : KeywordRecord ω) (line : InventoryLine ω) : DocumentDb ω × Except PyError Unit :=
  match lineSettings cfg r line with
  | .error err => (db, .error err)
  | .ok (walkProfile, r) =>
    let written := { db with inventory := db.inventory.insert r.docKey r }
    let group := ((line.get? "group").map InventoryColumn.toScalar).getD .none
    let task := genWalkTask cfg.chainOfTasksExpiryTime r.host walkProfile group
    if db.inventory.get? r.docKey ≠ some r then written.scheduleWalk task
    else if expiryTimeChanged then written.scheduleWalk task
    else match written.schedules.walkTaskExists r.host.target with
      | .error err => (written, .error err)
      | .ok true => (written, .ok ())
      | .ok false => written.scheduleWalk task

/-! ### Lines of scalars -/

/-- The inventory with its documents as records of texts. -/
def DocumentDb.ofInventoryDb (db : InventoryDb) : DocumentDb String where
  schedules := db.schedules
  inventory := db.inventory.mapValues KeywordRecord.ofInventory

/-- The columns of a line as they are. -/
def SourceRecord.line (source : SourceRecord) : InventoryLine String :=
  source.columns.mapValues InventoryColumn.scalar

theorem SourceRecord.getItem_line (source : SourceRecord) (key : String) :
    source.line.getItem key = InventoryColumn.scalar <$> source.getItem key := by
  rw [InventoryLine.getItem, SourceRecord.getItem, SourceRecord.line, Dict.get?_mapValues]
  cases source.columns.get? key <;> rfl

/-- The settings of the walk are read alike. -/
theorem lineSettings_line (cfg : LoadConfig) (ir : InventoryRecord) (source : SourceRecord) :
    lineSettings cfg (KeywordRecord.ofInventory ir) source.line =
      (fun settings => (settings.1, KeywordRecord.ofInventory settings.2)) <$>
        InventoryRecordManager.walkSettings cfg ir source := by
  rw [lineSettings, InventoryRecordManager.walkSettings]
  simp only [SourceRecord.getItem_line]
  cases source.getItem "profiles" with
  | error err => rfl
  | ok v =>
    cases v with
    | str profiles =>
      change (if (returnWalkProfile cfg (Text.splitOn ';' profiles)).isSome = true then _ else _) =
        _ <$> (if (returnWalkProfile cfg (Text.splitOn ';' profiles)).isSome = true then _ else _)
      split
      · cases source.getItem "walk_interval" with
        | error err => rfl
        | ok interval =>
          change (do let walkInterval ← interval.toInt; pure _) =
            _ <$> (do let walkInterval ← interval.toInt; pure _)
          cases interval.toInt <;> rfl
      · rfl
    | none => rfl
    | bool b => rfl
    | int i => rfl

theorem ofInventory_injective : Function.Injective KeywordRecord.ofInventory := by
  intro ir ir' h
  cases ir
  cases ir'
  cases h
  rfl

theorem scheduleWalk_ofInventoryDb (db : InventoryDb) (task : TaskData) :
    (DocumentDb.ofInventoryDb db).scheduleWalk task =
      (DocumentDb.ofInventoryDb (InventoryRecordManager.scheduleWalk db task).1,
        (InventoryRecordManager.scheduleWalk db task).2) := by
  rw [DocumentDb.scheduleWalk, InventoryRecordManager.scheduleWalk]
  change (match db.schedules.manageTask task with
    | .ok schedules => _
    | .error err => _) = _
  cases db.schedules.manageTask task <;> rfl

/-- On a line of scalars `updateLine` does what `InventoryRecordManager.update` does. -/
theorem updateLine_line (cfg : LoadConfig) (expiryTimeChanged : Bool) (db : InventoryDb)
    (ir : InventoryRecord) (source : SourceRecord) :
    updateLine cfg expiryTimeChanged (DocumentDb.ofInventoryDb db) (KeywordRecord.ofInventory ir)
        source.line =
      let result := InventoryRecordManager.update cfg expiryTimeChanged db ir source
      (DocumentDb.ofInventoryDb result.1, result.2) := by
  dsimp only
  rw [updateLine, InventoryRecordManager.update, lineSettings_line]
  cases InventoryRecordManager.walkSettings cfg ir source with
  | error err => rfl
  | ok settings =>
    obtain ⟨walkProfile, record⟩ := settings
    have hgroup : ((source.line.get? "group").map InventoryColumn.toScalar).getD .none =
        source.get "group" := by
      rw [SourceRecord.line, Dict.get?_mapValues, SourceRecord.get, Dict.getD]
      cases source.columns.get? "group" <;> rfl
    have hdoc : (DocumentDb.ofInventoryDb db).inventory.get?
          (KeywordRecord.ofInventory record).docKey ≠ some (KeywordRecord.ofInventory record) ↔
        db.inventory.get? record.docKey ≠ some record := by
      rw [DocumentDb.ofInventoryDb, Dict.get?_mapValues]
      exact ((Option.map_injective ofInventory_injective).eq_iff (b := some record)).not
    have hwritten : ({ DocumentDb.ofInventoryDb db with
          inventory := (DocumentDb.ofInventoryDb db).inventory.insert
            (KeywordRecord.ofInventory record).docKey (KeywordRecord.ofInventory record) } :
          DocumentDb String) =
        DocumentDb.ofInventoryDb
          { db with inventory := db.inventory.insert record.docKey record } := by
      rw [DocumentDb.ofInventoryDb, DocumentDb.ofInventoryDb, Dict.mapValues_insert]
      rfl
    have htask : ∀ group, genWalkTask cfg.chainOfTasksExpiryTime
        (KeywordRecord.ofInventory record).host walkProfile group =
        genWalkTask cfg.chainOfTasksExpiryTime record walkProfile group := fun _ => rfl
    have hhost : (KeywordRecord.ofInventory record).host.target = record.target := rfl
    simp only [Functor.map, Except.map, hwritten, hgroup, htask, hhost, hdoc,
      scheduleWalk_ofInventoryDb]
    split
    · rfl
    split
    · rfl
    · change (match db.schedules.walkTaskExists record.target with
        | .error err => _
        | .ok true => _
        | .ok false => _) = _
      cases db.schedules.walkTaskExists record.target with
      | error err => rfl
      | ok walkExists => cases walkExists <;> rfl

/-! ### What an update does -/

/-- There is a walk profile unless the walk is a full one. -/
theorem isSome_returnWalkProfile (cfg : LoadConfig) (profiles : List String) :
    (returnWalkProfile cfg profiles).isSome = !cfg.enableFullWalk := by
  rw [returnWalkProfile]
  cases cfg.enableFullWalk with
  | true => rfl
  | false =>
    simp only [Bool.false_eq_true, if_false, Bool.not_false]
    split
    · rfl
    · split <;> rfl

/-- The interval the walk of a line gets: its own unless the walk is a full one. -/
inductive LineInterval (cfg : LoadConfig) (r : KeywordRecord ω) (line : InventoryLine ω) : ℤ → Prop
  | validated (hfull : cfg.enableFullWalk = true) : LineInterval cfg r line r.walkInterval
  | raw {c : InventoryColumn ω} {interval : ℤ} (hfull : cfg.enableFullWalk = false)
      (hcolumn : line.get? "walk_interval" = some c) (hint : c.toInt = .ok interval) :
      LineInterval cfg r line interval

/-- The settings of the walk are read when the profiles are a text, and there is an interval. -/
theorem lineSettings_eq_ok_iff {cfg : LoadConfig} {r s : KeywordRecord ω} {line : InventoryLine ω}
    {walkProfile : Option String} :
    lineSettings cfg r line = .ok (walkProfile, s) ↔
      ∃ profiles interval, line.get? "profiles" = some (.scalar (.str profiles)) ∧
        walkProfile = returnWalkProfile cfg (Text.splitOn ';' profiles) ∧
        LineInterval cfg r line interval ∧ s = { r with walkInterval := interval } := by
  rw [lineSettings]
  simp only [PyError.bind_eq_ok, InventoryLine.getItem_eq_ok_iff, isSome_returnWalkProfile,
    Bool.not_eq_true']
  constructor
  · rintro ⟨c, hprofiles, h⟩
    split at h
    · next profiles =>
      refine ⟨profiles, s.walkInterval, hprofiles, ?_⟩
      simp only [PyError.bind_eq_ok, Except.ok.injEq, exists_eq_left'] at h
      split at h
      · next hfull =>
        simp only [PyError.bind_eq_ok, InventoryLine.getItem_eq_ok_iff] at h
        obtain ⟨c, hcolumn, interval, hint, h⟩ := h
        cases h
        exact ⟨rfl, .raw hfull hcolumn hint, rfl⟩
      · next hfull =>
        rw [Bool.not_eq_false] at hfull
        cases h
        exact ⟨rfl, .validated hfull, rfl⟩
    · cases h
  · rintro ⟨profiles, interval, hprofiles, rfl, hinterval, rfl⟩
    refine ⟨_, hprofiles, ?_⟩
    cases hinterval with
    | validated hfull =>
      simp only [bind, Except.bind, hfull]
      rfl
    | raw hfull hcolumn hint =>
      simp only [bind, Except.bind, hfull, InventoryLine.getItem_eq_ok_iff.mpr hcolumn, hint]
      rfl

/-- A walk that can be scheduled runs with the interval of its record. -/
theorem scheduleWalk_returns (db : DocumentDb ω) (expiryTime : ℤ) (r : KeywordRecord ω)
    (walkProfile : Option String) (group : PyVal)
    (hreadable : db.schedules.fromKey (walkKey r.host.target) ≠ .error .valueError) :
    ∃ schedules, db.scheduleWalk (genWalkTask expiryTime r.host walkProfile group) =
        ({ db with schedules }, .ok ()) ∧
      ∃ e, schedules.lookup? (walkKey r.host.target) = some e ∧ e.schedule = r.walkInterval := by
  have hname : (genWalkTask expiryTime r.host walkProfile group).name =
      some (walkTaskName r.host.target) := rfl
  rw [DocumentDb.scheduleWalk]
  cases hrun : db.schedules.manageTask (genWalkTask expiryTime r.host walkProfile group) with
  | error err => exact absurd ((ScheduleStore.manageTask_error_iff hname).mp ⟨err, hrun⟩) hreadable
  | ok schedules =>
    refine ⟨schedules, rfl, ?_⟩
    have hkey := ScheduleStore.lookup?_manageTask hname rfl hrun (walkKey r.host.target)
    rw [walkKey, if_pos rfl] at hkey
    refine ⟨_, hkey, ?_⟩
    -- whether the entry is a new one or not, its period is that of the task
    cases db.schedules.lookup? (redbeatKey (walkTaskName r.host.target)) <;> rfl

/-- What an update with given settings does: it stores the record, and there is a walk afterwards,
with the interval of the record or as it was before. -/
theorem updateLine_scheduled [DecidableEq ω] {cfg : LoadConfig} {r s : KeywordRecord ω}
    {line : InventoryLine ω} {walkProfile : Option String} (expiryTimeChanged : Bool)
    {db : DocumentDb ω} (hsettings : lineSettings cfg r line = .ok (walkProfile, s))
    (hreadable : db.schedules.fromKey (walkKey s.host.target) ≠ .error .valueError) :
    ∃ db', updateLine cfg expiryTimeChanged db r line = (db', .ok ()) ∧
      db'.inventory = db.inventory.insert s.docKey s ∧
      ∃ e, db'.schedules.lookup? (walkKey s.host.target) = some e ∧
        (e.schedule = s.walkInterval ∨ db.inventory.get? s.docKey = some s ∧
          expiryTimeChanged = false ∧
          db.schedules.lookup? (walkKey s.host.target) = some e) := by
  obtain ⟨schedules, hschedule, e, he, hinterval⟩ :=
    scheduleWalk_returns { db with inventory := db.inventory.insert s.docKey s }
      cfg.chainOfTasksExpiryTime s walkProfile
      (((line.get? "group").map InventoryColumn.toScalar).getD .none) hreadable
  have hscheduled : ∃ db', ({ db with inventory := db.inventory.insert s.docKey s, schedules },
      Except.ok ()) = ((db', .ok ()) : DocumentDb ω × Except PyError Unit) ∧
      db'.inventory = db.inventory.insert s.docKey s ∧
      ∃ e, db'.schedules.lookup? (walkKey s.host.target) = some e ∧
        (e.schedule = s.walkInterval ∨ db.inventory.get? s.docKey = some s ∧
          expiryTimeChanged = false ∧ db.schedules.lookup? (walkKey s.host.target) = some e) :=
    ⟨_, rfl, rfl, e, he, Or.inl hinterval⟩
  rw [updateLine, hsettings]
  simp only [hschedule]
  by_cases hdoc : db.inventory.get? s.docKey ≠ some s
  · rwa [if_pos hdoc]
  by_cases hchanged : expiryTimeChanged = true
  · rwa [if_neg hdoc, if_pos hchanged]
  rw [if_neg hdoc, if_neg hchanged]
  rw [ne_eq, not_not] at hdoc
  rw [Bool.not_eq_true] at hchanged
  cases hwalk : db.schedules.walkTaskExists s.host.target with
  | error err =>
    exact absurd (ScheduleStore.walkTaskExists_error_iff.mp ⟨err, hwalk⟩) hreadable
  | ok walkExists =>
    cases walkExists with
    | false => exact hscheduled
    | true =>
      obtain ⟨e, he⟩ := ScheduleStore.walkTaskExists_eq_true hwalk
      exact ⟨_, rfl, rfl, e, he, Or.inr ⟨hdoc, hchanged, he⟩⟩

/-! ### The configured interval -/

/-- The walk interval a line stands for: 42000 for an empty column or none, and otherwise the
number of the column put in range. -/
structure Configured (line : InventoryLine ω) (interval : ℤ) : Prop where
  absent : line.get? "walk_interval" = none → interval = 42000
  blank : ∀ v, line.get? "walk_interval" = some (.scalar v) → v.truthy = false → interval = 42000
  clamped : ∀ v value, line.get? "walk_interval" = some (.scalar v) → v.truthy = true →
    v.toInt = .ok value → interval = max 1800 (min value 604800)

/-- A field with one name is given in its column. -/
theorem given?_keywords_walkInterval (line : InventoryLine ω) :
    line.keywords.given? "walk_interval" =
      (line.get? "walk_interval").map InventoryColumn.keyword := by
  have hrename : ∀ (kwargs : Keywords ω) (names : String × String),
      "walk_interval" ≠ names.1 → "walk_interval" ≠ names.2 →
      (kwargs.renameAlternative names).get? "walk_interval" = kwargs.get? "walk_interval" := by
    intro kwargs names hold hnew
    rw [Keywords.renameAlternative]
    split
    · rw [Dict.get?_erase, if_neg hold, Dict.get?_insert, if_neg hnew]
    · rfl
  rw [Keywords.given?, Keywords.renameAlternatives, alternativeFields, List.foldl_cons,
    List.foldl_cons, List.foldl_nil, hrename _ _ (by decide) (by decide),
    hrename _ _ (by decide) (by decide), InventoryLine.keywords, Dict.get?_mapValues]

/-- The validator puts the configured interval into the record. -/
theorem configured_of_ofKeywords {lookup : AddressLookup} {text : String → ω}
    {line : InventoryLine ω} {r : KeywordRecord ω}
    (h : KeywordRecord.ofKeywords lookup text line.keywords = .ok r) :
    Configured line r.walkInterval ∧ 1800 ≤ r.walkInterval ∧ r.walkInterval ≤ 604800 := by
  have hread := (KeywordRecord.ofKeywords_eq_ok_iff.mp h).2.walkInterval
  rw [Keywords.validated, given?_keywords_walkInterval] at hread
  cases hcolumn : line.get? "walk_interval" with
  | none =>
    rw [hcolumn] at hread
    have hdefault : 42000 = r.walkInterval := Except.ok.inj hread
    refine ⟨⟨fun _ => hdefault.symm, fun v hv => ?_, fun v value hv => ?_⟩, by omega, by omega⟩
    · rw [hcolumn] at hv
      cases hv
    · rw [hcolumn] at hv
      cases hv
  | some c =>
    rw [hcolumn] at hread
    change Keyword.walkIntervalValidator c.keyword = .ok r.walkInterval at hread
    refine ⟨⟨fun hnone => ?_, fun v hv hfalsy => ?_, fun v value hv htruthy hint => ?_⟩,
      Keyword.walkIntervalValidator_range hread⟩
    · rw [hcolumn] at hnone
      cases hnone
    · obtain rfl : c = .scalar v := Option.some.inj (hcolumn.symm.trans hv)
      have hfalsy : (!(InventoryColumn.scalar v : InventoryColumn ω).keyword.truthy) = true := by
        simp [InventoryColumn.keyword, Keyword.truthy, hfalsy]
      rw [Keyword.walkIntervalValidator, if_pos hfalsy] at hread
      exact (Except.ok.inj hread).symm
    · obtain rfl : c = .scalar v := Option.some.inj (hcolumn.symm.trans hv)
      have htruthy : ¬ (!(InventoryColumn.scalar v : InventoryColumn ω).keyword.truthy) = true := by
        simp [InventoryColumn.keyword, Keyword.truthy, htruthy]
      rw [Keyword.walkIntervalValidator, if_neg htruthy, InventoryColumn.toInt_keyword,
        InventoryColumn.toInt, hint] at hread
      have hclamp : (if value < 1800 then 1800 else if 604800 < value then 604800 else value) =
          r.walkInterval := Except.ok.inj hread
      rw [← hclamp]
      split_ifs <;> omega

/-- A number in range is what it is put to. -/
theorem configured_of_toInt {line : InventoryLine ω} {v : PyVal} {interval : ℤ}
    (hcolumn : line.get? "walk_interval" = some (.scalar v)) (hint : v.toInt = .ok interval)
    (hrange : 1800 ≤ interval ∧ interval ≤ 604800) : Configured line interval where
  absent hnone := by
    rw [hcolumn] at hnone
    cases hnone
  blank w hw hfalsy := by
    obtain rfl : v = w := InventoryColumn.scalar.inj (Option.some.inj (hcolumn.symm.trans hw))
    have hzero := PyVal.eq_zero_of_falsy hfalsy hint
    omega
  clamped w value hw _ hvalue := by
    obtain rfl : v = w := InventoryColumn.scalar.inj (Option.some.inj (hcolumn.symm.trans hw))
    obtain rfl : interval = value := Except.ok.inj (hint.symm.trans hvalue)
    omega

/-- An update got through the line, and used the configured interval: the inventory holds it, and
so does the walk, unless nothing had changed and the walk is the one that was there. -/
def WalksConfigured (line : InventoryLine ω) (r : KeywordRecord ω) (expiryTimeChanged : Bool)
    (db : DocumentDb ω) (result : DocumentDb ω × Except PyError Unit) : Prop :=
  result.2 = .ok () ∧ ∃ interval, 1800 ≤ interval ∧ interval ≤ 604800 ∧ Configured line interval ∧
    (∃ document, result.1.inventory.get? r.docKey = some document ∧
      document.walkInterval = interval) ∧
    ∃ e, result.1.schedules.lookup? (walkKey r.host.target) = some e ∧
      (e.schedule = interval ∨
        db.inventory.get? r.docKey = result.1.inventory.get? r.docKey ∧
        expiryTimeChanged = false ∧ db.schedules.lookup? (walkKey r.host.target) = some e)

/-- The profiles of a line are a text, and its walk interval, if it is looked at, is a number in
range. -/
def InRange (cfg : LoadConfig) (line : InventoryLine ω) : Prop :=
  (∃ profiles, line.get? "profiles" = some (.scalar (.str profiles))) ∧
    (cfg.enableFullWalk = true ∨ ∃ v interval, line.get? "walk_interval" = some (.scalar v) ∧
      v.toInt = .ok interval ∧ 1800 ≤ interval ∧ interval ≤ 604800)

/-- An update that reads an interval stores it and schedules the walk with it. -/
theorem updateLine_interval [DecidableEq ω] {cfg : LoadConfig} {r : KeywordRecord ω}
    {line : InventoryLine ω} {profiles : String} {interval : ℤ} (expiryTimeChanged : Bool)
    {db : DocumentDb ω} (hprofiles : line.get? "profiles" = some (.scalar (.str profiles)))
    (hinterval : LineInterval cfg r line interval)
    (hreadable : db.schedules.fromKey (walkKey r.host.target) ≠ .error .valueError) :
    ∃ db', updateLine cfg expiryTimeChanged db r line = (db', .ok ()) ∧
      db'.inventory.get? r.docKey = some { r with walkInterval := interval } ∧
      ∃ e, db'.schedules.lookup? (walkKey r.host.target) = some e ∧
        (e.schedule = interval ∨
          db.inventory.get? r.docKey = some { r with walkInterval := interval } ∧
          expiryTimeChanged = false ∧ db.schedules.lookup? (walkKey r.host.target) = some e) := by
  have hsettings := lineSettings_eq_ok_iff.mpr ⟨profiles, interval, hprofiles, rfl, hinterval, rfl⟩
  obtain ⟨db', hrun, hwritten, hwalk⟩ := updateLine_scheduled expiryTimeChanged hsettings hreadable
  refine ⟨db', hrun, ?_, hwalk⟩
  rw [hwritten, Dict.get?_insert]
  exact if_pos rfl

/-- For a line that makes a record, an update goes well exactly when the line is in range. -/
theorem walksConfigured_iff [DecidableEq ω] {lookup : AddressLookup} {text : String → ω}
    {line : InventoryLine ω} {r : KeywordRecord ω}
    (h : KeywordRecord.ofKeywords lookup text line.keywords = .ok r) (cfg : LoadConfig)
    (expiryTimeChanged : Bool) {db : DocumentDb ω}
    (hreadable : db.schedules.fromKey (walkKey r.host.target) ≠ .error .valueError) :
    WalksConfigured line r expiryTimeChanged db (updateLine cfg expiryTimeChanged db r line) ↔
      InRange cfg line := by
  constructor
  · rintro ⟨hreturns, interval, hlow, hhigh, -, ⟨document, hdocument, hinterval⟩, -⟩
    cases hsettings : lineSettings cfg r line with
    | error err =>
      rw [updateLine, hsettings] at hreturns
      cases hreturns
    | ok settings =>
      obtain ⟨walkProfile, s⟩ := settings
      obtain ⟨profiles, stored, hprofiles, -, hstored, -⟩ := lineSettings_eq_ok_iff.mp hsettings
      obtain ⟨db', hrun, hwritten, -⟩ :=
        updateLine_interval expiryTimeChanged hprofiles hstored hreadable
      rw [hrun, hwritten] at hdocument
      obtain rfl := Option.some.inj hdocument
      obtain rfl : stored = interval := hinterval
      refine ⟨⟨profiles, hprofiles⟩, ?_⟩
      cases hstored with
      | validated hfull => exact Or.inl hfull
      | @raw c _ hfull hcolumn hint =>
        cases c with
        | scalar v => exact Or.inr ⟨v, stored, hcolumn, hint, hlow, hhigh⟩
        | list elements => cases hint
  · rintro ⟨⟨profiles, hprofiles⟩, hinterval⟩
    obtain ⟨hvalidated, hrange⟩ := configured_of_ofKeywords h
    have hline : ∃ interval, LineInterval cfg r line interval ∧ 1800 ≤ interval ∧
        interval ≤ 604800 ∧ Configured line interval := by
      cases hfull : cfg.enableFullWalk with
      | true => exact ⟨r.walkInterval, .validated hfull, hrange.1, hrange.2, hvalidated⟩
      | false =>
        obtain ⟨v, interval, hcolumn, hint, hlow, hhigh⟩ := hinterval.resolve_left (by simp [hfull])
        exact ⟨interval, .raw hfull hcolumn hint, hlow, hhigh,
          configured_of_toInt hcolumn hint ⟨hlow, hhigh⟩⟩
    obtain ⟨interval, hline, hlow, hhigh, hconfigured⟩ := hline
    obtain ⟨db', hrun, hwritten, e, he, hschedule⟩ :=
      updateLine_interval expiryTimeChanged hprofiles hline hreadable
    rw [hrun]
    refine ⟨rfl, interval, hlow, hhigh, hconfigured, ⟨_, hwritten, rfl⟩, e, he, ?_⟩
    rw [hwritten]
    exact hschedule

/-- A line with a walk interval. -/
def intervalLine (interval : String) : InventoryLine String :=
  Dict.ofList [("address", .scalar (.str "10.0.0.1")), ("port", .scalar (.str "")),
    ("version", .scalar (.str "2c")), ("community", .scalar (.str "public")),
    ("walk_interval", .scalar (.str interval)), ("profiles", .scalar (.str "router"))]

/-- Its record, if the interval is put in range. -/
def intervalRecord (interval : ℤ) : KeywordRecord String where
  port := 161
  address := some "10.0.0.1"
  version := some "2c"
  community := some "public"
  secret := none
  securityEngine := some ""
  walkInterval := interval
  maxOidToProcess := none
  profiles := ["router"]
  smartProfiles := none
  delete := none
  group := none

/-- Settings without full walks and without profiles. -/
def partialWalks : LoadConfig where
  runtimeProfiles := Dict.empty
  enableFullWalk := false
  chainOfTasksExpiryTime := 60

/-- Nothing loaded yet. -/
def DocumentDb.empty : DocumentDb String := ⟨ScheduleStore.empty, Dict.empty⟩

/-- The walk of a line with an interval in range runs at it. -/
theorem walksConfigured_iff_inRange :
    KeywordRecord.ofKeywords KeywordRecord.anyAddress id (intervalLine "2000").keywords =
      .ok (intervalRecord 2000) ∧
    WalksConfigured (intervalLine "2000") (intervalRecord 2000) false DocumentDb.empty
      (updateLine partialWalks false DocumentDb.empty (intervalRecord 2000)
        (intervalLine "2000")) := by
  have hrecord : KeywordRecord.ofKeywords KeywordRecord.anyAddress id
      (intervalLine "2000").keywords = .ok (intervalRecord 2000) := by
    decide +kernel
  exact ⟨hrecord, (walksConfigured_iff hrecord partialWalks false (by decide)).mpr
    ⟨⟨"router", by decide⟩, Or.inr ⟨.str "2000", 2000, by decide, by decide, by decide,
      by decide⟩⟩⟩

/-- A line with an empty interval makes a record, and makes the update raise. -/
theorem walksConfigured_fails :
    ¬ ∀ (lookup : AddressLookup) (text : String → String) (line : InventoryLine String)
      (r : KeywordRecord String) (cfg : LoadConfig) (expiryTimeChanged : Bool)
      (db : DocumentDb String),
      KeywordRecord.ofKeywords lookup text line.keywords = .ok r →
      db.schedules.fromKey (walkKey r.host.target) ≠ .error .valueError →
      WalksConfigured line r expiryTimeChanged db
        (updateLine cfg expiryTimeChanged db r line) := by
  intro hall
  obtain ⟨hreturns, -⟩ := hall KeywordRecord.anyAddress id (intervalLine "") (intervalRecord 42000)
    partialWalks false DocumentDb.empty (by decide +kernel) (by decide)
  have hraises : (updateLine partialWalks false DocumentDb.empty (intervalRecord 42000)
      (intervalLine "")).2 = .error .valueError := by
    decide +kernel
  rw [hraises] at hreturns
  cases hreturns

end Sc4snmp
