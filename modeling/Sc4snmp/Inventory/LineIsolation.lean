import Sc4snmp.Inventory.Loader
import Sc4snmp.Lib.Run

/-!
# Isolation of inventory lines

A line that cannot be turned into a record, or whose walk cannot be set up, fails
without having written anything, so the lines after it find the database as if it
had not been there — if there are lines after it: the handler looks up the address
and the port of the line, and for an inventory kept in the database whether it is to
be deleted, and computes the line's key from them.  A line without these columns, or
with a port that is no number, fails a second time there.

## Main definitions

* `lineInvalid` — a line that fails whatever the database holds.
* `LineFails` — a line that fails at a state.
* `Nameable` — the handler gets through the line.
* `LinesIsolated` — the loop returns, with the database of the valid lines.

## Main results

* `processRecord_fails_iff`, `reportLine_returns_iff` — when the two bodies raise.
* `linesIsolated_iff` — **lines are isolated exactly when every failing line is nameable**.
* `linesIsolated_fails` — a line with a port that is no number ends the loop.
-/

namespace Sc4snmp

open InventoryRecordManager

section Isolation

variable {env : LoaderEnv} {st : LoaderState} {source : SourceRecord}

/-- The line fails whatever the database holds: it is no record, or its walk cannot
be set up. -/
def lineInvalid (env : LoaderEnv) (source : SourceRecord) : Bool :=
  match InventoryRecord.ofSource env.lookup source with
  | .error _ => true
  | .ok ir => ir.delete ≠ some true && match walkSettings env.config ir source with
    | .error _ => true
    | .ok _ => false

/-- What is stored under the walk of the line is not readable. -/
def WalkUnreadable (env : LoaderEnv) (db : InventoryDb) (source : SourceRecord) : Prop :=
  ∃ ir walkProfile record, InventoryRecord.ofSource env.lookup source = .ok ir ∧
    ir.delete ≠ some true ∧ walkSettings env.config ir source = .ok (walkProfile, record) ∧
    db.schedules.fromKey (redbeatKey (walkTaskName record.target)) = .error .valueError

/-- The line fails at a state of the database. -/
def LineFails (env : LoaderEnv) (db : InventoryDb) (source : SourceRecord) : Prop :=
  lineInvalid env source = true ∨ WalkUnreadable env db source

/-- The handler gets through the line: it has an address and a port that is missing or
a number, and in an inventory kept in the database also whether to delete it. -/
structure Nameable (env : LoaderEnv) (source : SourceRecord) : Prop where
  address : "address" ∈ source.columns
  port : ∃ port, source.columns.get? "port" = some port ∧
    (port.truthy = false ∨ ∃ number, port.toInt = .ok number)
  delete : env.configFromMongo = true → "delete" ∈ source.columns

/-! ### The handler -/

theorem transformAddressToKey_returns_iff (address port : PyVal) :
    (∃ key, transformAddressToKey address port = .ok key) ↔
      port.truthy = false ∨ ∃ number, port.toInt = .ok number := by
  rw [transformAddressToKey]
  cases htruthy : port.truthy with
  | false => simp
  | true =>
    cases hint : port.toInt with
    | error err => simp [bind, Except.bind]
    | ok number => by_cases hnumber : number = 161 <;> simp [bind, Except.bind, hnumber]

theorem getItem_returns_iff {key : String} :
    (∃ v, source.getItem key = .ok v) ↔ key ∈ source.columns := by
  simp only [SourceRecord.getItem_eq_ok_iff]
  exact Dict.mem_keys_iff.symm

/-- The handler leaves the database as it was. -/
theorem reportLine_db {st' : LoaderState} (h : reportLine env st source = .ok st') :
    st'.db = st.db := by
  simp only [reportLine, PyError.bind_eq_ok, pure, Except.pure, Except.ok.injEq] at h
  obtain ⟨_, -, _, -, _, -, _, -, rfl⟩ := h
  rfl

/-- The handler returns exactly for the nameable lines. -/
theorem reportLine_returns_iff (env : LoaderEnv) (st : LoaderState) (source : SourceRecord) :
    (∃ st', reportLine env st source = .ok st') ↔ Nameable env source := by
  constructor
  · rintro ⟨st', h⟩
    simp only [reportLine, PyError.bind_eq_ok] at h
    obtain ⟨inventoryUi, hui, address, haddress, port, hport, key, hkey, -⟩ := h
    refine ⟨getItem_returns_iff.mp ⟨_, haddress⟩,
      ⟨port, SourceRecord.getItem_eq_ok_iff.mp hport,
        (transformAddressToKey_returns_iff address port).mp ⟨key, hkey⟩⟩, fun hmongo => ?_⟩
    -- with the UI the line is asked for its delete flag as well
    simp only [deleteReported, if_pos hmongo, PyError.bind_eq_ok] at hui
    obtain ⟨delete, hdelete, -⟩ := hui
    exact getItem_returns_iff.mp ⟨_, hdelete⟩
  · rintro ⟨haddress, ⟨port, hport, hnumber⟩, hdelete⟩
    obtain ⟨address, haddress⟩ := getItem_returns_iff.mpr haddress
    have hport := SourceRecord.getItem_eq_ok_iff.mpr hport
    obtain ⟨key, hkey⟩ := (transformAddressToKey_returns_iff address port).mpr hnumber
    have hui : ∃ inventoryUi, deleteReported env source st.inventoryUi = .ok inventoryUi := by
      rw [deleteReported]
      by_cases hmongo : env.configFromMongo = true
      · obtain ⟨delete, hdelete⟩ := getItem_returns_iff.mpr (hdelete hmongo)
        rw [if_pos hmongo, hdelete]
        by_cases htruthy : delete.truthy = true <;>
          simp [bind, Except.bind, pure, Except.pure, htruthy, haddress, hport]
      · exact ⟨_, if_neg hmongo⟩
    obtain ⟨inventoryUi, hui⟩ := hui
    refine ⟨{ st with inventoryUi }, ?_⟩
    rw [reportLine, hui, haddress, hport]
    simp only [bind, Except.bind, hkey]
    rfl

/-! ### The body -/

/-- Deleting the target of a record returns. -/
theorem delete_target_returns {ir : InventoryRecord} (deleteSchedules : DeleteSchedulesByTarget)
    (db : InventoryDb) (h : 1 ≤ ir.port ∧ ir.port ≤ 65535) :
    (delete deleteSchedules db ir.target).2 = .ok () := by
  have htarget : transformKeyToAddress ir.target = .ok (ir.addressVal.format, ir.port) := by
    rw [InventoryRecord.target, if_neg (by omega)]
    exact transformKeyToAddress_key _ ⟨by omega, h.2⟩
  rw [InventoryRecordManager.delete, htarget]

/-- The body raises exactly for the failing lines. -/
theorem processRecord_fails_iff (env : LoaderEnv) (st : LoaderState) (source : SourceRecord) :
    (∃ err, (processRecord env st source).2 = .error err) ↔ LineFails env st.db source := by
  cases hrecord : InventoryRecord.ofSource env.lookup source with
  | error err => simp [processRecord, LineFails, lineInvalid, hrecord]
  | ok ir =>
    rw [processRecord, hrecord]
    by_cases hdelete : ir.delete = some true
    · have hreturns := delete_target_returns env.deleteSchedules st.db
        (InventoryRecord.ofSource_port_range hrecord)
      have hfine : ¬ LineFails env st.db source := by
        rintro (hinvalid | ⟨ir', _, _, hrecord', hnot, -⟩)
        · simp [lineInvalid, hrecord, hdelete] at hinvalid
        · rw [hrecord, Except.ok.injEq] at hrecord'
          exact hnot (hrecord' ▸ hdelete)
      simp only [if_pos hdelete]
      generalize delete env.deleteSchedules st.db ir.target = result at hreturns
      obtain ⟨db, _⟩ := result
      obtain rfl := hreturns
      simpa using hfine
    · simp only [if_neg hdelete]
      rw [update_error_iff, LineFails, lineInvalid, WalkUnreadable, hrecord]
      cases hset : walkSettings env.config ir source with
      | error err => simp [hdelete, hset]
      | ok settings => simp [hdelete, hset]

/-- An invalid line leaves the database as it was. -/
theorem processRecord_db_of_invalid (st : LoaderState) (h : lineInvalid env source = true) :
    (processRecord env st source).1.db = st.db := by
  rw [lineInvalid] at h
  rw [processRecord]
  cases hrecord : InventoryRecord.ofSource env.lookup source with
  | error err => rfl
  | ok ir =>
    rw [hrecord, Bool.and_eq_true, decide_eq_true_eq] at h
    simp only [if_neg h.1, update]
    cases hset : walkSettings env.config ir source with
    | error err => rfl
    | ok settings => simp [hset] at h

/-- What the body does to the database depends on the database only. -/
theorem processRecord_congr (env : LoaderEnv) (source : SourceRecord) {st st' : LoaderState}
    (h : st.db = st'.db) :
    (processRecord env st source).1.db = (processRecord env st' source).1.db ∧
      (processRecord env st source).2 = (processRecord env st' source).2 := by
  rw [processRecord, processRecord]
  cases InventoryRecord.ofSource env.lookup source with
  | error err => exact ⟨h, rfl⟩
  | ok ir =>
    by_cases hdelete : ir.delete = some true
    · simp only [if_pos hdelete, h]
      split <;> simp
    · simp only [if_neg hdelete, h, and_self]

/-! ### The loop -/

/-- The state after one line that does not raise out of the loop. -/
def lineStep (env : LoaderEnv) (st : LoaderState) (source : SourceRecord) : LoaderState :=
  match processRecord env st source with
  | (st', .ok ()) => st'
  | (st', .error _) =>
    match reportLine env st' source with
    | .ok st'' => st''
    | .error _ => st'

/-- The handler has no part in what a line does to the database. -/
theorem lineStep_db (env : LoaderEnv) (st : LoaderState) (source : SourceRecord) :
    (lineStep env st source).db = (processRecord env st source).1.db := by
  rw [lineStep]
  generalize processRecord env st source = body
  obtain ⟨st', _ | _⟩ := body
  · cases hreport : reportLine env st' source with
    | ok st'' => simpa [hreport] using reportLine_db hreport
    | error err => simp [hreport]
  · rfl

/-- A loop that returns has taken one step for each line. -/
theorem manageLines_eq_final {lines : List SourceRecord} {errors : Bool} {st : LoaderState}
    {result : LoaderState × Bool} (h : manageLines env lines errors st = .ok result) :
    result.1 = Run.final (lineStep env) st lines := by
  induction lines generalizing errors st with
  | nil =>
    cases h
    rfl
  | cons source lines ih =>
    rw [Run.final_cons, lineStep]
    rw [manageLines] at h
    generalize processRecord env st source = body at h ⊢
    obtain ⟨st', _ | _⟩ := body
    · obtain ⟨st'', hreport, hrest⟩ := PyError.bind_eq_ok.mp h
      simp only [hreport]
      exact ih hrest
    · exact ih h

/-- The lines are isolated from each other: the loop returns, and it leaves the
database of the loop over the lines that are not invalid. -/
def LinesIsolated (env : LoaderEnv) (st : LoaderState) (lines : List SourceRecord) : Prop :=
  ∃ st' errors, manageLines env lines false st = .ok (st', errors) ∧
    ∃ st'' errors', manageLines env (lines.filter fun source => !lineInvalid env source) false st =
      .ok (st'', errors') ∧ st''.db = st'.db

/-- Every line that fails on the way is nameable. -/
def FailuresNameable (env : LoaderEnv) (st : LoaderState) (source : SourceRecord) : Prop :=
  LineFails env st.db source → Nameable env source

/-- The loop returns exactly when the failing lines are nameable. -/
theorem manageLines_returns_iff (lines : List SourceRecord) (errors : Bool) (st : LoaderState) :
    (∃ result, manageLines env lines errors st = .ok result) ↔
      Run.Along (lineStep env) (FailuresNameable env) st lines := by
  induction lines generalizing errors st with
  | nil => simp [manageLines]
  | cons source lines ih =>
    have hfails := processRecord_fails_iff env st source
    rw [manageLines, Run.along_cons, FailuresNameable, lineStep, ← hfails]
    generalize processRecord env st source = body
    obtain ⟨st', result⟩ := body
    cases result with
    | ok u => simp [ih]
    | error err =>
      have hreport := reportLine_returns_iff env st' source
      cases hrun : reportLine env st' source with
      | ok st'' =>
        have hname : Nameable env source := hreport.mp ⟨st'', hrun⟩
        simp [hname, hrun, bind, Except.bind, ih]
      | error err' =>
        have hname : ¬ Nameable env source := by
          rw [← hreport, hrun]
          simp
        simp [hname, hrun, bind, Except.bind]

/-- A loop that returns also does without its invalid lines, from the same database,
and leaves the same. -/
theorem manageLines_filter {lines : List SourceRecord} {errors errors' : Bool}
    {st st₂ : LoaderState} (hdb : st₂.db = st.db) {result : LoaderState × Bool}
    (h : manageLines env lines errors st = .ok result) :
    ∃ st'' errors'', manageLines env
      (lines.filter fun source => !lineInvalid env source) errors' st₂ =
      .ok (st'', errors'') ∧ st''.db = result.1.db := by
  induction lines generalizing errors errors' st st₂ with
  | nil =>
    cases h
    exact ⟨st₂, errors', rfl, hdb⟩
  | cons source lines ih =>
    obtain ⟨hcdb, hcresult⟩ := processRecord_congr env source hdb
    have hreport := fun st => reportLine_returns_iff env st source
    rw [manageLines] at h
    cases hinvalid : lineInvalid env source with
    | true =>
      -- the line fails, and leaves the database as it was
      have hsame := processRecord_db_of_invalid st hinvalid
      obtain ⟨err, herr⟩ := (processRecord_fails_iff env st source).mpr (Or.inl hinvalid)
      rw [List.filter_cons_of_neg (by simp [hinvalid])]
      generalize processRecord env st source = body at h hsame herr
      obtain ⟨st', _⟩ := body
      obtain rfl := herr
      obtain ⟨st'', hrun, hrest⟩ := PyError.bind_eq_ok.mp h
      exact ih (hdb.trans (hsame.symm.trans (reportLine_db hrun).symm)) hrest
    | false =>
      rw [List.filter_cons_of_pos (by simp [hinvalid]), manageLines]
      generalize processRecord env st source = body at h hcdb hcresult
      generalize processRecord env st₂ source = body₂ at hcdb hcresult
      obtain ⟨st', outcome⟩ := body
      obtain ⟨st₂', outcome₂⟩ := body₂
      obtain rfl := hcresult
      cases outcome₂ with
      | ok u => exact ih hcdb h
      | error err =>
        obtain ⟨st'', hrun, hrest⟩ := PyError.bind_eq_ok.mp h
        obtain ⟨st₂'', hrun₂⟩ := (hreport st₂').mpr ((hreport st').mp ⟨st'', hrun⟩)
        simp only [hrun₂, bind, Except.bind]
        exact ih ((reportLine_db hrun₂).trans (hcdb.trans (reportLine_db hrun).symm)) hrest

/-- **Lines are isolated exactly when every failing line is nameable.** -/
theorem linesIsolated_iff (env : LoaderEnv) (st : LoaderState) (lines : List SourceRecord) :
    LinesIsolated env st lines ↔ Run.Along (lineStep env) (FailuresNameable env) st lines := by
  rw [← manageLines_returns_iff lines false st]
  constructor
  · rintro ⟨st', errors, h, -⟩
    exact ⟨_, h⟩
  · rintro ⟨⟨st', errors⟩, h⟩
    exact ⟨st', errors, h, manageLines_filter rfl h⟩

/-- A line whose port is a word, before a line that is fine: the handler asks the word
for its number once more. -/
theorem linesIsolated_fails :
    ¬ ∀ (env : LoaderEnv) (st : LoaderState) (lines : List SourceRecord),
      LinesIsolated env st lines := by
  let env : LoaderEnv :=
    { lookup := ⟨fun _ => true, fun _ _ => true⟩
      deleteSchedules := fun schedules _ => schedules
      configFromMongo := false
      config := ⟨Dict.empty, false, 60⟩
      expiryTimeChanged := false }
  let line (port : String) : SourceRecord :=
    { columns := Dict.ofList [("address", .str "10.0.0.1"), ("port", .str port),
        ("profiles", .str ""), ("walk_interval", .str "1800")] }
  have hraises : ∀ st, manageLines env [line "abc", line "161"] false st =
      .error .valueError := fun st => rfl
  intro hall
  obtain ⟨st', errors, hrun, -⟩ := hall env ⟨.empty, []⟩ [line "abc", line "161"]
  rw [hraises] at hrun
  cases hrun

end Isolation

end Sc4snmp
