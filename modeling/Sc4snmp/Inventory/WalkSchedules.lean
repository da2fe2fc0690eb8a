import Sc4snmp.Common.InventoryRecordManager
import Sc4snmp.Lib.Run

/-!
# Walk schedules over inventory loads

A load compares the expiry time of its settings with the ones of the stored tasks,
then deletes and updates records.  What the walk of a target is scheduled with
depends on three things that change independently of each other: the record, the
profiles, and the group its line belongs to.  `update` asks the record only.

## Main definitions

* `LoadEvent`, `loadStep` — the steps of a sequence of loads.
* `WalksOwned` — the invariant of the schedule store.
* `WalkReflected` — the walk of a record is the one its settings generate.
* `WalkDue` — when `update` sees to that.

## Main results

* `owned_loadStep` — every step keeps the invariant.
* `update_spec` — after an update the walk is reflected exactly when it was due.
* `walkReflected_along_iff` — **the same over every sequence of loads**.
-/

namespace Sc4snmp

/-! ### Sequences of loads -/

/-- The state a sequence of loads runs on: the database, and the settings of the load
under way with what `did_expiry_time_change` told it. -/
structure LoadState where
  db : InventoryDb
  config : LoadConfig
  expiryTimeChanged : Bool

/-- What a load does: it begins, deletes targets and updates records. -/
inductive LoadEvent
  | beginLoad (config : LoadConfig)
  | delete (target : String)
  | update (ir : InventoryRecord) (source : SourceRecord)

/-- The task types `load` asks the expiry times of. -/
def expiringTasks : List String := [walkTask, pollTask]

/-- One step of a load. -/
def loadStep (deleteSchedules : DeleteSchedulesByTarget) (st : LoadState) : LoadEvent → LoadState
  | .beginLoad config =>
    let (expiryTimeChanged, schedules) :=
      st.db.schedules.didExpiryTimeChange config.chainOfTasksExpiryTime expiringTasks
    { db := { st.db with schedules }, config, expiryTimeChanged }
  | .delete target =>
    { st with db := (InventoryRecordManager.delete deleteSchedules st.db target).1 }
  | .update ir source =>
    { st with db :=
        (InventoryRecordManager.update st.config st.expiryTimeChanged st.db ir source).1 }

/-! ### The invariant -/

/-- The walks of a store stand under the names of their targets, nothing else does,
and what runs after them was built with one expiry time. -/
structure WalksOwned (s : ScheduleStore) (expiryTime : ℤ) : Prop where
  ownName : ∀ k e, s.lookup? k = some e → e.task = walkTask →
    ∃ target, e.target = some target ∧ k = walkKey target
  ownTask : ∀ target e, s.lookup? (walkKey target) = some e →
    e.task = walkTask ∧ e.target = some target
  ownChain : ∀ k e, s.lookup? k = some e → e.task = walkTask →
    e.options = walkChainOfTasks expiryTime

namespace WalksOwned

variable {s s' : ScheduleStore} {x : ℤ}

theorem empty (x : ℤ) : WalksOwned ScheduleStore.empty x :=
  ⟨fun _ _ h => (nomatch h), fun _ _ h => (nomatch h), fun _ _ h => (nomatch h)⟩

/-- Removing entries keeps the invariant. -/
theorem of_subset (h : WalksOwned s x)
    (hsub : ∀ k e, s'.lookup? k = some e → s.lookup? k = some e) :
    WalksOwned s' x :=
  ⟨fun k e he => h.ownName k e (hsub k e he), fun target e he => h.ownTask target e (hsub _ e he),
    fun k e he => h.ownChain k e (hsub k e he)⟩

/-- What `manage_task` makes of the walk of a target is the generated schedule,
whatever was there: the fields it leaves alone cannot differ. -/
theorem managedEntry_walk (h : WalksOwned s x) (ir : InventoryRecord) (profile : Option String)
    (group : PyVal) :
    ScheduleStore.managedEntry (s.lookup? (walkKey ir.target)) (genWalkTask x ir profile group) =
      (genWalkTask x ir profile group).newEntry := by
  cases he : s.lookup? (walkKey ir.target) with
  | none => rfl
  | some e =>
    have hname : walkTaskName ir.target = e.name :=
      redbeatKey_injective (ScheduleStore.key_of_lookup? he)
    obtain ⟨htask, -⟩ := h.ownTask _ e he
    have hchain := h.ownChain _ e he htask
    obtain ⟨name, task, target, args, kwargs, options, schedule, enabled, runImmediately⟩ := e
    simp only at hname htask hchain
    subst hname htask hchain
    rfl

/-- Scheduling a walk keeps the invariant. -/
theorem manageTask (h : WalksOwned s x) {ir : InventoryRecord} {profile : Option String}
    {group : PyVal} (hrun : s.manageTask (genWalkTask x ir profile group) = .ok s') :
    WalksOwned s' x ∧
      s'.lookup? (walkKey ir.target) = some (genWalkTask x ir profile group).newEntry := by
  -- an entry under the key is a walk of the target already, and gets the new settings
  have hkeys : ∀ k, s'.lookup? k = if k = walkKey ir.target then
      some (genWalkTask x ir profile group).newEntry else s.lookup? k := by
    intro k
    have hk' : s'.lookup? k = if k = walkKey ir.target then
        some (ScheduleStore.managedEntry (s.lookup? k) (genWalkTask x ir profile group))
        else s.lookup? k := ScheduleStore.lookup?_manageTask rfl rfl hrun k
    rw [hk']
    by_cases hk : k = walkKey ir.target
    · rw [if_pos hk, if_pos hk, hk, h.managedEntry_walk]
    · rw [if_neg hk, if_neg hk]
  refine ⟨⟨fun k e he htask => ?_, fun target e he => ?_, fun k e he htask => ?_⟩, ?_⟩
  · rw [hkeys] at he
    split at he
    · next hk =>
      cases he
      exact ⟨_, rfl, hk⟩
    · exact h.ownName k e he htask
  · rw [hkeys] at he
    split at he
    · next hk =>
      cases he
      exact ⟨rfl, congrArg some (walkKey_injective hk).symm⟩
    · exact h.ownTask target e he
  · rw [hkeys] at he
    split at he
    · cases he
      rfl
    · exact h.ownChain k e he htask
  · rw [hkeys, if_pos rfl]

/-- After a look at the expiry times the walks that are left have the new one. -/
theorem didExpiryTimeChange (h : WalksOwned s x) (y : ℤ) :
    WalksOwned (s.didExpiryTimeChange y expiringTasks).2 y := by
  have hspec := fun k e => ScheduleStore.didExpiryTimeChange_spec s y expiringTasks (k := k)
    (e := e)
  have hleft := h.of_subset fun k e he => (hspec k e he).1
  refine ⟨hleft.ownName, hleft.ownTask, fun k e he htask => ?_⟩
  obtain ⟨target, -, rfl⟩ := hleft.ownName k e he htask
  have hchain := hleft.ownChain _ e he htask
  have hx : x = y := (hspec _ e he).2
    (ScheduleStore.isMatch_walkKey target) (by simp [htask, expiringTasks]) x (by rw [hchain]; rfl)
  rw [hchain, hx]

end WalksOwned

open InventoryRecordManager

/-- A delete keeps the invariant. -/
theorem walksOwned_delete {deleteSchedules : DeleteSchedulesByTarget}
    (hdel : RemovesOnly deleteSchedules) {db : InventoryDb} {x : ℤ}
    (h : WalksOwned db.schedules x) (target : String) :
    WalksOwned (delete deleteSchedules db target).1.schedules x := by
  rw [InventoryRecordManager.delete]
  split
  · exact h
  · exact h.of_subset (hdel db.schedules target)

/-! ### One update -/

/-- The walks stored for the target of the record are exactly one, the one that
`gen_walk_task` builds from the record, the walk profile of these settings and the
group of its line. -/
def WalkReflected (config : LoadConfig) (schedules : ScheduleStore) (ir : InventoryRecord)
    (source : SourceRecord) : Prop :=
  ∃ walkProfile record, walkSettings config ir source = .ok (walkProfile, record) ∧
    ∀ k e, (schedules.lookup? k = some e ∧ e.task = walkTask ∧ e.target = some record.target) ↔
      (k = walkKey record.target ∧ e = (genWalkTask config.chainOfTasksExpiryTime record
        walkProfile (source.get "group")).newEntry)

/-- When `update` leaves the generated walk: the record is new or modified, the expiry
time changed, or the target has no walk — and otherwise if the walk that is there
happens to be the generated one. -/
def WalkDue (config : LoadConfig) (expiryTimeChanged : Bool) (db : InventoryDb)
    (ir : InventoryRecord) (source : SourceRecord) : Prop :=
  ∃ walkProfile record, walkSettings config ir source = .ok (walkProfile, record) ∧
    (db.inventory.get? record.docKey ≠ some record ∨ expiryTimeChanged = true ∨
      db.schedules.lookup? (walkKey record.target) = none ∨
      db.schedules.lookup? (walkKey record.target) = some (genWalkTask
        config.chainOfTasksExpiryTime record walkProfile (source.get "group")).newEntry)

/-- Where walks are owned, a walk is reflected when it stands under its key. -/
theorem walkReflected_iff {config : LoadConfig} {s : ScheduleStore} {x : ℤ} {ir : InventoryRecord}
    {source : SourceRecord} {walkProfile : Option String} {record : InventoryRecord}
    (h : WalksOwned s x) (hset : walkSettings config ir source = .ok (walkProfile, record)) :
    WalkReflected config s ir source ↔
      s.lookup? (walkKey record.target) = some (genWalkTask config.chainOfTasksExpiryTime record
        walkProfile (source.get "group")).newEntry := by
  constructor
  · rintro ⟨_, _, hset', hiff⟩
    rw [hset, Except.ok.injEq, Prod.mk.injEq] at hset'
    obtain ⟨rfl, rfl⟩ := hset'
    exact ((hiff _ _).mpr ⟨rfl, rfl⟩).1
  · intro hentry
    refine ⟨_, _, hset, fun k e => ⟨fun ⟨he, htask, htarget⟩ => ?_, ?_⟩⟩
    · obtain ⟨target, htarget', rfl⟩ := h.ownName k e he htask
      rw [htarget, Option.some.injEq] at htarget'
      subst htarget'
      rw [hentry, Option.some.injEq] at he
      exact ⟨rfl, he.symm⟩
    · rintro ⟨rfl, rfl⟩
      exact ⟨hentry, rfl, rfl⟩

theorem walkDue_iff {config : LoadConfig} {expiryTimeChanged : Bool} {db : InventoryDb}
    {ir : InventoryRecord} {source : SourceRecord} {walkProfile : Option String}
    {record : InventoryRecord} (hset : walkSettings config ir source = .ok (walkProfile, record)) :
    WalkDue config expiryTimeChanged db ir source ↔
      db.inventory.get? record.docKey ≠ some record ∨ expiryTimeChanged = true ∨
      db.schedules.lookup? (walkKey record.target) = none ∨
      db.schedules.lookup? (walkKey record.target) = some (genWalkTask
        config.chainOfTasksExpiryTime record walkProfile (source.get "group")).newEntry := by
  constructor
  · rintro ⟨_, _, hset', hdue⟩
    rw [hset, Except.ok.injEq, Prod.mk.injEq] at hset'
    obtain ⟨rfl, rfl⟩ := hset'
    exact hdue
  · exact fun hdue => ⟨_, _, hset, hdue⟩

/-- Scheduling keeps the invariant, and when it returns the walk is the generated one. -/
theorem scheduleWalk_spec (db : InventoryDb) {x : ℤ} (h : WalksOwned db.schedules x)
    (ir : InventoryRecord) (profile : Option String) (group : PyVal) :
    WalksOwned (scheduleWalk db (genWalkTask x ir profile group)).1.schedules x ∧
      ((scheduleWalk db (genWalkTask x ir profile group)).2 = .ok () →
        (scheduleWalk db (genWalkTask x ir profile group)).1.schedules.lookup? (walkKey ir.target) =
          some (genWalkTask x ir profile group).newEntry) := by
  rw [scheduleWalk]
  cases hrun : db.schedules.manageTask (genWalkTask x ir profile group) with
  | error err =>
    refine ⟨h, fun herr => ?_⟩
    cases herr
  | ok schedules =>
    obtain ⟨howned, hentry⟩ := h.manageTask hrun
    exact ⟨howned, fun _ => hentry⟩

/-- An update keeps the invariant, and after one that returns the walk is reflected
exactly when it was due. -/
theorem update_spec {config : LoadConfig} (expiryTimeChanged : Bool) {db : InventoryDb}
    (h : WalksOwned db.schedules config.chainOfTasksExpiryTime) (ir : InventoryRecord)
    (source : SourceRecord) :
    WalksOwned (update config expiryTimeChanged db ir source).1.schedules
        config.chainOfTasksExpiryTime ∧
      ((update config expiryTimeChanged db ir source).2 = .ok () →
        (WalkReflected config (update config expiryTimeChanged db ir source).1.schedules ir source ↔
          WalkDue config expiryTimeChanged db ir source)) := by
  rw [update]
  cases hset : walkSettings config ir source with
  | error err =>
    refine ⟨h, fun herr => ?_⟩
    cases herr
  | ok settings =>
    obtain ⟨walkProfile, record⟩ := settings
    -- whenever the scheduler is reached, the walk is due and becomes the generated one
    have hscheduled := scheduleWalk_spec
      { db with inventory := db.inventory.insert record.docKey record } h record walkProfile
      (source.get "group")
    have hreflected := fun hok => (walkReflected_iff hscheduled.1 hset).mpr (hscheduled.2 hok)
    by_cases hdoc : db.inventory.get? record.docKey ≠ some record
    · simp only [if_pos hdoc]
      exact ⟨hscheduled.1, fun hok => iff_of_true (hreflected hok)
        ((walkDue_iff hset).mpr (.inl hdoc))⟩
    by_cases hchanged : expiryTimeChanged = true
    · simp only [if_neg hdoc, if_pos hchanged]
      exact ⟨hscheduled.1, fun hok => iff_of_true (hreflected hok)
        ((walkDue_iff hset).mpr (.inr (.inl hchanged)))⟩
    simp only [if_neg hdoc, if_neg hchanged]
    cases hwalk : db.schedules.walkTaskExists record.target with
    | error err =>
      refine ⟨h, fun herr => ?_⟩
      cases herr
    | ok walkExists =>
      cases walkExists with
      | false =>
        have hmissing := ScheduleStore.walkTaskExists_eq_false hwalk
        exact ⟨hscheduled.1, fun hok => iff_of_true (hreflected hok)
          ((walkDue_iff hset).mpr (.inr (.inr (.inl hmissing))))⟩
      | true =>
        -- nothing is scheduled: the walk is the generated one if it was
        obtain ⟨e, he⟩ := ScheduleStore.walkTaskExists_eq_true hwalk
        refine ⟨h, fun _ => ?_⟩
        rw [walkReflected_iff h hset, walkDue_iff hset]
        have hthere : db.schedules.lookup? (walkKey record.target) ≠ none := by
          rw [walkKey, he]
          exact Option.some_ne_none e
        simp only [hdoc, hchanged, hthere, Bool.false_eq_true, false_or]

/-! ### Every sequence of loads -/

/-- After the step, if it was an update that returned, the walk is reflected. -/
def ReflectedAfter (deleteSchedules : DeleteSchedulesByTarget) (st : LoadState) : LoadEvent → Prop
  | .update ir source =>
    (update st.config st.expiryTimeChanged st.db ir source).2 = .ok () →
      WalkReflected st.config (loadStep deleteSchedules st (.update ir source)).db.schedules
        ir source
  | _ => True

/-- Before the step, if it is an update that returns, the walk is due. -/
def DueBefore (st : LoadState) : LoadEvent → Prop
  | .update ir source =>
    (update st.config st.expiryTimeChanged st.db ir source).2 = .ok () →
      WalkDue st.config st.expiryTimeChanged st.db ir source
  | _ => True

/-- The invariant of a sequence of loads. -/
def LoadState.Owned (st : LoadState) : Prop :=
  WalksOwned st.db.schedules st.config.chainOfTasksExpiryTime

/-- Every step of a load keeps the invariant. -/
theorem owned_loadStep {deleteSchedules : DeleteSchedulesByTarget}
    (hdel : RemovesOnly deleteSchedules) {st : LoadState} (h : st.Owned) (event : LoadEvent) :
    (loadStep deleteSchedules st event).Owned := by
  cases event with
  | beginLoad config => exact h.didExpiryTimeChange config.chainOfTasksExpiryTime
  | delete target => exact walksOwned_delete hdel h target
  | update ir source => exact (update_spec st.expiryTimeChanged h ir source).1

/-- One step: the walk is reflected after it exactly when it was due before. -/
theorem reflectedAfter_iff {deleteSchedules : DeleteSchedulesByTarget} {st : LoadState}
    (h : st.Owned) (event : LoadEvent) :
    ReflectedAfter deleteSchedules st event ↔ DueBefore st event := by
  cases event with
  | beginLoad config => exact Iff.rfl
  | delete target => exact Iff.rfl
  | update ir source =>
    exact forall_congr' fun hok => (update_spec st.expiryTimeChanged h ir source).2 hok

/-- **Along every sequence of loads** the walks are reflected after every update
exactly when they were due before every update. -/
theorem walkReflected_along_iff (deleteSchedules : DeleteSchedulesByTarget)
    (hdel : RemovesOnly deleteSchedules) (st : LoadState) (h : st.Owned)
    (events : List LoadEvent) :
    Run.Along (loadStep deleteSchedules) (ReflectedAfter deleteSchedules) st events ↔
      Run.Along (loadStep deleteSchedules) DueBefore st events :=
  Run.along_iff (I := LoadState.Owned) (fun _ event hst => reflectedAfter_iff hst event)
    (fun _ event hst _ => owned_loadStep hdel hst event) h events

/-! ### A walk profile that appears under an unchanged record -/

/-- A host with the profile `big_walk`. -/
def bigWalkHost : InventoryRecord :=
  { port := 161, address := some "10.0.0.1", version := some "2c", community := some "public",
    secret := none, securityEngine := none, walkInterval := 42000, maxOidToProcess := none,
    profiles := ["big_walk"], smartProfiles := some true, delete := some false, group := none }

/-- The line of that host. -/
def bigWalkLine : SourceRecord :=
  { columns := Dict.ofList [("address", .str "10.0.0.1"), ("walk_interval", .str "42000"),
      ("profiles", .str "big_walk")] }

/-- The settings before the profile is configured, and with it. -/
def bigWalkConfig (configured : Bool) : LoadConfig :=
  { runtimeProfiles := if configured then
      Dict.ofList [("big_walk", { condition := some { type := some "walk" } })] else Dict.empty
    enableFullWalk := false
    chainOfTasksExpiryTime := 60 }

/-- Nothing loaded yet. -/
def LoadState.initial : LoadState := ⟨InventoryDb.empty, bigWalkConfig false, false⟩

/-- Two loads of the same inventory, the second with the profile configured. -/
def bigWalkLoads : List LoadEvent :=
  [.beginLoad (bigWalkConfig false), .update bigWalkHost bigWalkLine,
    .beginLoad (bigWalkConfig true), .update bigWalkHost bigWalkLine]

/-- A RedBeat that deletes nothing. -/
def keepSchedules : DeleteSchedulesByTarget := fun s _ => s

theorem removesOnly_keepSchedules : RemovesOnly keepSchedules := fun _ _ _ _ h => h

/-- Both loads return from their updates on the way. -/
theorem walkReflected_along_iff_bigWalkLoads :
    Run.Along (loadStep keepSchedules) (ReflectedAfter keepSchedules) LoadState.initial
        bigWalkLoads ↔
      Run.Along (loadStep keepSchedules) DueBefore LoadState.initial bigWalkLoads :=
  walkReflected_along_iff keepSchedules removesOnly_keepSchedules LoadState.initial
    (WalksOwned.empty _) bigWalkLoads

/-- The second load leaves the walk of the first one's settings. -/
theorem walkReflected_along_fails :
    ¬ ∀ (deleteSchedules : DeleteSchedulesByTarget), RemovesOnly deleteSchedules →
      ∀ (st : LoadState), st.Owned → ∀ events : List LoadEvent,
        Run.Along (loadStep deleteSchedules) (ReflectedAfter deleteSchedules) st events := by
  intro hclaim
  obtain ⟨-, -, -, hsecond, -⟩ := hclaim keepSchedules removesOnly_keepSchedules LoadState.initial
    (WalksOwned.empty _) bigWalkLoads
  obtain ⟨walkProfile, record, hset, hiff⟩ := hsecond (by decide)
  have hexpected : walkSettings (bigWalkConfig true) bigWalkHost bigWalkLine =
      .ok (some "big_walk", bigWalkHost) := by decide
  cases hexpected.symm.trans hset
  exact absurd ((hiff _ _).mpr ⟨rfl, rfl⟩).1 (by decide)

end Sc4snmp
