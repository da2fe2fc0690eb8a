import Sc4snmp.Enrich.OneCall
import Sc4snmp.Enrich.Operations
import Sc4snmp.Inventory.StoreHealing
import Sc4snmp.Lib.FloatOrder
import Sc4snmp.Lib.Run

/-!
# Restart detection over histories

Calls of `enrich` one after the other, with the schedule store they trigger walks in.  Redis
may fail at each of its reads and at the write, and its other clients may change the schedules
before the check for a walk and between the check and the update.

## Main definitions

* `SysUpTime` — an uptime as it is stored, the double of a number of ticks.
* `RedisRun`, `RedisRun.triggerWalkAfterRestart` — what Redis does, and the trigger under it.
* `RestartCall`, `restartStep` — a call, and what it does to the database and the schedules.
* `lastReported`, `Restarted`, `RedisRun.Reachable` — the terms of the statement.

## Main results

* `triggerWalkAfterRestart_calm` — the trigger without failures.
* `restartHandled` — **after every history, the last uptime is stored, and the next call
  triggers a walk exactly if its uptime went down and the walk can be reached**.
-/

namespace Sc4snmp

open ScheduleStore

/-! ### Redis -/

/-- What becomes of a write. -/
inductive WriteReply
  | answered
  /-- The write is made, and the answer is lost. -/
  | unanswered (err : PyError)
  | refused (err : PyError)

/-- What Redis does while a restart is handled. -/
structure RedisRun where
  /-- What its other clients do before the check. -/
  before : ScheduleStore → ScheduleStore
  /-- The failure of the read in `walk_task_exists`. -/
  existsFault : Option PyError
  /-- What the others do between the check and the update. -/
  between : ScheduleStore → ScheduleStore
  /-- The failure of the read in `manage_task`. -/
  loadFault : Option PyError
  saveReply : WriteReply

/-- `from_key`, when the read may fail. -/
def readKey (fault : Option PyError) (s : ScheduleStore) (key : String) :
    Except PyError RedBeatSchedulerEntry :=
  match fault with
  | some err => .error err
  | none => s.fromKey key

theorem readKey_eq_ok {fault : Option PyError} {s : ScheduleStore} {key : String}
    {e : RedBeatSchedulerEntry} :
    readKey fault s key = .ok e ↔ fault = none ∧ s.fromKey key = .ok e := by
  cases fault <;> simp [readKey]

namespace RedisRun

/-- The schedules `manage_task` finds. -/
def found (redis : RedisRun) (s : ScheduleStore) : ScheduleStore := redis.between (redis.before s)

/-- `walk_task_exists`. -/
def walkTaskExists (redis : RedisRun) (s : ScheduleStore) (target : String) :
    Except PyError Bool :=
  match readKey redis.existsFault s (redbeatKey (walkTaskName target)) with
  | .ok _ => .ok true
  | .error .keyError => .ok false
  | .error err => .error err

/-- `RedBeatSchedulerEntry.save`. -/
def save (redis : RedisRun) (s : ScheduleStore) (e : RedBeatSchedulerEntry) :
    ScheduleStore × Except PyError Unit :=
  match redis.saveReply with
  | .answered => (s.save e, .ok ())
  | .unanswered err => (s.save e, .error err)
  | .refused err => (s, .error err)

/-- `manage_task`. -/
def manageTask (redis : RedisRun) (s : ScheduleStore) (d : TaskData) :
    ScheduleStore × Except PyError Unit :=
  match readKey redis.loadFault s (redbeatKey (d.name.getD "None")) with
  | .ok e => redis.save s (e.setArguments d)
  | .error .keyError =>
    if d.missingFields.isEmpty then redis.save s d.newEntry else (s, .ok ())
  | .error err => (s, .error err)

/-- The `try` of `trigger_walk_after_restart`. -/
def restartWalk (redis : RedisRun) (s : ScheduleStore) (address : String) :
    ScheduleStore × Except PyError Unit :=
  match redis.walkTaskExists (redis.before s) address with
  | .error err => (redis.found s, .error err)
  | .ok false => (redis.found s, .ok ())
  | .ok true => redis.manageTask (redis.found s)
      { name := some (walkTaskName address), runImmediately := some true }

/-- `trigger_walk_after_restart`: every exception is logged. -/
def triggerWalkAfterRestart (redis : RedisRun) (s : ScheduleStore) (address : String) :
    ScheduleStore × Except PyError Unit :=
  match redis.restartWalk s address with
  | (s', .ok ()) => (s', .ok ())
  | (s', .error _) => (s', .ok ())

/-- Nothing fails, and no one else is there. -/
def calm : RedisRun := ⟨id, none, id, none, .answered⟩

theorem walkTaskExists_calm (s : ScheduleStore) (address : String) :
    calm.walkTaskExists s address = s.walkTaskExists address := by
  unfold walkTaskExists ScheduleStore.walkTaskExists
  rfl

/-- `manage_task` without failures. -/
theorem manageTask_calm (s : ScheduleStore) (d : TaskData) :
    calm.manageTask s d =
      match s.manageTask d with
      | .ok s' => (s', .ok ())
      | .error err => (s, .error err) := by
  unfold manageTask ScheduleStore.manageTask
  rw [show readKey calm.loadFault s = s.fromKey from rfl]
  cases s.fromKey (redbeatKey (d.name.getD "None")) with
  | ok e => rfl
  | error err =>
    cases err with
    | keyError =>
      dsimp only
      split <;> rfl
    | _ => rfl

theorem restartWalk_calm (s : ScheduleStore) (address : String) :
    calm.restartWalk s address =
      match Sc4snmp.restartWalk s address with
      | .ok s' => (s', .ok ())
      | .error err => (s, .error err) := by
  unfold restartWalk Sc4snmp.restartWalk
  rw [show calm.before s = s from rfl, show calm.found s = s from rfl, walkTaskExists_calm]
  cases s.walkTaskExists address with
  | error err => rfl
  | ok walkExists =>
    cases walkExists with
    | false => rfl
    | true => exact manageTask_calm s _

/-- The trigger without failures. -/
theorem triggerWalkAfterRestart_calm (s : ScheduleStore) (address : String) :
    calm.triggerWalkAfterRestart s address = Sc4snmp.triggerWalkAfterRestart s address := by
  unfold triggerWalkAfterRestart Sc4snmp.triggerWalkAfterRestart
  rw [restartWalk_calm]
  cases Sc4snmp.restartWalk s address <;> rfl

/-- The write is made. -/
def CarriesOut (redis : RedisRun) : Prop := ∀ err, redis.saveReply ≠ .refused err

/-- The walk of a target exists and can be reached: both reads find it, the second one as an
entry, and the write is made. -/
structure Reachable (redis : RedisRun) (s : ScheduleStore) (address : String)
    (e : RedBeatSchedulerEntry) : Prop where
  exists_ : HasEntry (redis.before s) (walkKey address)
  check : redis.existsFault = none
  loaded : (redis.found s).fromKey (walkKey address) = .ok e
  load : redis.loadFault = none
  carriesOut : redis.CarriesOut

/-- The trigger returns. -/
theorem triggerWalkAfterRestart_returns (redis : RedisRun) (s : ScheduleStore) (address : String) :
    (redis.triggerWalkAfterRestart s address).2 = .ok () := by
  unfold triggerWalkAfterRestart
  split <;> rfl

theorem triggerWalkAfterRestart_fst (redis : RedisRun) (s : ScheduleStore) (address : String) :
    (redis.triggerWalkAfterRestart s address).1 = (redis.restartWalk s address).1 := by
  unfold triggerWalkAfterRestart
  split <;> next h => rw [h]

/-- A walk that can be reached is marked, and nothing else about it is changed. -/
theorem Reachable.triggers {redis : RedisRun} {s : ScheduleStore} {address : String}
    {e : RedBeatSchedulerEntry} (h : redis.Reachable s address e) :
    (redis.triggerWalkAfterRestart s address).1 =
      (redis.found s).save { e with runImmediately := true } := by
  obtain ⟨e₀, he₀⟩ := h.exists_
  have hexists : redis.walkTaskExists (redis.before s) address = .ok true := by
    rw [walkTaskExists, h.check, readKey, ← walkKey, he₀]
  rw [triggerWalkAfterRestart_fst, restartWalk, hexists, manageTask, h.load, readKey,
    Option.getD_some, ← walkKey, h.loaded]
  unfold save
  cases hreply : redis.saveReply with
  | answered => rfl
  | unanswered err => rfl
  | refused err => exact absurd hreply (h.carriesOut err)

/-- A walk that cannot be reached leaves the schedules as the others left them. -/
theorem triggerWalkAfterRestart_of_not_reachable {redis : RedisRun} {s : ScheduleStore}
    {address : String} (h : ∀ e, ¬ redis.Reachable s address e) :
    (redis.triggerWalkAfterRestart s address).1 = redis.found s := by
  rw [triggerWalkAfterRestart_fst, restartWalk]
  cases hexists : redis.walkTaskExists (redis.before s) address with
  | error err => rfl
  | ok walkExists =>
    cases walkExists with
    | false => rfl
    | true =>
      -- the check has found a walk, so the update has not
      have hcheck : redis.existsFault = none ∧ HasEntry (redis.before s) (walkKey address) := by
        rw [walkTaskExists, ← walkKey] at hexists
        split at hexists
        · next e he =>
          obtain ⟨hnone, he⟩ := readKey_eq_ok.mp he
          exact ⟨hnone, e, he⟩
        · cases hexists
        · cases hexists
      dsimp only
      rw [manageTask, Option.getD_some, ← walkKey]
      cases hload : readKey redis.loadFault (redis.found s) (walkKey address) with
      | error err => cases err <;> rfl
      | ok e =>
        obtain ⟨hnone, hload⟩ := readKey_eq_ok.mp hload
        have hrefused : ¬ redis.CarriesOut := fun hout =>
          h e ⟨hcheck.2, hcheck.1, hload, hnone, hout⟩
        obtain ⟨err, herr⟩ := not_forall_not.mp hrefused
        dsimp only
        rw [save, herr]

end RedisRun

namespace Enrich

open Program (run perform operations)

variable {β : Type}

/-! ### The calls -/

/-- An uptime as it is stored: the double of a number of ticks. -/
structure SysUpTime where
  value : Float
  metricType : String
  oid : String
  ticks : ℕ
  ticks_lt : ticks < 2 ^ 32
  value_eq : PyFloat.value value = some (PyFloat.ofRat ticks)

/-- The uptimes are compared as integers. -/
def restartEnv (env : EnrichEnv β SysUpTime) : EnrichEnv β SysUpTime :=
  { env with uptime := fun metric => PyFloat.toInt metric.value }

theorem uptime_restartEnv (env : EnrichEnv β SysUpTime) (metric : SysUpTime) :
    (restartEnv env).uptime metric = .ok (metric.ticks : ℤ) :=
  PyFloat.toInt_of_value metric.value_eq

/-- The uptimes a call reports. -/
def uptimesOf (groups : List (ResultGroup β SysUpTime)) : List SysUpTime :=
  groups.filterMap fun group => group.metrics.get? sysUpTimeField

/-- A call that reports its uptime in one group at most, and what Redis does meanwhile. -/
structure RestartCall (β : Type) where
  call : EnrichCall β SysUpTime
  single : (uptimesOf (call.result.entries.map Prod.snd)).length ≤ 1
  redis : RedisRun

/-- The uptime a call reports. -/
def RestartCall.reported (c : RestartCall β) : Option SysUpTime :=
  (uptimesOf (c.call.result.entries.map Prod.snd)).head?

/-- The database and the schedules. -/
structure RestartWorld (β : Type) where
  db : EnrichDb β SysUpTime
  schedules : ScheduleStore

/-- The uptime of a target. -/
def EnrichDb.uptimeOf {γ : Type} (db : EnrichDb β γ) (address : String) : Option γ :=
  (db.target address).sysUpTime

/-- What an operation does to the database and the schedules; the trigger may raise. -/
def RestartWorld.apply (env : EnrichEnv β SysUpTime) (redis : RedisRun) :
    EnrichOp β SysUpTime → RestartWorld β → RestartWorld β × Except PyError Unit
  | .triggerWalk address, w =>
    let (schedules, result) := redis.triggerWalkAfterRestart w.schedules address
    (⟨(EnrichOp.triggerWalk address).apply env w.db, schedules⟩, result)
  | op, w => ({ w with db := op.apply env w.db }, .ok ())

/-- A call of `enrich`, with what it returns. -/
def runRestartCall (env : EnrichEnv β SysUpTime) (redis : RedisRun) (w : RestartWorld β)
    (call : EnrichCall β SysUpTime) :
    RestartWorld β × Except PyError (Dict String (ResultGroup β SysUpTime)) :=
  Program.attempt RestartWorld.db (RestartWorld.apply (restartEnv env) redis)
    (enrich (restartEnv env) call) w

/-- What a call does to the database and the schedules. -/
def restartStep (env : EnrichEnv β SysUpTime) (w : RestartWorld β) (c : RestartCall β) :
    RestartWorld β :=
  (runRestartCall env c.redis w c.call).1

/-! ### The operations on uptimes and schedules -/

/-- The operation changes no uptime and no schedule. -/
def Quiet : EnrichOp β SysUpTime → Prop
  | .setUpTime _ _ | .triggerWalk _ => False
  | _ => True

theorem admits_quiet (a : String) (G : Set String) :
    Admits (Quiet : EnrichOp β SysUpTime → Prop) a G :=
  ⟨trivial, fun _ => trivial, fun _ _ _ => trivial, fun _ _ _ _ => trivial⟩

theorem uptimeOf_apply {env : EnrichEnv β SysUpTime} {op : EnrichOp β SysUpTime} (hop : Quiet op)
    (db : EnrichDb β SysUpTime) (a : String) : (op.apply env db).uptimeOf a = db.uptimeOf a := by
  unfold EnrichDb.uptimeOf
  cases op with
  | findTarget | findAttributes => rfl
  | setUpTime | triggerWalk => cases hop
  | initialise address hash indexes id =>
    show ((db.initialise address hash indexes id).target a).sysUpTime = _
    unfold EnrichDb.initialise
    dsimp only
    split <;> rfl
  | setFields address hash stages upsert =>
    show ((db.setFields env address hash stages upsert).target a).sysUpTime = _
    unfold EnrichDb.setFields
    split
    · rfl
    · split <;> rfl
  | setState address stages =>
    simp only [EnrichOp.apply, target_insert]
    split
    · next heq => rw [setState_sysUpTime, heq]
    · rfl

theorem apply_of_quiet {env : EnrichEnv β SysUpTime} {redis : RedisRun}
    {op : EnrichOp β SysUpTime} (hop : Quiet op) (w : RestartWorld β) :
    ((RestartWorld.apply env redis op w).1).schedules = w.schedules := by
  cases op with
  | triggerWalk => cases hop
  | _ => rfl

theorem apply_returns (env : EnrichEnv β SysUpTime) (redis : RedisRun) (op : EnrichOp β SysUpTime)
    (w : RestartWorld β) : (RestartWorld.apply env redis op w).2 = .ok () := by
  cases op with
  | triggerWalk address => exact redis.triggerWalkAfterRestart_returns w.schedules address
  | _ => rfl

theorem db_apply (env : EnrichEnv β SysUpTime) (redis : RedisRun) (op : EnrichOp β SysUpTime)
    (w : RestartWorld β) :
    (RestartWorld.apply env redis op w).1.db = op.apply env w.db := by
  cases op <;> rfl

/-- Quiet operations, one after the other. -/
theorem foldl_of_quiet {env : EnrichEnv β SysUpTime} {redis : RedisRun}
    {ops : List (EnrichOp β SysUpTime)} (hops : ∀ op ∈ ops, Quiet op) (w : RestartWorld β) :
    (ops.foldl (fun w op => (RestartWorld.apply env redis op w).1) w).schedules = w.schedules ∧
      ∀ a, (ops.foldl (fun w op => (RestartWorld.apply env redis op w).1) w).db.uptimeOf a =
        w.db.uptimeOf a := by
  induction ops generalizing w with
  | nil => exact ⟨rfl, fun _ => rfl⟩
  | cons op ops ih =>
    rw [List.forall_mem_cons] at hops
    obtain ⟨hschedules, huptimes⟩ := ih hops.2 (RestartWorld.apply env redis op w).1
    refine ⟨hschedules.trans (apply_of_quiet hops.1 w), fun a => ?_⟩
    rw [List.foldl_cons, huptimes, db_apply, uptimeOf_apply hops.1]

/-! ### One call -/

/-- The uptime went down. -/
def Restarted : Option SysUpTime → Option SysUpTime → Prop
  | some last, some reported => reported.ticks < last.ticks
  | _, _ => False

instance : ∀ last reported, Decidable (Restarted last reported)
  | some last, some reported => Nat.decLt reported.ticks last.ticks
  | none, _ => isFalse id
  | some _, none => isFalse id

theorem checkRestart_of_none (env : EnrichEnv β SysUpTime) (current : Option SysUpTime) (a : String)
    {groups : List (ResultGroup β SysUpTime)} (h : uptimesOf groups = []) :
    checkRestart env current a groups = Program.done (.ok ()) := by
  induction groups with
  | nil => rfl
  | cons group groups ih =>
    unfold uptimesOf at h ih
    rw [List.filterMap_cons] at h
    unfold checkRestart
    cases hmetric : group.metrics.get? sysUpTimeField with
    | none =>
      rw [hmetric] at h
      exact ih h
    | some metric =>
      rw [hmetric] at h
      cases h

/-- The restart check: the uptime is stored, and a walk is triggered if it went down. -/
theorem run_restartCheck (env : EnrichEnv β SysUpTime) (current : Option SysUpTime)
    (a : String) {groups : List (ResultGroup β SysUpTime)} (h : (uptimesOf groups).length ≤ 1)
    (db : EnrichDb β SysUpTime) :
    operations (EnrichOp.apply (restartEnv env)) (checkRestart (restartEnv env) current a groups)
        db = (uptimesOf groups).map (EnrichOp.setUpTime a) ++
          (if Restarted current (uptimesOf groups).head? then [EnrichOp.triggerWalk a] else []) ∧
      (run (EnrichOp.apply (restartEnv env)) (checkRestart (restartEnv env) current a groups)
        db).2 = .ok () := by
  induction groups with
  | nil =>
    have hnot : ¬ Restarted current (none : Option SysUpTime) := by cases current <;> exact id
    exact ⟨(if_neg hnot).symm, rfl⟩
  | cons group groups ih =>
    cases hmetric : group.metrics.get? sysUpTimeField with
    | none =>
      have hsame : uptimesOf (group :: groups) = uptimesOf groups := by
        rw [uptimesOf, List.filterMap_cons, hmetric, uptimesOf]
      rw [hsame] at h ⊢
      rw [checkRestart, hmetric]
      exact ih h
    | some metric =>
      have hcons : uptimesOf (group :: groups) = metric :: uptimesOf groups := by
        rw [uptimesOf, List.filterMap_cons, hmetric, uptimesOf]
      rw [hcons] at h ⊢
      -- no other group has an uptime
      have hrest := checkRestart_of_none (restartEnv env) current a
        (List.length_eq_zero_iff.mp (Nat.le_zero.mp (Nat.le_of_succ_le_succ h)))
      have hnone : uptimesOf groups = [] :=
        List.length_eq_zero_iff.mp (Nat.le_zero.mp (Nat.le_of_succ_le_succ h))
      rw [checkRestart, hmetric, hnone]
      cases current with
      | none => simp [hrest, operations, perform, Restarted]
      | some old =>
        simp only [uptime_restartEnv, hrest, Nat.cast_lt]
        by_cases hlt : metric.ticks < old.ticks
        · rw [if_pos (show Restarted (some old) [metric].head? from hlt)]
          simp [operations, perform, hlt]
        · rw [if_neg (show ¬ Restarted (some old) [metric].head? from hlt)]
          simp [operations, perform, hlt]

theorem uptimeOf_eq (db : EnrichDb β SysUpTime) (a : String) :
    (db.targets.get? a).bind (·.sysUpTime) = db.uptimeOf a := by
  unfold EnrichDb.uptimeOf EnrichDb.target Dict.getD
  cases db.targets.get? a <;> rfl

/-- The operations of a call on uptimes and schedules are those of its restart check. -/
theorem operations_enrich (env : EnrichEnv β SysUpTime) (c : RestartCall β)
    (db : EnrichDb β SysUpTime) : ∃ rest : List (EnrichOp β SysUpTime), (∀ op ∈ rest, Quiet op) ∧
      operations (EnrichOp.apply (restartEnv env)) (enrich (restartEnv env) c.call) db =
        .findTarget c.call.address ::
          ((uptimesOf (c.call.result.entries.map Prod.snd)).map (.setUpTime c.call.address) ++
            (if Restarted (db.uptimeOf c.call.address) c.reported then
              [.triggerWalk c.call.address] else []) ++ rest) := by
  have hcheck := run_restartCheck env (db.uptimeOf c.call.address) c.call.address c.single db
  have hafter : ∀ s, ∀ op ∈ operations (EnrichOp.apply (restartEnv env))
      (afterCheck (restartEnv env) c.call) s, Quiet op :=
    fun s => (performs_afterCheck (restartEnv env) c.call (admits_quiet _ _)).mem_operations s
  refine ⟨_, hafter (run (EnrichOp.apply (restartEnv env)) (checkRestart (restartEnv env)
    (db.uptimeOf c.call.address) c.call.address (c.call.result.entries.map Prod.snd)) db).1, ?_⟩
  rw [enrich_eq, Program.operations_bind, Program.run_perform, uptimeOf_eq, Program.andThen,
    Program.operations_bind]
  simp only [EnrichOp.apply, hcheck.1, hcheck.2]
  rfl

/-- What a call does to the uptimes and the schedules. -/
theorem restartStep_spec (env : EnrichEnv β SysUpTime) (w : RestartWorld β) (c : RestartCall β) :
    (restartStep env w c).schedules =
        (if Restarted (w.db.uptimeOf c.call.address) c.reported then
          (c.redis.triggerWalkAfterRestart w.schedules c.call.address).1 else w.schedules) ∧
      ∀ a, (restartStep env w c).db.uptimeOf a =
        if c.call.address = a then c.reported.or (w.db.uptimeOf a) else w.db.uptimeOf a := by
  obtain ⟨rest, hrest, hops⟩ := operations_enrich env c w.db
  rw [restartStep, runRestartCall, Program.attempt_eq (apply_returns _ _) (db_apply _ _), hops]
  have hreported : uptimesOf (c.call.result.entries.map Prod.snd) = c.reported.toList := by
    have hsingle := c.single
    unfold RestartCall.reported
    cases huptimes : uptimesOf (c.call.result.entries.map Prod.snd) with
    | nil => rfl
    | cons metric uptimes =>
      rw [huptimes] at hsingle
      rw [List.length_eq_zero_iff.mp (Nat.le_zero.mp (Nat.le_of_succ_le_succ hsingle))]
      rfl
  rw [hreported, List.foldl_cons, List.foldl_append, List.foldl_append]
  obtain ⟨hschedules, huptimes⟩ := @foldl_of_quiet β (restartEnv env) c.redis rest hrest
    (List.foldl (fun w op => (RestartWorld.apply (restartEnv env) c.redis op w).1)
      (List.foldl (fun w op => (RestartWorld.apply (restartEnv env) c.redis op w).1) w
        (c.reported.toList.map (EnrichOp.setUpTime c.call.address)))
      (if Restarted (w.db.uptimeOf c.call.address) c.reported then
        [.triggerWalk c.call.address] else []))
  refine ⟨hschedules.trans ?_, fun a => (huptimes a).trans ?_⟩
  · cases c.reported with
    | none => split <;> rfl
    | some metric => split <;> rfl
  · have hset : ∀ metric, ((EnrichOp.setUpTime c.call.address metric).apply (restartEnv env)
        w.db).uptimeOf a = if c.call.address = a then some metric else w.db.uptimeOf a := by
      intro metric
      simp only [EnrichOp.apply, EnrichDb.uptimeOf, target_insert, eq_comm]
      split <;> rfl
    -- a trigger leaves the targets alone
    cases c.reported with
    | none => split <;> split <;> rfl
    | some metric =>
      rw [Option.some_or, ← hset metric]
      split <;> rfl

/-! ### Histories -/

/-- The uptime of a target that was reported last, or stored before. -/
def lastReported (w : RestartWorld β) (a : String) (history : List (RestartCall β)) :
    Option SysUpTime :=
  history.foldl (fun last c => if c.call.address = a then c.reported.or last else last)
    (w.db.uptimeOf a)

/-- What a call owes, given the uptime that was reported before. -/
structure RestartHandled (env : EnrichEnv β SysUpTime) (w : RestartWorld β)
    (last : Option SysUpTime) (c : RestartCall β) : Prop where
  /-- The walk is marked, and nothing else is changed. -/
  triggered : Restarted last c.reported → ∀ e, c.redis.Reachable w.schedules c.call.address e →
    ∀ k, (restartStep env w c).schedules.fromKey k =
      if k = walkKey c.call.address then .ok { e with runImmediately := true }
      else (c.redis.found w.schedules).fromKey k
  unreachable : Restarted last c.reported →
    (∀ e, ¬ c.redis.Reachable w.schedules c.call.address e) →
    (restartStep env w c).schedules = c.redis.found w.schedules
  untouched : ¬ Restarted last c.reported → (restartStep env w c).schedules = w.schedules
  /-- The call returns what it returns without a scheduler. -/
  returns : ∀ redis schedules, (runRestartCall env redis ⟨w.db, schedules⟩ c.call).2 =
    (run (EnrichOp.apply (restartEnv env)) (enrich (restartEnv env) c.call) w.db).2

theorem restartHandled_of_stored (env : EnrichEnv β SysUpTime) (w : RestartWorld β)
    (c : RestartCall β) : RestartHandled env w (w.db.uptimeOf c.call.address) c := by
  obtain ⟨hschedules, -⟩ := restartStep_spec env w c
  refine {
    triggered := fun hrestarted e he k => ?_
    unreachable := fun hrestarted hnone => ?_
    untouched := fun hnot => ?_
    returns := fun redis schedules => ?_ }
  · have hkey : walkKey c.call.address = redbeatKey e.name :=
      key_of_lookup? (fromKey_eq_ok_iff.mp he.loaded)
    rw [hschedules, if_pos hrestarted, he.triggers, fromKey_save, hkey]
  · rw [hschedules, if_pos hrestarted, RedisRun.triggerWalkAfterRestart_of_not_reachable hnone]
  · rw [hschedules, if_neg hnot]
  · rw [runRestartCall, Program.attempt_eq (apply_returns _ _) (db_apply _ _)]

/-- **After every history, the uptime that is stored is the one reported last, and the next call
triggers a walk exactly if its uptime is below that and the walk can be reached.** -/
theorem restartHandled (env : EnrichEnv β SysUpTime) (w : RestartWorld β)
    (history : List (RestartCall β)) :
    (∀ a, (Run.final (restartStep env) w history).db.uptimeOf a = lastReported w a history) ∧
      ∀ c : RestartCall β, RestartHandled env (Run.final (restartStep env) w history)
        (lastReported w c.call.address history) c := by
  have hstored : ∀ a, (Run.final (restartStep env) w history).db.uptimeOf a =
      lastReported w a history := by
    intro a
    induction history generalizing w with
    | nil => rfl
    | cons c history ih =>
      rw [Run.final_cons, ih, lastReported, lastReported, List.foldl_cons,
        (restartStep_spec env w c).2 a]
  refine ⟨hstored, fun c => ?_⟩
  rw [← hstored]
  exact restartHandled_of_stored env _ c

/-! ### A device that comes back -/

/-- An uptime of a number of ticks whose double is that number. -/
def uptimeOf (ticks : ℕ) (h : ticks < 2 ^ 32)
    (heq : PyFloat.value (PyFloat.scientific ticks 0) = some (PyFloat.ofRat ticks)) : SysUpTime :=
  ⟨PyFloat.scientific ticks 0, "g", "1.3.6.1.2.1.1.3.0", ticks, h, heq⟩

/-- The settings under which texts are compared and stored as they are. -/
def textEnv : EnrichEnv String SysUpTime where
  differs := fun c c' => c ≠ c'
  uptime := fun metric => .ok metric.ticks
  threshold := ⟨1, Nat.one_pos⟩
  evaluate := fun _ field => field
  evaluateState := fun _ field => field
  bulkOrder := fun ops => ops
  bulkOrder_perm := fun _ => List.Perm.refl _

/-- A call that reports an uptime of `10.0.0.1`. -/
def uptimeCall (metric : SysUpTime) : RestartCall String where
  call := ⟨"10.0.0.1:161", Dict.ofList [("SNMPv2-MIB::tuple=int=0",
    ⟨Dict.empty, Dict.ofList [(sysUpTimeField, metric)], [.int 0]⟩)]⟩
  single := Nat.le_refl 1
  redis := .calm

/-- The walk of `10.0.0.1`, which is not due. -/
def waitingWalk : RedBeatSchedulerEntry where
  name := walkTaskName "10.0.0.1:161"
  task := walkTask
  target := some "10.0.0.1:161"
  args := []
  kwargs := Dict.empty
  options := walkChainOfTasks 60
  schedule := 42000
  enabled := true
  runImmediately := false

/-- A device that was up for a day reports four tenths of a second: its walk is due. -/
theorem restartHandled_reboot :
    let history := [uptimeCall (uptimeOf 8640000 (by decide) (by decide +kernel))]
    let w := Run.final (restartStep textEnv)
      ⟨⟨Dict.empty, [], []⟩, ScheduleStore.empty.save waitingWalk⟩ history
    let c := uptimeCall (uptimeOf 40 (by decide) (by decide +kernel))
    (restartStep textEnv w c).schedules.fromKey (walkKey "10.0.0.1:161") =
      .ok { waitingWalk with runImmediately := true } := by
  intro history w c
  -- the first call leaves the schedules
  have hsame : w.schedules = ScheduleStore.empty.save waitingWalk :=
    ((restartHandled textEnv ⟨⟨Dict.empty, [], []⟩, ScheduleStore.empty.save waitingWalk⟩
      []).2 _).untouched id
  have hwalk : w.schedules.fromKey (walkKey "10.0.0.1:161") = .ok waitingWalk := by
    rw [hsame, fromKey_save]
    exact if_pos rfl
  have hreachable : c.redis.Reachable w.schedules c.call.address waitingWalk :=
    ⟨⟨waitingWalk, hwalk⟩, rfl, hwalk, rfl, fun _ h => by cases h⟩
  have hhandled := (restartHandled textEnv ⟨⟨Dict.empty, [], []⟩,
    ScheduleStore.empty.save waitingWalk⟩ history).2 c
  have hrestarted : Restarted (lastReported ⟨⟨Dict.empty, [], []⟩,
      ScheduleStore.empty.save waitingWalk⟩ c.call.address history) c.reported := by
    change 40 < 8640000
    decide
  exact (hhandled.triggered hrestarted waitingWalk hreachable _).trans (if_pos rfl)

end Enrich

end Sc4snmp
