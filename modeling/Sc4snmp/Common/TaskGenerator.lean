import Mathlib.Data.List.Dedup
import Sc4snmp.Lib.Dict
import Sc4snmp.Lib.PyVal

/-!
# Task definitions

The keyword arguments `common/task_generator.py` builds for the scheduler, and
the records of a RedBeat schedule they end up in.  A `TaskData` is the keyword
dictionary `manage_task` is called with: a field that is `none` was not given.

## Main definitions

* `RedBeatSchedulerEntry` — a schedule entry.
* `WalkTaskGenerator.generateTaskDefinition`, `PollTaskGenerator.generateTaskDefinition`.
-/

namespace Sc4snmp

/-- A Celery canvas: what runs after a task. -/
inductive Canvas
  | signature (task queue : String) (priority : ℕ)
  | chain (first second : Canvas)
  | group (first second : Canvas)
  deriving DecidableEq, Repr

/-- A value among the keyword arguments of a task. -/
inductive KwargValue
  | scalar (v : PyVal)
  | list (l : List String)
  deriving DecidableEq, Repr

/-- The keyword arguments of a task. -/
abbrev Kwargs := Dict String KwargValue

/-- The `options` of a schedule entry. -/
structure TaskOptions where
  expires : Option ℤ := none
  queue : Option String := none
  link : Option Canvas := none
  deriving DecidableEq, Repr

/-- A schedule entry as RedBeat keeps it. -/
structure RedBeatSchedulerEntry where
  name : String
  task : String
  target : Option String
  args : List String
  kwargs : Kwargs
  options : TaskOptions
  /-- The period of `schedule(period)`. -/
  schedule : ℤ
  enabled : Bool
  runImmediately : Bool
  deriving DecidableEq

/-- The keyword arguments of `manage_task`. -/
structure TaskData where
  name : Option String := none
  task : Option String := none
  target : Option String := none
  args : Option (List String) := none
  kwargs : Option Kwargs := none
  options : Option TaskOptions := none
  schedule : Option ℤ := none
  enabled : Option Bool := none
  runImmediately : Option Bool := none
  /-- Whether the Celery application was given. -/
  app : Bool := false
  deriving DecidableEq

/-- `customtaskmanager.WALK_TASK`. -/
def walkTask : String := "splunk_connect_for_snmp.snmp.tasks.walk"

/-- `customtaskmanager.POLL_TASK`. -/
def pollTask : String := "splunk_connect_for_snmp.snmp.tasks.poll"

/-- `customtaskmanager.DISCOVERY_TASK`. -/
def discoveryTask : String := "splunk_connect_for_snmp.discovery.tasks.discovery"

/-! ### The generators -/

/-- The fields of `TaskGenerator`. -/
structure TaskGenerator where
  target : String
  schedulePeriod : ℤ
  group : PyVal

/-- `TaskGenerator.generate_task_definition`. -/
def TaskGenerator.generateTaskDefinition (g : TaskGenerator) : TaskData :=
  let kwargs : Kwargs := Dict.empty.insert "address" (.scalar (.str g.target))
  { target := some g.target
    args := some []
    kwargs := some (if g.group.truthy then kwargs.insert "group" (.scalar g.group) else kwargs)
    schedule := some g.schedulePeriod
    enabled := some true
    app := true }

/-- The tail of both chains: the metrics are prepared and sent. -/
def prepareAndSend : Canvas :=
  .chain (.signature "splunk_connect_for_snmp.splunk.tasks.prepare" "send" 1)
    (.signature "splunk_connect_for_snmp.splunk.tasks.send" "send" 0)

/-- The head of both chains. -/
def enrichSignature : Canvas :=
  .signature "splunk_connect_for_snmp.enrich.tasks.enrich" "poll" 4

/-- `WalkTaskGenerator.WALK_CHAIN_OF_TASKS` under a `CHAIN_OF_TASKS_EXPIRY_TIME`. -/
def walkChainOfTasks (expiryTime : ℤ) : TaskOptions :=
  { expires := some expiryTime
    link := some (.chain enrichSignature
      (.group (.signature "splunk_connect_for_snmp.inventory.tasks.inventory_setup_poller" "poll" 3)
        prepareAndSend)) }

/-- The fields of `WalkTaskGenerator`. -/
structure WalkTaskGenerator extends TaskGenerator where
  profile : Option String

/-- The name of the walk schedule of a target. -/
def walkTaskName (target : String) : String := "sc4snmp;" ++ target ++ ";walk"

/-- `WalkTaskGenerator.generate_task_definition`, under a `CHAIN_OF_TASKS_EXPIRY_TIME`. -/
def WalkTaskGenerator.generateTaskDefinition (expiryTime : ℤ) (g : WalkTaskGenerator) : TaskData :=
  let taskData := g.toTaskGenerator.generateTaskDefinition
  let walkKwargs : List (String × KwargValue) :=
    [("profile", .scalar (match g.profile with
        | some profile => .str profile
        | none => .none)),
      ("chain_of_tasks_expiry_time", .scalar (.int expiryTime))]
  { taskData with
    name := some (walkTaskName g.target)
    task := some walkTask
    options := some (walkChainOfTasks expiryTime)
    runImmediately := some true
    kwargs := taskData.kwargs.map fun kwargs => kwargs.updateList walkKwargs }

/-- The fields of `PollTaskGenerator`.  A walk scheduled without an expiry time
passes none on. -/
structure PollTaskGenerator extends TaskGenerator where
  profiles : List String
  chainOfTasksExpiryTime : Option ℤ

/-- `PollTaskGenerator.POLL_CHAIN_OF_TASKS`. -/
def PollTaskGenerator.pollChainOfTasks (g : PollTaskGenerator) : TaskOptions :=
  { expires := g.chainOfTasksExpiryTime
    link := some (.chain enrichSignature prepareAndSend) }

/-- `PollTaskGenerator.run_immediately`. -/
def PollTaskGenerator.runImmediately (g : PollTaskGenerator) : Bool := g.schedulePeriod > 300

/-- The name of the poll schedule of a target at a frequency. -/
def pollTaskName (target : String) (period : ℤ) : String :=
  "sc4snmp;" ++ target ++ ";" ++ toString period ++ ";poll"

/-- `PollTaskGenerator.generate_task_definition`. -/
def PollTaskGenerator.generateTaskDefinition (g : PollTaskGenerator) : TaskData :=
  let taskData := g.toTaskGenerator.generateTaskDefinition
  let pollKwargs : List (String × KwargValue) :=
    [("profiles", .list g.profiles), ("frequency", .scalar (.int g.schedulePeriod)),
      ("priority", .scalar (.int 2))]
  { taskData with
    name := some (pollTaskName g.target g.schedulePeriod)
    task := some pollTask
    options := some g.pollChainOfTasks
    runImmediately := some g.runImmediately
    kwargs := taskData.kwargs.map fun kwargs => kwargs.updateList pollKwargs }

/-- The keyword arguments of a poll name its profiles and its frequency. -/
theorem PollTaskGenerator.kwargs_generateTaskDefinition (g : PollTaskGenerator) :
    ∃ kwargs, g.generateTaskDefinition.kwargs = some kwargs ∧
      kwargs.get? "profiles" = some (.list g.profiles) ∧
      kwargs.get? "frequency" = some (.scalar (.int g.schedulePeriod)) :=
  ⟨_, rfl, by simp, by simp⟩

end Sc4snmp
