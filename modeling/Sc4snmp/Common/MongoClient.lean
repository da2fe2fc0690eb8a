import Mathlib.Tactic.Common
import Sc4snmp.Lib.Run

/-!
# Database clients across forks

A worker builds its tasks, each with the database client of its process, and then forks.  A
child starts with a copy of its parent's memory, clients included, and a client must not be
used by two processes.  `get_mongo_client` replaces a client whose recorded process is another
one.  Before a fork a handler closes the client of the parent, and after it another one hands
the child's client to the tasks.

A process is named by its place in the list of all that ever ran; its `pid` may have been that
of a process which is no longer there.  A client is named by the process that made it and a
serial number.  The constructor of `MongoClient` succeeds; it opens no connection.

## Main definitions

* `getMongoClient`, `closeMongoClient`, `pollerInit`, `rebindMongoClients` — the source.
* `WorkerAction`, `ProcessTree.step` — what processes do, and forks.

## Main results

* `getMongoClient_own` — **a process gets a client of its own, which nobody closed**, and no
  process closes that of another one.
* `inherited_client_closed` — with the handlers no open client is in the memory of two processes.
* `rebound_tasks_own` — after the handlers every task has the client of its process.
-/

namespace Sc4snmp

/-- A `MongoClient`. -/
structure PymongoClient where
  maker : ℕ
  serial : ℕ
  deriving DecidableEq

/-- The clients of a `Poller`. -/
structure PollerTask where
  mongoClient : PymongoClient
  /-- The client of `profiles_manager`. -/
  profilesManager : PymongoClient
  /-- The client behind the cache of `session`. -/
  session : Option PymongoClient

/-- The memory of a process. -/
structure WorkerMemory where
  /-- `_mongo_client`. -/
  client : Option PymongoClient
  /-- `_mongo_client_pid`. -/
  clientPid : Option ℕ
  /-- The pollers of `current_app.tasks`. -/
  tasks : List PollerTask

/-! ### The source -/

/-- `get_mongo_client` in the process `pid`; `new` is the client it would make. -/
def getMongoClient (pid : ℕ) (new : PymongoClient) (m : WorkerMemory) :
    PymongoClient × WorkerMemory :=
  match m.client with
  | none => (new, { m with client := some new, clientPid := some pid })
  | some client =>
    if m.clientPid ≠ some pid then (new, { m with client := some new, clientPid := some pid })
    else (client, m)

/-- `close_mongo_client`, with the client that it closes. -/
def closeMongoClient (pid : ℕ) (m : WorkerMemory) : Option PymongoClient × WorkerMemory :=
  (if m.clientPid = some pid then m.client else none, { m with client := none, clientPid := none })

/-- `Poller.__init__`. -/
def pollerInit (noMongo : Bool) (pid : ℕ) (new : PymongoClient) (m : WorkerMemory) :
    WorkerMemory :=
  let (client, m) := getMongoClient pid new m
  { m with tasks := m.tasks ++ [⟨client, client, if noMongo then none else some client⟩] }

/-- `rebind_mongo_client` of one task, behind those that have been handled. -/
def rebindMongoClient (pid : ℕ) (new : PymongoClient) (m : WorkerMemory) (task : PollerTask) :
    WorkerMemory :=
  let (client, m) := getMongoClient pid new m
  { m with tasks := m.tasks ++ [{ task with mongoClient := client, profilesManager := client }] }

/-- The handler `rebind_mongo_clients`. -/
def rebindMongoClients (pid : ℕ) (new : PymongoClient) (m : WorkerMemory) : WorkerMemory :=
  m.tasks.foldl (rebindMongoClient pid new) { m with tasks := [] }

/-! ### Processes -/

/-- What a process does with its own memory. -/
inductive WorkerOp
  | get
  /-- `close_mongo_client`, as at `worker_process_shutdown`. -/
  | close
  | build (noMongo : Bool)
  /-- `worker_process_init`. -/
  | rebind

structure WorkerProcess where
  pid : ℕ
  alive : Bool
  memory : WorkerMemory

structure ProcessTree where
  processes : List WorkerProcess
  /-- The number of the next client. -/
  made : ℕ
  /-- Which process closed which client. -/
  closed : List (ℕ × PymongoClient)

inductive WorkerAction
  | work (i : ℕ) (op : WorkerOp)
  /-- A fork, with `worker_before_create_process` in front of it or without. -/
  | fork (i : ℕ) (pid : ℕ) (handler : Bool)
  | exit (i : ℕ)

/-- The client that is closed, and the memory after the operation. -/
def WorkerOp.run (pid : ℕ) (new : PymongoClient) (m : WorkerMemory) :
    WorkerOp → Option PymongoClient × WorkerMemory
  | .get => (none, (getMongoClient pid new m).2)
  | .close => closeMongoClient pid m
  | .build noMongo => (none, pollerInit noMongo pid new m)
  | .rebind => (none, rebindMongoClients pid new m)

namespace ProcessTree

/-- The client that the process would make. -/
def newClient (t : ProcessTree) (i : ℕ) : PymongoClient := ⟨i, t.made⟩

/-- The process does something, if it is there. -/
def work (t : ProcessTree) (i : ℕ) (op : WorkerOp) : ProcessTree :=
  match t.processes[i]? with
  | none => t
  | some p =>
    if p.alive then
      { processes :=
          t.processes.set i { p with memory := (op.run p.pid (t.newClient i) p.memory).2 }
        made := t.made + 1
        closed := t.closed ++ (op.run p.pid (t.newClient i) p.memory).1.toList.map (i, ·) }
    else t

/-- The process forks.  The child has a `pid` that no other process has. -/
def fork (t : ProcessTree) (i pid : ℕ) : ProcessTree :=
  match t.processes[i]? with
  | none => t
  | some p =>
    if p.alive ∧ ∀ q ∈ t.processes, q.alive → q.pid ≠ pid then
      { t with processes := t.processes ++ [⟨pid, true, p.memory⟩] }
    else t

def exit (t : ProcessTree) (i : ℕ) : ProcessTree :=
  match t.processes[i]? with
  | none => t
  | some p => { t with processes := t.processes.set i { p with alive := false } }

def step (t : ProcessTree) : WorkerAction → ProcessTree
  | .work i op => t.work i op
  | .fork i pid true => (t.work i .close).fork i pid
  | .fork i pid false => t.fork i pid
  | .exit i => t.exit i

/-- The worker starts. -/
def start (pid : ℕ) : ProcessTree := ⟨[⟨pid, true, ⟨none, none, []⟩⟩], 0, []⟩

/-- The client has been closed. -/
def Closed (t : ProcessTree) (c : PymongoClient) : Prop := c ∈ t.closed.map Prod.snd

end ProcessTree

/-! ### One process -/

/-- The client that the process takes for its own. -/
def WorkerMemory.Current (m : WorkerMemory) (pid : ℕ) (c : PymongoClient) : Prop :=
  m.client = some c ∧ m.clientPid = some pid

/-- The clients that a task holds. -/
def PollerTask.clients (task : PollerTask) : List PymongoClient :=
  task.mongoClient :: task.profilesManager :: task.session.toList

/-- The clients that the memory holds. -/
def WorkerMemory.clients (m : WorkerMemory) : List PymongoClient :=
  m.client.toList ++ m.tasks.flatMap PollerTask.clients

variable {pid : ℕ} {new c : PymongoClient} {m : WorkerMemory}

theorem getMongoClient_of_current (h : m.Current pid c) : getMongoClient pid new m = (c, m) := by
  simp [getMongoClient, h.1, h.2]

theorem getMongoClient_of_not_current (h : ∀ c, ¬ m.Current pid c) :
    getMongoClient pid new m = (new, { m with client := some new, clientPid := some pid }) := by
  unfold getMongoClient
  cases hc : m.client with
  | none => rfl
  | some c => exact if_pos fun hpid => h c ⟨hc, hpid⟩

/-- `get_mongo_client` returns the current client, or the new one. -/
theorem getMongoClient_cases (pid : ℕ) (new : PymongoClient) (m : WorkerMemory) :
    (m.Current pid (getMongoClient pid new m).1 ∨
        (∀ d, ¬ m.Current pid d) ∧ (getMongoClient pid new m).1 = new) ∧
      (getMongoClient pid new m).2.Current pid (getMongoClient pid new m).1 ∧
      (getMongoClient pid new m).2.tasks = m.tasks := by
  by_cases h : ∃ c, m.Current pid c
  · obtain ⟨c, hc⟩ := h
    rw [getMongoClient_of_current hc]
    exact ⟨.inl hc, hc, rfl⟩
  · rw [getMongoClient_of_not_current (not_exists.mp h)]
    exact ⟨.inr ⟨not_exists.mp h, rfl⟩, ⟨rfl, rfl⟩, rfl⟩

/-- A task after `rebind_mongo_client`. -/
def PollerTask.rebound (c : PymongoClient) (task : PollerTask) : PollerTask :=
  { task with mongoClient := c, profilesManager := c }

/-- Once there is a current client every task gets that one. -/
theorem foldl_rebindMongoClient (h : m.Current pid c) (tasks : List PollerTask) :
    tasks.foldl (rebindMongoClient pid new) m =
      { m with tasks := m.tasks ++ tasks.map (PollerTask.rebound c) } := by
  induction tasks generalizing m with
  | nil => simp
  | cons task tasks ih =>
    have hstep : rebindMongoClient pid new m task =
        { m with tasks := m.tasks ++ [task.rebound c] } := by
      simp only [rebindMongoClient, getMongoClient_of_current h, PollerTask.rebound]
    rw [List.foldl_cons, hstep, ih (m := { m with tasks := m.tasks ++ [task.rebound c] }) h]
    simp

/-- **All tasks are given one client**, the one that `get_mongo_client` returns. -/
theorem rebindMongoClients_eq (h : m.tasks ≠ []) :
    rebindMongoClients pid new m =
      { (getMongoClient pid new m).2 with
        tasks := m.tasks.map (PollerTask.rebound (getMongoClient pid new m).1) } := by
  obtain ⟨task, tasks, htasks⟩ := List.exists_cons_of_ne_nil h
  have hget : getMongoClient pid new { m with tasks := [] } =
      ((getMongoClient pid new m).1, { (getMongoClient pid new m).2 with tasks := [] }) := by
    by_cases hc : ∃ c, m.Current pid c
    · obtain ⟨c, hc⟩ := hc
      rw [getMongoClient_of_current hc, getMongoClient_of_current (m := { m with tasks := [] }) hc]
    · have hc := not_exists.mp hc
      rw [getMongoClient_of_not_current hc,
        getMongoClient_of_not_current (m := { m with tasks := [] }) hc]
  have hfirst : rebindMongoClient pid new { m with tasks := [] } task =
      { (getMongoClient pid new m).2 with
        tasks := [task.rebound (getMongoClient pid new m).1] } := by
    simp only [rebindMongoClient, hget, PollerTask.rebound, List.nil_append]
  have hcurrent := (getMongoClient_cases pid new m).2.1
  rw [rebindMongoClients, htasks, List.foldl_cons, hfirst, foldl_rebindMongoClient
    (m := { (getMongoClient pid new m).2 with
      tasks := [task.rebound (getMongoClient pid new m).1] }) hcurrent]
  simp

theorem pollerInit_eq (noMongo : Bool) (pid : ℕ) (new : PymongoClient) (m : WorkerMemory) :
    pollerInit noMongo pid new m =
      { (getMongoClient pid new m).2 with
        tasks := m.tasks ++ [⟨(getMongoClient pid new m).1, (getMongoClient pid new m).1,
          if noMongo then none else some (getMongoClient pid new m).1⟩] } := by
  simp only [pollerInit, (getMongoClient_cases pid new m).2.2]

/-- **What a process can do to its memory.**  It leaves it as it is, it has a current client
which its tasks may hold, or it has let its client go. -/
theorem WorkerOp.run_cases (pid : ℕ) (new : PymongoClient) (m : WorkerMemory) (op : WorkerOp) :
    op.run pid new m = (none, m) ∨
    (∃ c m', op.run pid new m = (none, m') ∧ op ≠ .close ∧
      (m.Current pid c ∨ (∀ d, ¬ m.Current pid d) ∧ c = new) ∧ m'.Current pid c ∧
      (∀ task ∈ m'.tasks, ∀ d ∈ task.clients, d = c ∨ ∃ old ∈ m.tasks, d ∈ old.clients) ∧
      ∀ task ∈ m'.tasks, task ∈ m.tasks ∨
        task.mongoClient = c ∧ task.profilesManager = c) ∨
    (op = .close ∧ op.run pid new m = closeMongoClient pid m) := by
  obtain ⟨hold, hcurrent, htasks⟩ := getMongoClient_cases pid new m
  cases op with
  | get =>
    refine .inr (.inl ⟨_, _, rfl, (by rintro ⟨⟩), hold, hcurrent, ?_, ?_⟩)
    · exact fun task htask d hd => .inr ⟨task, htasks ▸ htask, hd⟩
    · exact fun task htask => .inl (htasks ▸ htask)
  | close => exact .inr (.inr ⟨rfl, rfl⟩)
  | build noMongo =>
    refine .inr (.inl ⟨_, _, congrArg (Prod.mk none) (pollerInit_eq noMongo pid new m),
      (by rintro ⟨⟩), hold, hcurrent, ?_, ?_⟩)
    · intro task htask d hd
      rcases List.mem_append.mp htask with htask | htask
      · exact .inr ⟨task, htask, hd⟩
      · rw [List.mem_singleton.mp htask] at hd
        refine .inl ?_
        cases noMongo <;> simpa [PollerTask.clients] using hd
    · intro task htask
      rcases List.mem_append.mp htask with htask | htask
      · exact .inl htask
      · rw [List.mem_singleton.mp htask]
        exact .inr ⟨rfl, rfl⟩
  | rebind =>
    by_cases hnil : m.tasks = []
    · refine .inl ?_
      cases m
      simp only at hnil
      simp [WorkerOp.run, rebindMongoClients, hnil]
    · refine .inr (.inl ⟨_, _, congrArg (Prod.mk none) (rebindMongoClients_eq hnil),
        (by rintro ⟨⟩), hold, hcurrent, ?_, ?_⟩)
      · intro task htask d hd
        obtain ⟨old, hmem, rfl⟩ := List.mem_map.mp htask
        simp only [PollerTask.clients, PollerTask.rebound, List.mem_cons] at hd
        rcases hd with rfl | rfl | hd
        · exact .inl rfl
        · exact .inl rfl
        · exact .inr ⟨old, hmem, List.mem_cons_of_mem _ (List.mem_cons_of_mem _ hd)⟩
      · intro task htask
        obtain ⟨old, -, rfl⟩ := List.mem_map.mp htask
        exact .inr ⟨rfl, rfl⟩

/-! ### All processes -/

namespace ProcessTree

variable {t : ProcessTree} {i : ℕ} {p : WorkerProcess}

/-- An operation does nothing, or it is that of a process that is there. -/
theorem work_cases (t : ProcessTree) (i : ℕ) (op : WorkerOp) :
    t.work i op = t ∨ ∃ p, t.processes[i]? = some p ∧ p.alive ∧ t.work i op =
      { processes :=
          t.processes.set i { p with memory := (op.run p.pid (t.newClient i) p.memory).2 }
        made := t.made + 1
        closed := t.closed ++ (op.run p.pid (t.newClient i) p.memory).1.toList.map (i, ·) } := by
  unfold work
  split
  · exact .inl rfl
  · next p hp =>
    split
    · next halive => exact .inr ⟨p, hp, halive, rfl⟩
    · exact .inl rfl

theorem fork_cases (t : ProcessTree) (i pid : ℕ) :
    t.fork i pid = t ∨ ∃ p, t.processes[i]? = some p ∧ p.alive ∧
      t.fork i pid = { t with processes := t.processes ++ [⟨pid, true, p.memory⟩] } := by
  unfold fork
  split
  · exact .inl rfl
  · next p hp =>
    split
    · next h => exact .inr ⟨p, hp, h.1, rfl⟩
    · exact .inl rfl

theorem exit_cases (t : ProcessTree) (i : ℕ) :
    t.exit i = t ∨ ∃ p, t.processes[i]? = some p ∧
      t.exit i = { t with processes := t.processes.set i { p with alive := false } } := by
  unfold exit
  split
  · exact .inl rfl
  · next p hp => exact .inr ⟨p, hp, rfl⟩

theorem getElem?_set_cases {ps : List WorkerProcess} {q r : WorkerProcess} {i j : ℕ}
    (h : (ps.set i q)[j]? = some r) : j = i ∧ r = q ∨ j ≠ i ∧ ps[j]? = some r := by
  rw [List.getElem?_set] at h
  split at h
  · next hij =>
    split at h
    · exact .inl ⟨hij.symm, (Option.some.inj h).symm⟩
    · cases h
  · next hij => exact .inr ⟨Ne.symm hij, h⟩

theorem mem_pids_set {ps : List WorkerProcess} {p q : WorkerProcess} {i : ℕ}
    {pid : ℕ} (hp : ps[i]? = some p) (hq : q.pid = p.pid)
    (h : pid ∈ ps.map WorkerProcess.pid) : pid ∈ (ps.set i q).map WorkerProcess.pid := by
  obtain ⟨hi, rfl⟩ := List.getElem?_eq_some_iff.mp hp
  have hlen : i < (ps.map WorkerProcess.pid).length := by simpa using hi
  have hpid : ps[i].pid = (ps.map WorkerProcess.pid)[i] := (List.getElem_map _).symm
  rwa [List.map_set, hq, hpid, List.set_getElem_self]

theorem getElem?_append_cases {ps : List WorkerProcess} {q r : WorkerProcess} {j : ℕ}
    (h : (ps ++ [q])[j]? = some r) : ps[j]? = some r ∨ j = ps.length ∧ r = q := by
  rw [List.getElem?_append] at h
  split at h
  · exact .inl h
  · next hj =>
    obtain ⟨hlt, hr⟩ := List.getElem?_eq_some_iff.mp h
    have hj : j = ps.length := by simp at hlt; omega
    subst hj
    exact .inr ⟨rfl, by simpa using hr.symm⟩

/-- Clients belong to the processes that made them. -/
structure Own (t : ProcessTree) : Prop where
  current : ∀ i p, t.processes[i]? = some p → ∀ c, p.memory.Current p.pid c →
    c.maker = i ∧ c.serial < t.made ∧ ¬ t.Closed c
  recorded : ∀ p ∈ t.processes, ∀ pid, p.memory.clientPid = some pid →
    pid ∈ t.processes.map WorkerProcess.pid
  closed : ∀ e ∈ t.closed, e.2.maker = e.1 ∧ e.2.serial < t.made
  nodup : (t.closed.map Prod.snd).Nodup

theorem own_start (pid : ℕ) : Own (start pid) where
  current i p hp c hc := by
    have hp : p = ⟨pid, true, ⟨none, none, []⟩⟩ := by
      have hmem := List.mem_of_getElem? hp
      simpa [start] using hmem
    subst hp
    cases hc.1
  recorded p hp q hq := by
    have hp : p = ⟨pid, true, ⟨none, none, []⟩⟩ := by simpa [start] using hp
    subst hp
    cases hq
  closed e he := by cases he
  nodup := List.nodup_nil

/-- A client that is still to be made has not been closed. -/
theorem Own.not_closed_newClient (h : Own t) (i : ℕ) : ¬ t.Closed (t.newClient i) := by
  intro hclosed
  obtain ⟨e, he, heq⟩ := List.mem_map.mp hclosed
  have hlt := (h.closed e he).2
  rw [heq] at hlt
  exact Nat.lt_irrefl _ hlt

/-- An operation other than `close_mongo_client` closes nothing. -/
theorem Own.work_open {m' : WorkerMemory} (h : Own t) (hp : t.processes[i]? = some p)
    (hnew : ∀ c, m'.Current p.pid c → p.memory.Current p.pid c ∨ c = t.newClient i)
    (hpid : ∀ pid, m'.clientPid = some pid → p.memory.clientPid = some pid ∨ pid = p.pid) :
    Own { processes := t.processes.set i { p with memory := m' }
          made := t.made + 1, closed := t.closed } where
  current j q hq c hc := by
    rcases getElem?_set_cases hq with ⟨rfl, rfl⟩ | ⟨-, hq⟩
    · rcases hnew c hc with hc | rfl
      · obtain ⟨hmaker, hserial, hclosed⟩ := h.current j p hp c hc
        exact ⟨hmaker, Nat.lt_succ_of_lt hserial, hclosed⟩
      · exact ⟨rfl, Nat.lt_succ_self _, h.not_closed_newClient j⟩
    · obtain ⟨hmaker, hserial, hclosed⟩ := h.current j q hq c hc
      exact ⟨hmaker, Nat.lt_succ_of_lt hserial, hclosed⟩
  recorded q hq pid hr := by
    refine mem_pids_set hp rfl ?_
    rcases List.mem_or_eq_of_mem_set hq with hq | rfl
    · exact h.recorded q hq pid hr
    · rcases hpid pid hr with hr | rfl
      · exact h.recorded p (List.mem_of_getElem? hp) pid hr
      · exact List.mem_map_of_mem (List.mem_of_getElem? hp)
  closed e he := ⟨(h.closed e he).1, Nat.lt_succ_of_lt (h.closed e he).2⟩
  nodup := h.nodup

/-- `close_mongo_client` closes the client of its own process, once. -/
theorem Own.work_close (h : Own t) (hp : t.processes[i]? = some p) :
    Own { processes := t.processes.set i { p with memory := (closeMongoClient p.pid p.memory).2 }
          made := t.made + 1
          closed := t.closed ++
            (closeMongoClient p.pid p.memory).1.toList.map (i, ·) } := by
  have hcloses : ∀ c ∈ (closeMongoClient p.pid p.memory).1.toList,
      p.memory.Current p.pid c := by
    intro c hc
    simp only [closeMongoClient] at hc
    split at hc
    · next hpid => exact ⟨Option.mem_toList.mp hc, hpid⟩
    · simp at hc
  constructor
  · intro j q hq c hc
    rcases getElem?_set_cases hq with ⟨rfl, rfl⟩ | ⟨hji, hq⟩
    · cases hc.1
    · obtain ⟨hmaker, hserial, hclosed⟩ := h.current j q hq c hc
      refine ⟨hmaker, Nat.lt_succ_of_lt hserial, ?_⟩
      intro hmem
      simp only [Closed, List.map_append, List.mem_append, List.map_map] at hmem
      rcases hmem with hmem | hmem
      · exact hclosed hmem
      · obtain ⟨d, hd, rfl⟩ := List.mem_map.mp hmem
        exact hji (hmaker.symm.trans (h.current i p hp d (hcloses d hd)).1)
  · intro q hq pid hr
    refine mem_pids_set hp rfl ?_
    rcases List.mem_or_eq_of_mem_set hq with hq | rfl
    · exact h.recorded q hq pid hr
    · cases hr
  · intro e he
    rcases List.mem_append.mp he with he | he
    · exact ⟨(h.closed e he).1, Nat.lt_succ_of_lt (h.closed e he).2⟩
    · obtain ⟨d, hd, rfl⟩ := List.mem_map.mp he
      obtain ⟨hmaker, hserial, -⟩ := h.current i p hp d (hcloses d hd)
      exact ⟨hmaker, Nat.lt_succ_of_lt hserial⟩
  · rw [List.map_append, List.nodup_append]
    refine ⟨h.nodup, ?_, ?_⟩
    · rw [List.map_map]
      cases (closeMongoClient p.pid p.memory).1 <;> simp
    · intro c hc d hd
      rw [List.map_map] at hd
      obtain ⟨d, hd', rfl⟩ := List.mem_map.mp hd
      rintro rfl
      exact (h.current i p hp _ (hcloses _ hd')).2.2 hc

theorem Own.work (h : Own t) (i : ℕ) (op : WorkerOp) : Own (t.work i op) := by
  rcases work_cases t i op with heq | ⟨p, hp, -, heq⟩
  · rwa [heq]
  · rw [heq]
    rcases op.run_cases p.pid (t.newClient i) p.memory with
      hrun | ⟨c, m', hrun, -, hold, hcurrent, -⟩ | ⟨-, hrun⟩
    · rw [hrun, Option.toList_none, List.map_nil, List.append_nil]
      exact h.work_open hp (fun c hc => .inl hc) fun pid hr => .inl hr
    · rw [hrun, Option.toList_none, List.map_nil, List.append_nil]
      refine h.work_open hp (fun d hd => ?_) fun pid hr => .inr ?_
      · have hd : d = c := Option.some.inj (hd.1.symm.trans hcurrent.1)
        exact hd ▸ hold.imp_right And.right
      · exact Option.some.inj (hr.symm.trans hcurrent.2)
    · rw [hrun]
      exact h.work_close hp

/-- A child takes nothing for its own of what it inherits, unless it has the `pid` recorded
there. -/
theorem Own.fork (h : Own t) {pid : ℕ}
    (hfresh : ∀ p, t.processes[i]? = some p → p.alive → p.memory.clientPid ≠ some pid) :
    Own (t.fork i pid) := by
  rcases fork_cases t i pid with heq | ⟨p, hp, halive, heq⟩
  · rwa [heq]
  · rw [heq]
    refine ⟨?_, ?_, h.closed, h.nodup⟩
    · intro j q hq c hc
      rcases getElem?_append_cases hq with hq | ⟨-, rfl⟩
      · exact h.current j q hq c hc
      · exact absurd hc.2 (hfresh p hp halive)
    · intro q hq r hr
      rw [List.map_append]
      refine List.mem_append_left _ ?_
      rcases List.mem_append.mp hq with hq | hq
      · exact h.recorded q hq r hr
      · rw [List.mem_singleton.mp hq] at hr
        exact h.recorded p (List.mem_of_getElem? hp) r hr

theorem Own.exit (h : Own t) (i : ℕ) : Own (t.exit i) := by
  rcases exit_cases t i with heq | ⟨p, hp, heq⟩
  · rwa [heq]
  · rw [heq]
    refine ⟨?_, ?_, h.closed, h.nodup⟩
    · intro j q hq c hc
      rcases getElem?_set_cases hq with ⟨rfl, rfl⟩ | ⟨-, hq⟩
      · exact h.current j p hp c hc
      · exact h.current j q hq c hc
    · intro q hq r hr
      refine mem_pids_set hp rfl ?_
      rcases List.mem_or_eq_of_mem_set hq with hq | rfl
      · exact h.recorded q hq r hr
      · exact h.recorded p (List.mem_of_getElem? hp) r hr

/-- After `close_mongo_client` a process that is there has no client. -/
theorem memory_work_close {q : WorkerProcess} (hq : (t.work i .close).processes[i]? = some q)
    (halive : q.alive) : q.memory.client = none ∧ q.memory.clientPid = none := by
  unfold work at hq
  split at hq
  · next hnone => rw [hnone] at hq; cases hq
  · next p hp =>
    split at hq
    · rcases getElem?_set_cases hq with ⟨-, rfl⟩ | ⟨hne, -⟩
      · exact ⟨rfl, rfl⟩
      · exact absurd rfl hne
    · next hdead =>
      rw [hp] at hq
      cases hq
      exact absurd halive hdead

/-- A fork without the handler gives the child a `pid` that no process had before. -/
def FreshFork (t : ProcessTree) : WorkerAction → Prop
  | .fork _ pid false => pid ∉ t.processes.map WorkerProcess.pid
  | _ => True

theorem Own.step (h : Own t) (a : WorkerAction) (hfresh : FreshFork t a) : Own (t.step a) := by
  cases a with
  | work i op => exact h.work i op
  | exit i => exact h.exit i
  | fork i pid handler =>
    cases handler with
    | true =>
      refine (h.work i .close).fork fun q hq halive => ?_
      rw [(memory_work_close hq halive).2]
      exact Option.some_ne_none _ |>.symm
    | false =>
      refine h.fork fun p hp _ hpid => ?_
      exact hfresh (h.recorded p (List.mem_of_getElem? hp) pid hpid)

theorem own_final {pid : ℕ} {as : List WorkerAction}
    (h : Run.Along ProcessTree.step FreshFork (start pid) as) :
    Own (Run.final ProcessTree.step (start pid) as) :=
  Run.final_of_along (fun _ a hs ha => hs.step a ha) (own_start pid) h

/-- What `get_mongo_client` returns is the client of the process, made by it and not closed. -/
theorem Own.getMongoClient (h : Own t) (hp : t.processes[i]? = some p) :
    (getMongoClient p.pid (t.newClient i) p.memory).1.maker = i ∧
      ¬ t.Closed (getMongoClient p.pid (t.newClient i) p.memory).1 := by
  rcases (getMongoClient_cases p.pid (t.newClient i) p.memory).1 with hc | hc
  · exact ⟨(h.current i p hp _ hc).1, (h.current i p hp _ hc).2.2⟩
  · rw [hc.2]
    exact ⟨rfl, h.not_closed_newClient i⟩

/-! ### With the handlers -/

/-- Every fork comes with the handler. -/
def Handled : WorkerAction → Prop
  | .fork _ _ handler => handler = true
  | _ => True

theorem Handled.freshFork {a : WorkerAction} (h : Handled a) (t : ProcessTree) : FreshFork t a := by
  cases a with
  | fork i pid handler =>
    cases handler with
    | true => trivial
    | false => cases h
  | _ => trivial

/-- What a process holds is its current client, or closed. -/
structure Separate (t : ProcessTree) : Prop where
  current : ∀ p ∈ t.processes, ∀ c, p.memory.client = some c → p.memory.Current p.pid c
  held : ∀ p ∈ t.processes, ∀ c ∈ p.memory.clients, p.memory.Current p.pid c ∨ t.Closed c

theorem separate_start (pid : ℕ) : Separate (start pid) where
  current p hp c hc := by
    have hp : p = ⟨pid, true, ⟨none, none, []⟩⟩ := by simpa [start] using hp
    subst hp
    cases hc
  held p hp c hc := by
    have hp : p = ⟨pid, true, ⟨none, none, []⟩⟩ := by simpa [start] using hp
    subst hp
    cases hc

/-- The clients of a memory: that of the process, and those of its tasks. -/
theorem mem_clients {m : WorkerMemory} {c : PymongoClient} :
    c ∈ m.clients ↔ m.client = some c ∨ ∃ task ∈ m.tasks, c ∈ task.clients := by
  simp [WorkerMemory.clients]

/-- The clients that an operation leaves in the memory are current or closed. -/
theorem Separate.work_held (h : Separate t) (hp : t.processes[i]? = some p) (op : WorkerOp) :
    (∀ c, (op.run p.pid (t.newClient i) p.memory).2.client = some c →
      (op.run p.pid (t.newClient i) p.memory).2.Current p.pid c) ∧
    ∀ c ∈ (op.run p.pid (t.newClient i) p.memory).2.clients,
      (op.run p.pid (t.newClient i) p.memory).2.Current p.pid c ∨
        t.Closed c ∨ (op.run p.pid (t.newClient i) p.memory).1 = some c := by
  have hmem := List.mem_of_getElem? hp
  rcases op.run_cases p.pid (t.newClient i) p.memory with
    hrun | ⟨c, m', hrun, -, hold, hcurrent, hclients, -⟩ | ⟨-, hrun⟩
  · rw [hrun]
    exact ⟨h.current p hmem, fun c hc => (h.held p hmem c hc).imp_right .inl⟩
  · rw [hrun]
    refine ⟨fun d hd => ⟨hd, hcurrent.2⟩, fun d hd => ?_⟩
    rcases mem_clients.mp hd with hd | ⟨task, htask, hd⟩
    · exact .inl ⟨hd, hcurrent.2⟩
    · rcases hclients task htask d hd with rfl | ⟨old, hold', hd⟩
      · exact .inl hcurrent
      · rcases h.held p hmem d (mem_clients.mpr (.inr ⟨old, hold', hd⟩)) with hd | hd
        · rcases hold with hc | ⟨hnone, -⟩
          · have hdc : d = c := Option.some.inj (hd.1.symm.trans hc.1)
            exact .inl (hdc ▸ hcurrent)
          · exact absurd hd (hnone d)
        · exact .inr (.inl hd)
  · rw [hrun]
    refine ⟨fun c hc => (by cases hc), fun c hc => Or.inr ?_⟩
    obtain ⟨task, htask, hc⟩ := (mem_clients.mp hc).resolve_left (by rintro ⟨⟩)
    rcases h.held p hmem c (mem_clients.mpr (.inr ⟨task, htask, hc⟩)) with hc | hc
    · refine .inr ?_
      rw [closeMongoClient, if_pos hc.2]
      exact hc.1
    · exact .inl hc

theorem Separate.work (h : Separate t) (i : ℕ) (op : WorkerOp) : Separate (t.work i op) := by
  rcases work_cases t i op with heq | ⟨p, hp, -, heq⟩
  · rwa [heq]
  · rw [heq]
    obtain ⟨hcurrent, hheld⟩ := h.work_held hp op
    constructor
    · intro q hq c hc
      rcases List.mem_or_eq_of_mem_set hq with hq | rfl
      · exact h.current q hq c hc
      · exact hcurrent c hc
    · intro q hq c hc
      simp only [Closed, List.map_append, List.mem_append, List.map_map]
      rcases List.mem_or_eq_of_mem_set hq with hq | rfl
      · exact (h.held q hq c hc).imp_right .inl
      · rcases hheld c hc with hc | hc | hc
        · exact .inl hc
        · exact .inr (.inl hc)
        · refine .inr (.inr (List.mem_map.mpr ⟨c, ?_, rfl⟩))
          rw [hc]
          exact Option.mem_toList.mpr rfl

/-- A child inherits nothing open from a process without a client. -/
theorem Separate.fork (h : Separate t) {pid : ℕ}
    (hnone : ∀ p, t.processes[i]? = some p → p.alive → p.memory.client = none) :
    Separate (t.fork i pid) := by
  rcases fork_cases t i pid with heq | ⟨p, hp, halive, heq⟩
  · rwa [heq]
  · rw [heq]
    have hclient := hnone p hp halive
    constructor
    · intro q hq c hc
      rcases List.mem_append.mp hq with hq | hq
      · exact h.current q hq c hc
      · rw [List.mem_singleton.mp hq, hclient] at hc
        cases hc
    · intro q hq c hc
      rcases List.mem_append.mp hq with hq | hq
      · exact h.held q hq c hc
      · rw [List.mem_singleton.mp hq] at hc
        rcases h.held p (List.mem_of_getElem? hp) c hc with hc | hc
        · cases hclient.symm.trans hc.1
        · exact .inr hc

theorem Separate.exit (h : Separate t) (i : ℕ) : Separate (t.exit i) := by
  rcases exit_cases t i with heq | ⟨p, hp, heq⟩
  · rwa [heq]
  · rw [heq]
    constructor
    · intro q hq c hc
      rcases List.mem_or_eq_of_mem_set hq with hq | rfl
      · exact h.current q hq c hc
      · exact h.current p (List.mem_of_getElem? hp) c hc
    · intro q hq c hc
      rcases List.mem_or_eq_of_mem_set hq with hq | rfl
      · exact h.held q hq c hc
      · exact h.held p (List.mem_of_getElem? hp) c hc

theorem Separate.step (h : Separate t) {a : WorkerAction} (ha : Handled a) :
    Separate (t.step a) := by
  cases a with
  | work i op => exact h.work i op
  | exit i => exact h.exit i
  | fork i pid handler =>
    cases handler with
    | true => exact (h.work i .close).fork fun q hq halive => (memory_work_close hq halive).1
    | false => cases ha

/-! ### Tasks -/

/-- The tasks of a process have its client. -/
def TasksBound (p : WorkerProcess) : Prop :=
  p.memory.tasks = [] ∨ ∃ c, p.memory.Current p.pid c ∧
    ∀ task ∈ p.memory.tasks, task.mongoClient = c ∧ task.profilesManager = c

/-- The action neither closes the client of the process nor is its end. -/
def Spares (i : ℕ) : WorkerAction → Prop
  | .work j op => j = i → op ≠ .close
  | .fork j _ handler => j = i → handler = false
  | .exit j => j ≠ i

/-- The process is there, and its tasks have its client. -/
def BoundAt (i : ℕ) (t : ProcessTree) : Prop :=
  ∃ p, t.processes[i]? = some p ∧ p.alive ∧ TasksBound p

theorem tasksBound_rebind (new : PymongoClient) (p : WorkerProcess) :
    TasksBound { p with memory := rebindMongoClients p.pid new p.memory } := by
  by_cases hnil : p.memory.tasks = []
  · exact .inl (by simp [rebindMongoClients, hnil])
  · rw [rebindMongoClients_eq hnil]
    refine .inr ⟨_, (getMongoClient_cases p.pid new p.memory).2.1, fun task htask => ?_⟩
    obtain ⟨old, -, rfl⟩ := List.mem_map.mp htask
    exact ⟨rfl, rfl⟩

/-- What else a process does with its memory keeps its tasks bound. -/
theorem TasksBound.run (h : TasksBound p) {op : WorkerOp} (hop : op ≠ .close)
    (new : PymongoClient) : TasksBound { p with memory := (op.run p.pid new p.memory).2 } := by
  rcases op.run_cases p.pid new p.memory with
    hrun | ⟨c, m', hrun, -, hold, hcurrent, -, htasks⟩ | ⟨hclose, -⟩
  · rwa [hrun]
  · rw [hrun]
    refine .inr ⟨c, hcurrent, fun task htask => ?_⟩
    rcases htasks task htask with htask | hbound
    · rcases h with hnil | ⟨d, hd, hbound⟩
      · rw [hnil] at htask
        cases htask
      · rcases hold with hc | ⟨hnone, -⟩
        · have hdc : d = c := Option.some.inj (hd.1.symm.trans hc.1)
          exact hdc ▸ hbound task htask
        · exact absurd hd (hnone d)
    · exact hbound
  · exact absurd hclose hop

theorem BoundAt.work (h : BoundAt i t) {j : ℕ} {op : WorkerOp} (hop : j = i → op ≠ .close) :
    BoundAt i (t.work j op) := by
  obtain ⟨p, hp, halive, hbound⟩ := h
  rcases work_cases t j op with heq | ⟨q, hq, -, heq⟩
  · rw [heq]
    exact ⟨p, hp, halive, hbound⟩
  · rw [heq]
    by_cases hji : j = i
    · subst hji
      obtain rfl : p = q := Option.some.inj (hp.symm.trans hq)
      refine ⟨_, List.getElem?_set_self (List.getElem?_eq_some_iff.mp hp).1, halive, ?_⟩
      exact hbound.run (hop rfl) _
    · exact ⟨p, (List.getElem?_set_ne hji).trans hp, halive, hbound⟩

theorem BoundAt.fork (h : BoundAt i t) (j pid : ℕ) : BoundAt i (t.fork j pid) := by
  obtain ⟨p, hp, halive, hbound⟩ := h
  rcases fork_cases t j pid with heq | ⟨q, -, -, heq⟩
  · rw [heq]
    exact ⟨p, hp, halive, hbound⟩
  · rw [heq]
    refine ⟨p, ?_, halive, hbound⟩
    exact (List.getElem?_append_left (List.getElem?_eq_some_iff.mp hp).1).trans hp

theorem BoundAt.exit (h : BoundAt i t) {j : ℕ} (hj : j ≠ i) : BoundAt i (t.exit j) := by
  obtain ⟨p, hp, halive, hbound⟩ := h
  rcases exit_cases t j with heq | ⟨q, -, heq⟩
  · rw [heq]
    exact ⟨p, hp, halive, hbound⟩
  · rw [heq]
    exact ⟨p, (List.getElem?_set_ne hj).trans hp, halive, hbound⟩

theorem BoundAt.step (h : BoundAt i t) {a : WorkerAction} (ha : Spares i a) :
    BoundAt i (t.step a) := by
  cases a with
  | work j op => exact h.work ha
  | exit j => exact h.exit ha
  | fork j pid handler =>
    cases handler with
    | true => exact (h.work fun hji => absurd (ha hji) Bool.noConfusion).fork j pid
    | false => exact h.fork j pid

/-- `worker_process_init` in a process that is there. -/
theorem boundAt_rebind (hp : t.processes[i]? = some p) (halive : p.alive) :
    BoundAt i (t.step (.work i .rebind)) := by
  refine ⟨{ p with memory := rebindMongoClients p.pid (t.newClient i) p.memory }, ?_, halive,
    tasksBound_rebind _ p⟩
  simp only [ProcessTree.step, ProcessTree.work, hp, halive, if_true]
  exact List.getElem?_set_self (List.getElem?_eq_some_iff.mp hp).1

end ProcessTree

open ProcessTree

/-! ### Main results -/

/-- **A process gets a client of its own, which nobody closed**, whatever has been forked,
closed and built before, and each client is closed at most once, by its own process.  A fork
without the handler has to give the child a `pid` that is new. -/
theorem getMongoClient_own {pid : ℕ} {as : List WorkerAction}
    (h : Run.Along ProcessTree.step FreshFork (start pid) as) :
    let t := Run.final ProcessTree.step (start pid) as
    (∀ i p, t.processes[i]? = some p →
      (getMongoClient p.pid (t.newClient i) p.memory).1.maker = i ∧
      ¬ t.Closed (getMongoClient p.pid (t.newClient i) p.memory).1) ∧
    (∀ e ∈ t.closed, e.2.maker = e.1) ∧ (t.closed.map Prod.snd).Nodup := by
  intro t
  have hown : Own t := own_final h
  exact ⟨fun i p hp => hown.getMongoClient hp, fun e he => (hown.closed e he).1, hown.nodup⟩

-- Without the handler and with a `pid` given again, a process uses the client of another one.
example :
    let t := Run.final ProcessTree.step (start 10)
      [.work 0 .get, .fork 0 11 false, .exit 0, .fork 1 10 false]
    t.processes[2]?.map (fun p => (getMongoClient p.pid (t.newClient 2) p.memory).1.maker) =
      some 0 := by decide

/-- A worker that builds a task, forks without the handler under a new `pid`, and ends. -/
theorem getMongoClient_own_child :
    let as : List WorkerAction := [.work 0 (.build false), .fork 0 11 false, .exit 0]
    let t := Run.final ProcessTree.step (start 10) as
    Run.Along ProcessTree.step FreshFork (start 10) as ∧
      ∃ p, t.processes[1]? = some p ∧ p.memory.client = some ⟨0, 0⟩ ∧
        (getMongoClient p.pid (t.newClient 1) p.memory).1.maker = 1 := by
  have h : Run.Along ProcessTree.step FreshFork (start 10)
      [.work 0 (.build false), .fork 0 11 false, .exit 0] :=
    ⟨trivial, by change 11 ∉ [10]; decide, trivial, trivial⟩
  exact ⟨h, _, rfl, rfl, ((getMongoClient_own h).1 1 _ rfl).1⟩

/-- **No open client is in the memory of two processes**, when every fork comes with the
handler; a `pid` may be given again. -/
theorem inherited_client_closed {pid : ℕ} {as : List WorkerAction} (h : ∀ a ∈ as, Handled a)
    {i j : ℕ} {p q : WorkerProcess} {c : PymongoClient} (hij : i ≠ j)
    (hp : (Run.final ProcessTree.step (start pid) as).processes[i]? = some p)
    (hq : (Run.final ProcessTree.step (start pid) as).processes[j]? = some q)
    (hcp : c ∈ p.memory.clients) (hcq : c ∈ q.memory.clients) :
    (Run.final ProcessTree.step (start pid) as).Closed c := by
  have hown : Own (Run.final ProcessTree.step (start pid) as) :=
    Run.final_of_steps (own_start pid) fun a ha t ht => ht.step a ((h a ha).freshFork t)
  have hseparate : Separate (Run.final ProcessTree.step (start pid) as) :=
    Run.final_of_steps (separate_start pid) fun a ha t ht => ht.step (h a ha)
  rcases hseparate.held p (List.mem_of_getElem? hp) c hcp with hcp | hcp
  · rcases hseparate.held q (List.mem_of_getElem? hq) c hcq with hcq | hcq
    · have hi := (hown.current i p hp c hcp).1
      exact absurd (hi.symm.trans (hown.current j q hq c hcq).1) hij
    · exact hcq
  · exact hcp

/-- The task of a parent has a client that is closed once the child is there. -/
theorem inherited_client_closed_task :
    (Run.final ProcessTree.step (start 10) [.work 0 (.build false), .fork 0 11 true]).Closed
      ⟨0, 0⟩ :=
  inherited_client_closed (i := 0) (j := 1) (by simp [Handled]) (by decide) rfl rfl
    (by decide) (by decide)

/-- **From `worker_process_init` on every task has the client of its process**, until the
process closes it: the one that `get_mongo_client` returns, its own and open. -/
theorem rebound_tasks_own {pid i : ℕ} {before after : List WorkerAction} {p : WorkerProcess}
    (hp : (Run.final ProcessTree.step (start pid) before).processes[i]? = some p)
    (halive : p.alive) (hspares : ∀ a ∈ after, Spares i a)
    (h : Run.Along ProcessTree.step FreshFork (start pid) (before ++ .work i .rebind :: after)) :
    let t := Run.final ProcessTree.step (start pid) (before ++ .work i .rebind :: after)
    ∃ q, t.processes[i]? = some q ∧ ∀ task ∈ q.memory.tasks, ∃ c,
      (getMongoClient q.pid (t.newClient i) q.memory).1 = c ∧ c.maker = i ∧ ¬ t.Closed c ∧
      task.mongoClient = c ∧ task.profilesManager = c := by
  intro t
  have hbound : BoundAt i t := by
    have hfinal : t = Run.final ProcessTree.step
        ((Run.final ProcessTree.step (start pid) before).step (.work i .rebind)) after :=
      Run.final_append
    rw [hfinal]
    exact Run.final_of_steps (boundAt_rebind hp halive) fun a ha t ht => ht.step (hspares a ha)
  have hown : Own t := own_final h
  obtain ⟨q, hq, -, hbound⟩ := hbound
  refine ⟨q, hq, fun task htask => ?_⟩
  rcases hbound with hnil | ⟨c, hc, hbound⟩
  · rw [hnil] at htask
    cases htask
  · have hget := hown.getMongoClient hq
    rw [getMongoClient_of_current hc] at hget ⊢
    exact ⟨c, rfl, hget.1, hget.2, hbound task htask⟩

/-- A grandchild that is given the `pid` of the process which built its tasks. -/
theorem rebound_tasks_own_grandchild :
    ∃ q, (Run.final ProcessTree.step (start 10) ([.work 0 (.build false), .fork 0 11 true, .exit 0,
        .fork 1 10 true] ++ .work 2 .rebind :: [.work 2 (.build true)])).processes[2]? = some q ∧
      q.pid = 10 ∧ ∀ task ∈ q.memory.tasks, task.mongoClient.maker = 2 := by
  have hp : ∃ p, (Run.final ProcessTree.step (start 10) [.work 0 (.build false), .fork 0 11 true,
      .exit 0, .fork 1 10 true]).processes[2]? = some p ∧ p.alive := ⟨_, rfl, rfl⟩
  obtain ⟨p, hp, halive⟩ := hp
  have hspares : ∀ a ∈ [WorkerAction.work 2 (.build true)], Spares 2 a := by simp [Spares]
  obtain ⟨q, hq, h⟩ := rebound_tasks_own hp halive hspares
    ⟨trivial, trivial, trivial, trivial, trivial, trivial, trivial⟩
  refine ⟨q, hq, ?_, fun task htask => ?_⟩
  · cases hq
    rfl
  · obtain ⟨c, -, hmaker, -, hc, -⟩ := h task htask
    rw [hc, hmaker]

end Sc4snmp
