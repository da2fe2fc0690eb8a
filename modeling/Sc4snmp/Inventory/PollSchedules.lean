import Sc4snmp.CustomTaskManager

/-!
# Poll schedules of a host

The end of `inventory_setup_poller` (`inventory/tasks.py`): once the profiles of
a host are assigned to frequencies, one poll is scheduled for each frequency and
the polls the host no longer needs are deleted.  Which entries are looked at for
deletion is decided by a pattern, `*<target>;*`, that is not anchored on the left:
it also selects the schedules of a host whose address ends with this one.

## Main definitions

* `generatePollTaskDefinition`, `schedulePolls`, `reconcilePolls` — the end of the task.
* `PollsReconciled` — one poll for each frequency, everything of other hosts unchanged.
* `Reconcilable` — the stores the task does reconcile.

## Main results

* `lookup?_reconcilePolls` — what the task leaves under each key.
* `reconcilePolls_iff` — **the task reconciles exactly the reconcilable stores**.
-/

namespace Sc4snmp

/-- The part of a walk's result that `inventory_setup_poller` schedules with. -/
structure PollWork where
  address : String
  group : PyVal
  chainOfTasksExpiryTime : Option ℤ

/-- The profiles assigned to each frequency. -/
abbrev AssignedProfiles := Dict ℤ (List String)

/-- `generate_poll_task_definition`.  The source lists a `set` of the profiles,
whose order is nowhere relied on. -/
def generatePollTaskDefinition (work : PollWork) (period : ℤ) (periodProfiles : List String) :
    TaskData :=
  PollTaskGenerator.generateTaskDefinition
    { target := work.address
      schedulePeriod := period
      group := work.group
      profiles := periodProfiles.dedup
      chainOfTasksExpiryTime := work.chainOfTasksExpiryTime }

/-- The loop over the assigned frequencies. -/
def schedulePolls (work : PollWork) :
    List (ℤ × List String) → ScheduleStore → Except PyError ScheduleStore
  | [], s => .ok s
  | (period, profiles) :: assigned, s => do
    let s' ← s.manageTask (generatePollTaskDefinition work period profiles)
    schedulePolls work assigned s'

/-- The names the loop collects. -/
def activeSchedules (work : PollWork) (assigned : AssignedProfiles) : List String :=
  assigned.keys.map (pollTaskName work.address)

/-- The end of `inventory_setup_poller`. -/
def reconcilePolls (work : PollWork) (assigned : AssignedProfiles) (s : ScheduleStore) :
    Except PyError ScheduleStore := do
  let s' ← schedulePolls work assigned.entries s
  return s'.deleteUnusedPollTasks work.address (activeSchedules work assigned)

/-! ### Keys -/

/-- The key of the poll of a target at a frequency. -/
def pollKey (target : String) (period : ℤ) : String := redbeatKey (pollTaskName target period)

theorem pollTaskName_injective (target : String) : Function.Injective (pollTaskName target) := by
  intro m n h
  rw [pollTaskName, pollTaskName, String.append_left_inj, String.append_right_inj] at h
  exact Text.toString_int_injective h

theorem pollKey_injective (target : String) : Function.Injective (pollKey target) :=
  redbeatKey_injective.comp (pollTaskName_injective target)

theorem name_mem_activeSchedules {work : PollWork} {assigned : AssignedProfiles} {name : String} :
    name ∈ activeSchedules work assigned ↔
      ∃ period ∈ assigned.keys, redbeatKey name = pollKey work.address period := by
  rw [activeSchedules, List.mem_map]
  constructor
  · rintro ⟨period, hp, rfl⟩
    exact ⟨period, hp, rfl⟩
  · rintro ⟨period, hp, hname⟩
    exact ⟨period, hp, (redbeatKey_injective hname).symm⟩

/-! ### One poll -/

/-- The entry is a poll of the target. -/
def IsPollOf (target : String) (e : RedBeatSchedulerEntry) : Prop :=
  e.task = pollTask ∧ e.target = some target

/-- The entry polls exactly these profiles at this frequency. -/
def Carries (e : RedBeatSchedulerEntry) (period : ℤ) (profiles : List String) : Prop :=
  e.schedule = period ∧ e.kwargs.get? "frequency" = some (.scalar (.int period)) ∧
    ∃ ps, e.kwargs.get? "profiles" = some (.list ps) ∧ ∀ p, p ∈ ps ↔ p ∈ profiles

/-- An entry polls at one frequency. -/
theorem Carries.period_unique {e : RedBeatSchedulerEntry} {m n : ℤ} {ps qs : List String}
    (h : Carries e m ps) (h' : Carries e n qs) : m = n :=
  h.1.symm.trans h'.1

section Scheduled

variable {work : PollWork} {period : ℤ} {profiles : List String}
  {old : Option RedBeatSchedulerEntry}

/-- The entry scheduled for a frequency. -/
def scheduledPoll (work : PollWork) (period : ℤ) (profiles : List String)
    (old : Option RedBeatSchedulerEntry) : RedBeatSchedulerEntry :=
  ScheduleStore.managedEntry old (generatePollTaskDefinition work period profiles)

theorem scheduledPoll_target :
    (scheduledPoll work period profiles old).target = some work.address := by
  cases old <;> rfl

/-- The task of an entry that was there stays what it was. -/
theorem scheduledPoll_task :
    (scheduledPoll work period profiles old).task = (old.map (·.task)).getD pollTask := by
  cases old <;> rfl

theorem scheduledPoll_key
    (h : ∀ e, old = some e → redbeatKey e.name = pollKey work.address period) :
    redbeatKey (scheduledPoll work period profiles old).name = pollKey work.address period := by
  cases old with
  | none => rfl
  | some e => exact h e rfl

theorem scheduledPoll_carries :
    Carries (scheduledPoll work period profiles old) period profiles := by
  obtain ⟨kwargs, hkwargs, hprofiles, hfrequency⟩ := PollTaskGenerator.kwargs_generateTaskDefinition
    { target := work.address
      schedulePeriod := period
      group := work.group
      profiles := profiles.dedup
      chainOfTasksExpiryTime := work.chainOfTasksExpiryTime }
  have hk : (scheduledPoll work period profiles old).kwargs = kwargs := by
    cases old <;> simp [scheduledPoll, ScheduleStore.managedEntry, TaskData.newEntry,
      RedBeatSchedulerEntry.setArguments, generatePollTaskDefinition, hkwargs]
  refine ⟨?_, ?_, profiles.dedup, ?_, fun p => List.mem_dedup⟩
  · cases old <;> rfl
  · rw [hk, hfrequency]
  · rw [hk, hprofiles]

end Scheduled

/-! ### The task -/

/-- What the loop over the frequencies leaves under each key. -/
theorem schedulePolls_spec (work : PollWork) {assigned : List (ℤ × List String)}
    (hnodup : (assigned.map Prod.fst).Nodup) {s : ScheduleStore} (hs : s.Readable) :
    ∃ s', schedulePolls work assigned s = .ok s' ∧
      (∀ period profiles, (period, profiles) ∈ assigned →
        s'.lookup? (pollKey work.address period) = some (scheduledPoll work period profiles
          (s.lookup? (pollKey work.address period)))) ∧
      ∀ k, (∀ period ∈ assigned.map Prod.fst, k ≠ pollKey work.address period) →
        s'.lookup? k = s.lookup? k := by
  induction assigned generalizing s with
  | nil => exact ⟨s, rfl, by simp, fun _ _ => rfl⟩
  | cons a assigned ih =>
    obtain ⟨m, ps⟩ := a
    rw [List.map_cons, List.nodup_cons] at hnodup
    obtain ⟨s₁, hmanage, hs₁⟩ := ScheduleStore.manageTask_of_readable hs
      (generatePollTaskDefinition work m ps)
    have hkeys₁ : ∀ k, s₁.lookup? k = if k = pollKey work.address m then
        some (scheduledPoll work m ps (s.lookup? k)) else s.lookup? k :=
      ScheduleStore.lookup?_manageTask rfl rfl hmanage
    obtain ⟨s₂, hrest, hassigned, hother⟩ := ih hnodup.2 hs₁
    refine ⟨s₂, ?_, ?_, ?_⟩
    · rw [schedulePolls, hmanage]
      exact hrest
    · intro period profiles hmem
      rcases List.mem_cons.mp hmem with h | hlater
      · cases h
        -- no later frequency writes this key again
        have hfresh : ∀ n ∈ assigned.map Prod.fst,
            pollKey work.address m ≠ pollKey work.address n := by
          intro n hn hkey
          rw [pollKey_injective work.address hkey] at hnodup
          exact hnodup.1 hn
        rw [hother _ hfresh, hkeys₁, if_pos rfl]
      · have hne : period ≠ m := by
          rintro rfl
          exact hnodup.1 (List.mem_map.mpr ⟨_, hlater, rfl⟩)
        rw [hassigned period profiles hlater, hkeys₁,
          if_neg fun h => hne (pollKey_injective work.address h)]
    · intro k hk
      rw [List.map_cons, List.forall_mem_cons] at hk
      rw [hother k hk.2, hkeys₁, if_neg hk.1]

/-- The task leaves a readable store readable. -/
theorem reconcilePolls_readable {work : PollWork} {assigned : AssignedProfiles}
    {s s' : ScheduleStore} (hs : s.Readable) (hrun : reconcilePolls work assigned s = .ok s') :
    s'.Readable := by
  have hschedule : ∀ (periods : List (ℤ × List String)) (s s₁ : ScheduleStore), s.Readable →
      schedulePolls work periods s = .ok s₁ → s₁.Readable := by
    intro periods
    induction periods with
    | nil =>
      intro s s₁ hs h
      cases h
      exact hs
    | cons period periods ih =>
      intro s s₁ hs h
      obtain ⟨s₂, hmanage, hrest⟩ := PyError.bind_eq_ok.mp h
      obtain ⟨s₃, hmanage', hs₃⟩ := ScheduleStore.manageTask_of_readable hs
        (generatePollTaskDefinition work period.1 period.2)
      cases hmanage.symm.trans hmanage'
      exact ih s₂ s₁ hs₃ hrest
  obtain ⟨s₁, hrun₁, hrun₂⟩ := PyError.bind_eq_ok.mp hrun
  cases hrun₂
  exact (hschedule _ _ _ hs hrun₁).deleteWhere _ _

/-- The schedule store after the task: the scheduled polls under the keys of the
assigned frequencies, and of the rest what the pattern does not select for
deletion. -/
structure AfterTask (work : PollWork) (assigned : AssignedProfiles) (s s' : ScheduleStore) :
    Prop where
  scheduled : ∀ period profiles, assigned.get? period = some profiles →
    s'.lookup? (pollKey work.address period) = some (scheduledPoll work period profiles
      (s.lookup? (pollKey work.address period)))
  other : ∀ k, (∀ period ∈ assigned.keys, k ≠ pollKey work.address period) →
    s'.lookup? k = (s.lookup? k).filter fun e =>
      !(Glob.isMatch (ScheduleStore.targetPattern work.address) k && decide (e.task = pollTask))

/-- On a readable store the task returns. -/
theorem reconcilePolls_spec (work : PollWork) (assigned : AssignedProfiles) {s : ScheduleStore}
    (hs : s.Readable) :
    ∃ s', reconcilePolls work assigned s = .ok s' ∧ AfterTask work assigned s s' := by
  obtain ⟨s₁, hschedule, hassigned, hother⟩ := schedulePolls_spec work assigned.nodupKeys hs
  refine ⟨_, by rw [reconcilePolls, hschedule]; rfl, fun period profiles hget => ?_,
    fun k hk => ?_⟩
  · have hactive : (scheduledPoll work period profiles
        (s.lookup? (pollKey work.address period))).name ∈ activeSchedules work assigned :=
      name_mem_activeSchedules.mpr ⟨period, Dict.mem_keys_iff.mpr ⟨_, hget⟩,
        scheduledPoll_key fun e he => (ScheduleStore.key_of_lookup? he).symm⟩
    rw [ScheduleStore.lookup?_deleteUnusedPollTasks,
      hassigned period profiles (Dict.mem_entries_iff.mpr hget), Option.filter_some]
    simp [hactive]
  · rw [ScheduleStore.lookup?_deleteUnusedPollTasks, hother k hk]
    cases he : s.lookup? k with
    | none => rfl
    | some e =>
      have hinactive : e.name ∉ activeSchedules work assigned := by
        rw [name_mem_activeSchedules]
        rintro ⟨period, hp, hname⟩
        exact hk period hp ((ScheduleStore.key_of_lookup? he).trans hname)
      rw [Option.filter_some, Option.filter_some]
      simp [hinactive]

/-! ### Reconciliation -/

/-- The polls of the host are one for each assigned frequency, carrying exactly its
profiles, and the entries of every other target are the ones there were. -/
structure PollsReconciled (work : PollWork) (assigned : AssignedProfiles)
    (s s' : ScheduleStore) : Prop where
  assignedOnly : ∀ k e, s'.lookup? k = some e → IsPollOf work.address e →
    ∃ period profiles, assigned.get? period = some profiles ∧ Carries e period profiles
  onePerFrequency : ∀ period profiles, assigned.get? period = some profiles →
    ∃! k, ∃ e, s'.lookup? k = some e ∧ IsPollOf work.address e ∧ Carries e period profiles
  frame : ∀ k e, e.target ≠ some work.address → (s'.lookup? k = some e ↔ s.lookup? k = some e)

/-- A poll of the host that the task neither schedules again nor selects for deletion. -/
def MissedPoll (work : PollWork) (assigned : AssignedProfiles) (s : ScheduleStore) (k : String)
    (e : RedBeatSchedulerEntry) : Prop :=
  s.lookup? k = some e ∧ IsPollOf work.address e ∧
    (∀ period ∈ assigned.keys, k ≠ pollKey work.address period) ∧
    ¬ Glob.isMatch (ScheduleStore.targetPattern work.address) k = true

/-- The name of the host's poll at a frequency is taken by an entry of another task. -/
def TakenFrequency (work : PollWork) (s : ScheduleStore) (period : ℤ) : Prop :=
  ∃ e, s.lookup? (pollKey work.address period) = some e ∧ e.task ≠ pollTask

/-- The stores the task reconciles: the host's own names are its own, no poll of
another target is selected by the host's pattern, and the polls of the host the
task does not see stand for the frequencies whose names are taken, one for each. -/
structure Reconcilable (work : PollWork) (assigned : AssignedProfiles) (s : ScheduleStore) :
    Prop where
  ownNames : ∀ period ∈ assigned.keys, ∀ e,
    s.lookup? (pollKey work.address period) = some e → e.target = some work.address
  noForeign : ∀ k e, s.lookup? k = some e → e.task = pollTask → e.target ≠ some work.address →
    ¬ Glob.isMatch (ScheduleStore.targetPattern work.address) k = true
  missedTaken : ∀ k e, MissedPoll work assigned s k e →
    ∃ period profiles, assigned.get? period = some profiles ∧ TakenFrequency work s period ∧
      Carries e period profiles
  takenMissed : ∀ period profiles, assigned.get? period = some profiles →
    TakenFrequency work s period →
      ∃! k, ∃ e, MissedPoll work assigned s k e ∧ Carries e period profiles

section Reconcile

variable {work : PollWork} {assigned : AssignedProfiles} {s s' : ScheduleStore}

/-- Under the key of an assigned frequency stands a poll of the host, unless the
name was taken. -/
theorem isPollOf_scheduledPoll {period : ℤ} {profiles : List String} :
    IsPollOf work.address (scheduledPoll work period profiles
      (s.lookup? (pollKey work.address period))) ↔ ¬ TakenFrequency work s period := by
  rw [IsPollOf, scheduledPoll_task, TakenFrequency]
  cases s.lookup? (pollKey work.address period) <;> simp [scheduledPoll_target]

/-- After the task, a poll of the host is one of the scheduled ones or one the
task missed. -/
theorem AfterTask.pollOf_iff (h : AfterTask work assigned s s') {k : String}
    {e : RedBeatSchedulerEntry} :
    (s'.lookup? k = some e ∧ IsPollOf work.address e) ↔
      MissedPoll work assigned s k e ∨
      ∃ period profiles, assigned.get? period = some profiles ∧ ¬ TakenFrequency work s period ∧
        k = pollKey work.address period ∧
        e = scheduledPoll work period profiles (s.lookup? (pollKey work.address period)) := by
  -- the key is that of no assigned period, and the entry was missed, or that of one
  by_cases hk : ∀ period ∈ assigned.keys, k ≠ pollKey work.address period
  · rw [h.other k hk, Option.filter_eq_some_iff]
    constructor
    · rintro ⟨⟨he, hkept⟩, hpoll⟩
      refine Or.inl ⟨he, hpoll, hk, fun hm => ?_⟩
      simp [hm, hpoll.1] at hkept
    · rintro (⟨he, hpoll, -, hm⟩ | ⟨period, profiles, hget, -, hkey, -⟩)
      · exact ⟨⟨he, by simp [hm]⟩, hpoll⟩
      · exact absurd hkey (hk period (Dict.mem_keys_iff.mpr ⟨_, hget⟩))
  · obtain ⟨period, hk⟩ := not_forall.mp hk
    obtain ⟨hp, hk⟩ := Classical.not_imp.mp hk
    rw [not_not] at hk
    subst hk
    obtain ⟨profiles, hget⟩ := Dict.mem_keys_iff.mp hp
    rw [h.scheduled period profiles hget, Option.some.injEq]
    constructor
    · rintro ⟨rfl, hpoll⟩
      exact Or.inr ⟨period, profiles, hget, isPollOf_scheduledPoll.mp hpoll, rfl, rfl⟩
    · rintro (⟨-, -, hmissed, -⟩ | ⟨n, qs, hget', hfree, hkey, rfl⟩)
      · exact absurd rfl (hmissed period hp)
      · obtain rfl := pollKey_injective work.address hkey
        rw [hget, Option.some.injEq] at hget'
        subst hget'
        exact ⟨rfl, isPollOf_scheduledPoll.mpr hfree⟩

/-- Under the key of an assigned frequency stands an entry of the host. -/
theorem AfterTask.target_of_key (h : AfterTask work assigned s s') {period : ℤ}
    (hp : period ∈ assigned.keys) {e : RedBeatSchedulerEntry}
    (he : s'.lookup? (pollKey work.address period) = some e) : e.target = some work.address := by
  obtain ⟨profiles, hget⟩ := Dict.mem_keys_iff.mp hp
  rw [h.scheduled period profiles hget, Option.some.injEq] at he
  rw [← he]
  exact scheduledPoll_target

/-- A reconciled store was reconcilable. -/
theorem PollsReconciled.reconcilable (h : AfterTask work assigned s s')
    (hrec : PollsReconciled work assigned s s') : Reconcilable work assigned s := by
  have hpolls := fun k e => h.pollOf_iff (k := k) (e := e)
  have hown : ∀ period ∈ assigned.keys, ∀ e,
      s.lookup? (pollKey work.address period) = some e → e.target = some work.address := by
    intro period hp e he
    by_contra htarget
    exact htarget (h.target_of_key hp ((hrec.frame _ e htarget).mpr he))
  refine ⟨hown, fun k e he htask htarget hmatch => ?_, fun k e hmissed => ?_,
    fun period profiles hget htaken => ?_⟩
  · have hk : ∀ period ∈ assigned.keys, k ≠ pollKey work.address period := by
      rintro period hp rfl
      exact htarget (hown period hp e he)
    have hkept := (hrec.frame k e htarget).mpr he
    rw [h.other k hk, he, Option.filter_some] at hkept
    simp [hmatch, htask] at hkept
  · obtain ⟨he, hpoll⟩ := (hpolls k e).mpr (Or.inl hmissed)
    obtain ⟨period, profiles, hget, hcarries⟩ := hrec.assignedOnly k e he hpoll
    refine ⟨period, profiles, hget, ?_, hcarries⟩
    by_contra hfree
    -- the scheduled poll and the missed one would both stand for this frequency
    obtain ⟨he', hpoll'⟩ := (hpolls (pollKey work.address period) _).mpr
      (Or.inr ⟨period, profiles, hget, hfree, rfl, rfl⟩)
    have heq := (hrec.onePerFrequency period profiles hget).unique
      ⟨e, he, hpoll, hcarries⟩ ⟨_, he', hpoll', scheduledPoll_carries⟩
    exact hmissed.2.2.1 period (Dict.mem_keys_iff.mpr ⟨_, hget⟩) heq
  · obtain ⟨k, ⟨e, he, hpoll, hcarries⟩, hunique⟩ := hrec.onePerFrequency period profiles hget
    rcases (hpolls k e).mp ⟨he, hpoll⟩ with hmissed | ⟨n, qs, -, hfree, -, rfl⟩
    · refine ⟨k, ⟨e, hmissed, hcarries⟩, ?_⟩
      rintro k' ⟨e', hmissed', hcarries'⟩
      obtain ⟨he', hpoll'⟩ := (hpolls k' e').mpr (Or.inl hmissed')
      exact hunique k' ⟨e', he', hpoll', hcarries'⟩
    · obtain rfl := hcarries.period_unique scheduledPoll_carries
      exact absurd htaken hfree

/-- A reconcilable store is reconciled. -/
theorem Reconcilable.reconciled (h : AfterTask work assigned s s')
    (hrec : Reconcilable work assigned s) : PollsReconciled work assigned s s' := by
  have hpolls := fun k e => h.pollOf_iff (k := k) (e := e)
  refine ⟨?_, ?_, ?_⟩
  · intro k e he hpoll
    rcases (hpolls k e).mp ⟨he, hpoll⟩ with hmissed | ⟨period, profiles, hget, -, -, rfl⟩
    · obtain ⟨period, profiles, hget, -, hcarries⟩ := hrec.missedTaken k e hmissed
      exact ⟨period, profiles, hget, hcarries⟩
    · exact ⟨period, profiles, hget, scheduledPoll_carries⟩
  · -- a frequency has its one poll: the missed one, if the frequency is taken
    intro period profiles hget
    by_cases htaken : TakenFrequency work s period
    · obtain ⟨k, ⟨e, hmissed, hcarries⟩, hunique⟩ := hrec.takenMissed period profiles hget htaken
      obtain ⟨he, hpoll⟩ := (hpolls k e).mpr (Or.inl hmissed)
      refine ⟨k, ⟨e, he, hpoll, hcarries⟩, ?_⟩
      rintro k' ⟨e', he', hpoll', hcarries'⟩
      rcases (hpolls k' e').mp ⟨he', hpoll'⟩ with hmissed' | ⟨n, qs, -, hfree, -, rfl⟩
      · exact hunique k' ⟨e', hmissed', hcarries'⟩
      · obtain rfl := hcarries'.period_unique scheduledPoll_carries
        exact absurd htaken hfree
    · obtain ⟨he, hpoll⟩ := (hpolls (pollKey work.address period) _).mpr
        (Or.inr ⟨period, profiles, hget, htaken, rfl, rfl⟩)
      refine ⟨_, ⟨_, he, hpoll, scheduledPoll_carries⟩, ?_⟩
      rintro k' ⟨e', he', hpoll', hcarries'⟩
      rcases (hpolls k' e').mp ⟨he', hpoll'⟩ with hmissed' | ⟨n, qs, -, -, rfl, rfl⟩
      · obtain ⟨m, qs, -, htaken', hcarries''⟩ := hrec.missedTaken k' e' hmissed'
        obtain rfl := hcarries'.period_unique hcarries''
        exact absurd htaken' htaken
      · rw [hcarries'.period_unique scheduledPoll_carries]
  · -- entries of other targets
    intro k e htarget
    by_cases hk : ∀ period ∈ assigned.keys, k ≠ pollKey work.address period
    · rw [h.other k hk, Option.filter_eq_some_iff]
      refine ⟨And.left, fun he => ⟨he, ?_⟩⟩
      by_cases htask : e.task = pollTask
      · simp [hrec.noForeign k e he htask htarget]
      · simp [htask]
    · obtain ⟨period, hk⟩ := not_forall.mp hk
      obtain ⟨hp, hk⟩ := Classical.not_imp.mp hk
      obtain rfl := not_not.mp hk
      exact ⟨fun he => absurd (h.target_of_key hp he) htarget,
        fun he => absurd (hrec.ownNames period hp e he) htarget⟩

/-- **The task reconciles exactly the reconcilable stores.** -/
theorem reconcilePolls_iff (work : PollWork) (assigned : AssignedProfiles) (s : ScheduleStore)
    (hs : s.Readable) :
    ∃ s', reconcilePolls work assigned s = .ok s' ∧
      (PollsReconciled work assigned s s' ↔ Reconcilable work assigned s) := by
  obtain ⟨s', hrun, h⟩ := reconcilePolls_spec work assigned hs
  exact ⟨s', hrun, PollsReconciled.reconcilable h, Reconcilable.reconciled h⟩

end Reconcile

/-! ### A host whose address ends with another's -/

/-- The setup of host `1.1.1.1`, on the default port. -/
def shortHostWork : PollWork := ⟨"1.1.1.1:161", .none, some 60⟩

/-- Host `11.1.1.1` polled every minute. -/
def longHostPoll : RedBeatSchedulerEntry :=
  (generatePollTaskDefinition ⟨"11.1.1.1:161", .none, some 60⟩ 60 ["BaseUpTime"]).newEntry

/-- An earlier poll of `1.1.1.1`, and one of another host. -/
def twoHostsStore : ScheduleStore :=
  (ScheduleStore.empty.save
      (generatePollTaskDefinition shortHostWork 30 ["BaseUpTime"]).newEntry).save
    (generatePollTaskDefinition ⟨"2.2.2.2:161", .none, some 60⟩ 60 ["BaseUpTime"]).newEntry

theorem readable_twoHostsStore : twoHostsStore.Readable :=
  (ScheduleStore.readable_empty.save _).save _

/-- The setup of `1.1.1.1` at the store with the two polls. -/
theorem reconcilePolls_iff_twoHosts :
    ∃ s', reconcilePolls shortHostWork (Dict.ofList [(60, ["BaseUpTime"])]) twoHostsStore = .ok s' ∧
      (PollsReconciled shortHostWork (Dict.ofList [(60, ["BaseUpTime"])]) twoHostsStore s' ↔
        Reconcilable shortHostWork (Dict.ofList [(60, ["BaseUpTime"])]) twoHostsStore) :=
  reconcilePolls_iff _ _ _ readable_twoHostsStore

/-- The setup of `1.1.1.1` deletes the poll of `11.1.1.1`. -/
theorem reconcilePolls_not_framed :
    ¬ ∀ (work : PollWork) (assigned : AssignedProfiles) (s : ScheduleStore), s.Readable →
      ∃ s', reconcilePolls work assigned s = .ok s' ∧ PollsReconciled work assigned s s' := by
  intro hclaim
  obtain ⟨s', hrun, hrec⟩ := hclaim shortHostWork (Dict.ofList [(60, ["BaseUpTime"])])
    (ScheduleStore.empty.save longHostPoll) (ScheduleStore.readable_empty.save _)
  obtain ⟨s'', hrun', hafter⟩ := reconcilePolls_spec shortHostWork
    (Dict.ofList [(60, ["BaseUpTime"])]) (ScheduleStore.readable_empty.save longHostPoll)
  rw [hrun, Except.ok.injEq] at hrun'
  subst hrun'
  have hentry : (ScheduleStore.empty.save longHostPoll).lookup? (redbeatKey longHostPoll.name) =
      some longHostPoll := by simp
  exact (hrec.reconcilable hafter).noForeign _ _ hentry rfl (by decide) (by decide)

end Sc4snmp
