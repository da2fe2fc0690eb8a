import Sc4snmp.Snmp.TrapVarbinds

/-!
# The status of the varbinds of a trap

With `INCLUDE_UNRESOLVED_TRAP_VARBINDS` each varbind of a trap ought to be in the result once:
as a metric or field, or as an unresolved entry.  The entries of what is left over are named by
their identifiers, so that the last one with an identifier is kept; and what is left over is
settled before the metric loop, which may load the MIB of a varbind that had no translation.
A translation that raises anything but `SmiError` ends the task.

## Main definitions

* `TrapRun` — a run of the task.
* `TrapRun.stages`, `TrapRun.attempts` — what pysnmp makes of the varbinds as the MIBs load.
* `TrapRun.Resolved`, `TrapRun.LastLeft` — the varbinds that a stage records, and the last one
  that is left over with its identifier, from the translations alone.
* `TrapRun.NoneDropped` — every varbind that is not resolved is in the result.
* `TrapRun.OneStatus` — no varbind is in the result both ways.

## Main results

* `noneDropped_iff` — **none is dropped exactly when** no attempt raises and the last one left
  over with its identifier has its value.
* `oneStatus_iff` — **each has one status exactly when** none that a stage records is the last
  one left over with its identifier.
* `not_returned_of_ones` — a numeral of too many digits drops the whole trap.
-/

namespace Sc4snmp

/-- A run of `trap`. -/
structure TrapRun (B : Type) where
  env : TrapEnv
  py : PySnmp B
  st : MibState B
  work : TrapWork

variable {B : Type}

/-- The stage records the varbind: it has an entry of its own, and no varbind in front of it is
unresolved with a known MIB. -/
def TrapStage.Records (mibMap : Dict String String) (stage : TrapStage) (vb : ResponseVarbind) :
    Prop :=
  vb.Carries ∧ ∃ before after, stage.table = before ++ vb :: after ∧
    ∀ other ∈ before, other.blocks mibMap = false

/-- The names and the values of the translated varbinds of a stage. -/
def TrapStage.readings (stage : TrapStage) : List TrapPair :=
  stage.table.filterMap fun vb =>
    (varbindTableValue vb).toOption.map fun value => (vb.identity.oid, value)

namespace TrapRun

/-- The varbinds of the trap, as many as are decoded. -/
def data (run : TrapRun B) : List TrapPair :=
  limitTrapVarbindPairs run.env.maxTrapVarbindsToDecode run.work.data

/-- What the task returns. -/
def returned (run : TrapRun B) : Except PyError TrapResult :=
  (trap run.env run.py run.st run.work).2

/-- The stage in front of the metrics. -/
def front (run : TrapRun B) : TrapStage := (frontStage run.env run.py run.st run.data).2

/-- The modules after the first loads of the metric loop. -/
def builders (run : TrapRun B) (n : ℕ) : List B :=
  loopBuilders run.env.config run.py run.data n
    (frontStage run.env run.py run.st run.data).1 run.front.table

/-- The stages whose tables are read. -/
def stages (run : TrapRun B) : List TrapStage :=
  run.front :: (run.builders (trapMibRetryMax - 1)).map fun b => stageAt run.py b run.data

/-- The translations that are tried. -/
def attempts (run : TrapRun B) : List (Attempt B) :=
  frontAttempts run.env run.py run.st run.data ++
    (run.builders trapMibRetryMax).map fun b => ⟨b, run.data⟩

/-- A stage records the varbind. -/
def Resolved (run : TrapRun B) (pair : TrapPair) : Prop :=
  ∃ stage ∈ run.stages, ∃ vb, stage.translation pair = some vb ∧
    stage.Records run.env.config.mibMap vb

/-- The metric or field of the varbind, recorded in one of the stages, is in the metrics. -/
def ResolvedIn (run : TrapRun B) (metrics : Metrics) (pair : TrapPair) : Prop :=
  ∃ stage ∈ run.stages, ∃ vb, stage.translation pair = some vb ∧
    stage.Records run.env.config.mibMap vb ∧ Recorded metrics vb

/-- The name and the value of a varbind in front of the metrics: its own when it has no
translation, and those of the translation otherwise. -/
def Reads (run : TrapRun B) (pair read : TrapPair) : Prop :=
  (run.front.translation pair = none ∧ read = pair) ∨
    ∃ vb, run.front.translation pair = some vb ∧ vb.identity.oid = read.1 ∧
      varbindTableValue vb = .ok read.2

/-! ### What is left over -/

/-- The varbinds that the stages record, in their order. -/
def recorded (run : TrapRun B) : List ResponseVarbind :=
  run.stages.flatMap fun stage => writtenPart run.env.config.mibMap stage.table

/-- A varbind with the identifier is recorded, and none is recorded over it. -/
def KeepsEntry (run : TrapRun B) (oid : String) : Prop :=
  oid ≠ "" ∧ ∃ before vb after, run.recorded = before ++ vb :: after ∧ vb.identity.oid = oid ∧
    ∀ other ∈ after, other.place ≠ vb.place

/-- The value is the last new one that is left over with the name: of the untranslated varbinds,
and of the translated ones too if no entry is kept with the name. -/
def LastLeft (run : TrapRun B) (name value : String) : Prop :=
  (run.KeepsEntry name ∧ LastNew (valuesOf run.front.untranslated name) value) ∨
    (¬ run.KeepsEntry name ∧
      LastNew (valuesOf (run.front.untranslated ++ run.front.readings) name) value)

end TrapRun

/-! ### The two properties -/

/-- The unresolved entry of an identifier. -/
def unresolvedEntry (metrics : Metrics) (oid : String) : Option MetricItem :=
  entryAt metrics ⟨unresolvedTrapGroupKey, false, unresolvedFieldName oid⟩

/-- Two texts are one value for `value_as_best`. -/
def SameBest (a b : String) : Prop :=
  a = b ∨ ∃ x, PyFloat.ofText a = some x ∧ PyFloat.ofText b = some x

theorem SameBest.trans_symm {a b c : String} (hab : SameBest a b) (hac : SameBest a c) :
    SameBest b c := by
  rcases hab with rfl | ⟨x, ha, hb⟩
  · exact hac
  · rcases hac with rfl | ⟨y, ha', hc⟩
    · exact Or.inr ⟨x, hb, ha⟩
    · cases ha.symm.trans ha'
      exact Or.inr ⟨x, hb, hc⟩

/-- The metrics have an unresolved entry with this name and value. -/
def HeldUnresolved (metrics : Metrics) (read : TrapPair) : Prop :=
  ∃ text, unresolvedEntry metrics read.1 = some (unresolvedItem (read.1, text)) ∧
    SameBest text read.2

namespace TrapRun

/-- The task returns, and every varbind that is not resolved into a metric or field of the
result has an unresolved entry there. -/
def NoneDropped (run : TrapRun B) : Prop :=
  ∃ result, run.returned = .ok result ∧ ∀ pair ∈ run.data,
    run.ResolvedIn result.result pair ∨
      ∃ read, run.Reads pair read ∧ HeldUnresolved result.result read

/-- No varbind is in the result both as a metric or field and as an unresolved entry. -/
def OneStatus (run : TrapRun B) (result : TrapResult) : Prop :=
  ∀ pair ∈ run.data, ¬ (run.ResolvedIn result.result pair ∧
    ∃ read, run.Reads pair read ∧
      unresolvedEntry result.result read.1 = some (unresolvedItem read))

/-- Every attempt settles, and no varbind that is left over stands behind another one with its
identifier. -/
structure KeptApart (run : TrapRun B) : Prop where
  settled : ∀ attempt ∈ run.attempts, attempt.Settles run.py
  host : ∃ host, resultHost run.env run.work.host = .ok host
  /-- A translated varbind has a text, unless an entry is kept with its identifier. -/
  printed : ∀ vb ∈ run.front.table, ¬ run.KeepsEntry vb.identity.oid →
    ∃ text, varbindTableValue vb = .ok text
  /-- The last one left over with the identifier of a varbind that is not recorded has its
  value. -/
  last : ∀ pair ∈ run.data, ¬ run.Resolved pair → ∃ read, run.Reads pair read ∧
    ∃ text, run.LastLeft read.1 text ∧ SameBest text read.2

/-! ### The result -/

variable {run : TrapRun B} {metrics : Metrics} {result : TrapResult} {pair read : TrapPair}
  {name value oid : String}

/-- The metrics in front of the unresolved entries. -/
def loopMetrics (run : TrapRun B) : Metrics :=
  readTables run.env.config.mibMap Dict.empty (run.stages.map TrapStage.table) Dict.empty

theorem processTrapMetrics_eq_ok_iff :
    (processTrapMetrics run.env.config run.py run.data
        (frontStage run.env run.py run.st run.data).1 run.front.table Dict.empty).2 =
        .ok metrics ↔
      (∀ b ∈ run.builders trapMibRetryMax, Attempt.Settles run.py ⟨b, run.data⟩) ∧
        metrics = run.loopMetrics := by
  have hmax : trapMibRetryMax = trapMibRetryMax - 1 + 1 := rfl
  have heq : ∀ {metrics' : Metrics}, (processTrapMetrics run.env.config run.py run.data
      (frontStage run.env run.py run.st run.data).1 run.front.table Dict.empty).2 = .ok metrics' →
      metrics' = run.loopMetrics := by
    intro metrics' h
    rw [trapPasses_eq run.data trapMibRetryMax _ _ _ h, hmax, trapTables_eq, loopMetrics, stages,
      List.map_cons, List.map_map]
    rfl
  have hreturns := @trapPasses_returns_iff B run.env.config run.py run.data trapMibRetryMax
    (frontStage run.env run.py run.st run.data).1 run.front.table Dict.empty
  constructor
  · intro h
    exact ⟨hreturns.mp ⟨metrics, h⟩, heq h⟩
  · rintro ⟨hsettles, rfl⟩
    obtain ⟨metrics', h⟩ := hreturns.mpr hsettles
    rw [← heq h]
    exact h

theorem mem_reportedPart_iff {mibMap : Dict String String} {table : List ResponseVarbind}
    {vb : ResponseVarbind} (h : vb.resolved = true) :
    vb ∈ reportedPart mibMap table ↔ ∃ before after, table = before ++ vb :: after ∧
      ∀ other ∈ before, other.blocks mibMap = false := by
  induction table with
  | nil =>
    refine iff_of_false List.not_mem_nil ?_
    rintro ⟨_, _, h, -⟩
    simp at h
  | cons first table ih =>
    rw [reportedPart_cons]
    constructor
    · intro hvb
      split at hvb
      · cases hvb
      next hfirst =>
        rcases List.mem_cons.mp hvb with rfl | hvb
        · exact ⟨[], table, rfl, List.forall_mem_nil _⟩
        · obtain ⟨before, after, rfl, hbefore⟩ := ih.mp hvb
          exact ⟨first :: before, after, rfl,
            List.forall_mem_cons.mpr ⟨Bool.eq_false_iff.mpr hfirst, hbefore⟩⟩
    · rintro ⟨before, after, hsplit, hbefore⟩
      cases before with
      | nil =>
        cases hsplit
        rw [if_neg (by simp [blocks_of_resolved h])]
        exact List.mem_cons_self
      | cons first' before =>
        cases hsplit
        obtain ⟨hfirst, hbefore⟩ := List.forall_mem_cons.mp hbefore
        rw [if_neg (by simp [hfirst])]
        exact List.mem_cons_of_mem _ (ih.mpr ⟨before, after, rfl, hbefore⟩)

theorem mem_writtenPart_iff {mibMap : Dict String String} {stage : TrapStage}
    {vb : ResponseVarbind} :
    vb ∈ writtenPart mibMap stage.table ↔ stage.Records mibMap vb := by
  rw [writtenPart, List.mem_filter, decide_eq_true_eq, and_comm]
  exact and_congr_right fun h => mem_reportedPart_iff h.1

theorem mem_collect_iff (run : TrapRun B) :
    oid ∈ collectProcessedTrapOids run.loopMetrics ↔ run.KeepsEntry oid := by
  have hentries : HasEntries run.loopMetrics (Dict.empty.updateList (entriesOf run.recorded)) := by
    have h := @HasEntries.readTables run.env.config.mibMap Dict.empty _ _
      (run.stages.map TrapStage.table) hasEntries_empty
    rw [List.flatMap_map] at h
    exact h
  have hcarries : ∀ vb ∈ run.recorded, vb.Carries := by
    intro vb hvb
    obtain ⟨stage, -, hvb⟩ := List.mem_flatMap.mp hvb
    exact (mem_writtenPart_iff.mp hvb).1
  rw [mem_collectProcessedTrapOids hentries, KeepsEntry]
  refine and_congr_right fun _ => ?_
  simp only [Dict.mem_values_iff]
  constructor
  · rintro ⟨item, ⟨place, hplace⟩, rfl⟩
    obtain ⟨before, vb, after, hsplit, hvb, hafter⟩ := (get?_entriesOf_iff hcarries).mp hplace
    obtain ⟨item', hitem, hplaced⟩ := Option.map_eq_some_iff.mp hvb
    cases hplaced
    exact ⟨before, vb, after, hsplit, (ResponseVarbind.oid_of_item? hitem).symm, hafter⟩
  · rintro ⟨before, vb, after, hsplit, rfl, hafter⟩
    obtain ⟨item, hitem⟩ := Option.isSome_iff_exists.mp
      (hcarries vb (by rw [hsplit]; simp)).2
    exact ⟨item, ⟨vb.place, (get?_entriesOf_iff hcarries).mpr ⟨before, vb, after, hsplit,
      by rw [ResponseVarbind.placedItem, hitem, Option.map_some], hafter⟩⟩,
      ResponseVarbind.oid_of_item? hitem⟩

theorem trapMetrics_eq_ok_iff :
    (trapMetrics run.env run.py run.st run.data).2 = .ok metrics ↔
      (∀ attempt ∈ run.attempts, attempt.Settles run.py) ∧
        includeUnresolved run.env run.front.trapTable run.loopMetrics = .ok metrics := by
  unfold trapMetrics attempts
  rw [Worked.andThen_eq_ok, List.forall_mem_append, List.forall_mem_map, and_assoc]
  constructor
  · rintro ⟨tt, htt, h⟩
    rw [translateTrap_fst htt] at h
    obtain ⟨hfront, rfl⟩ := translateTrap_eq_ok_iff.mp htt
    obtain ⟨loop, hpasses, h⟩ := Worked.andThen_eq_ok.mp h
    obtain ⟨hloop, rfl⟩ := processTrapMetrics_eq_ok_iff.mp hpasses
    exact ⟨hfront, hloop, h⟩
  · rintro ⟨hfront, hloop, h⟩
    have htt := translateTrap_eq_ok_iff.mpr ⟨hfront, rfl⟩
    refine ⟨_, htt, ?_⟩
    rw [translateTrap_fst htt]
    exact Worked.andThen_eq_ok.mpr ⟨_, processTrapMetrics_eq_ok_iff.mpr ⟨hloop, rfl⟩, h⟩

/-- **The task returns** unless something raises, and what is left over is appended to the
metrics of the loop. -/
theorem returned_eq_ok_iff (hinclude : run.env.includeUnresolvedTrapVarbinds = true) :
    run.returned = .ok result ↔
      (∀ attempt ∈ run.attempts, attempt.Settles run.py) ∧
        ∃ unprocessed, unprocessedTrapVarbinds run.front.table run.loopMetrics = .ok unprocessed ∧
          ∃ host, resultHost run.env run.work.host = .ok host ∧
            result = buildResult run.env
              (appendUnresolvedTrapVarbinds
                (mergeUnresolvedTrapVarbinds run.front.untranslated unprocessed) run.loopMetrics)
              host run.work.fields := by
  have hmetrics : ∀ {metrics : Metrics},
      includeUnresolved run.env run.front.trapTable run.loopMetrics = .ok metrics ↔
        ∃ unprocessed, unprocessedTrapVarbinds run.front.table run.loopMetrics = .ok unprocessed ∧
          metrics = appendUnresolvedTrapVarbinds
            (mergeUnresolvedTrapVarbinds run.front.untranslated unprocessed) run.loopMetrics := by
    intro metrics
    rw [includeUnresolved, if_pos hinclude, PyError.bind_eq_ok]
    refine exists_congr fun unprocessed => and_congr_right fun _ => ?_
    show Except.ok _ = Except.ok metrics ↔ _
    rw [Except.ok.injEq, eq_comm]
    rfl
  have hhost : ∀ {metrics : Metrics},
      (resultHost run.env run.work.host >>= fun host =>
        pure (buildResult run.env metrics host run.work.fields)) = .ok result ↔
        ∃ host, resultHost run.env run.work.host = .ok host ∧
          result = buildResult run.env metrics host run.work.fields := by
    intro metrics
    rw [PyError.bind_eq_ok]
    refine exists_congr fun host => and_congr_right fun _ => ?_
    show Except.ok _ = Except.ok result ↔ _
    rw [Except.ok.injEq, eq_comm]
  show ((trapMetrics run.env run.py run.st run.data).andThen _).2 = _ ↔ _
  rw [Worked.andThen_eq_ok]
  constructor
  · rintro ⟨metrics, h, hresult⟩
    obtain ⟨hsettled, hincluded⟩ := trapMetrics_eq_ok_iff.mp h
    obtain ⟨unprocessed, hunprocessed, rfl⟩ := hmetrics.mp hincluded
    exact ⟨hsettled, unprocessed, hunprocessed, hhost.mp hresult⟩
  · rintro ⟨hsettled, unprocessed, hunprocessed, hresult⟩
    exact ⟨_, trapMetrics_eq_ok_iff.mpr ⟨hsettled, hmetrics.mpr ⟨unprocessed, hunprocessed, rfl⟩⟩,
      hhost.mpr hresult⟩

end TrapRun

/-! ### The unresolved entries -/

theorem equals_mem_groupKeyPart (oid : String) (part : IndexContent) :
    '=' ∈ (groupKeyPart oid part).toList := by
  cases part with
  | single v =>
    rw [groupKeyPart]
    split <;> simp [String.toList_append]
  | tuple items => simp [groupKeyPart, String.toList_append]

/-- No group of a varbind is the one of the unresolved entries. -/
theorem getGroupKey_ne (mib oid : String) (index : List IndexContent) :
    getGroupKey mib oid index ≠ unresolvedTrapGroupKey := by
  intro h
  have hlist := congrArg String.toList h
  rw [getGroupKey, String.toList_append, String.toList_append] at hlist
  cases index with
  | nil =>
    -- the key ends with a colon
    have hlast := congrArg List.getLast? hlist
    have hcolon : List.getLast? (mib.toList ++ "::".toList ++
        (";".intercalate ([].map (groupKeyPart oid))).toList) = some ':' := by
      rw [List.getLast?_append, List.getLast?_append]
      rfl
    rw [hcolon] at hlast
    revert hlast
    decide
  | cons part index =>
    have hequals : '=' ∈ unresolvedTrapGroupKey.toList := by
      rw [← hlist, List.mem_append, String.toList_intercalate, List.map_map, List.map_cons]
      refine Or.inr ?_
      cases index with
      | nil => simpa using equals_mem_groupKeyPart oid part
      | cons part' index =>
        rw [List.map_cons, List.intercalate_cons_cons, List.append_assoc, List.mem_append]
        exact Or.inl (equals_mem_groupKeyPart oid part)
    revert hequals
    decide

section Unresolved

variable {metrics : Metrics} {oid oid' : String}

/-- An entry that a varbind writes is not among the unresolved ones. -/
theorem unresolvedEntry_readTables (mibMap : Dict String String)
    (tables : List (List ResponseVarbind)) (oid : String) :
    unresolvedEntry (readTables mibMap Dict.empty tables Dict.empty) oid = none := by
  have hentries := @HasEntries.readTables mibMap Dict.empty _ _ tables hasEntries_empty
  rw [unresolvedEntry, hentries, Dict.get?_eq_none_iff, Dict.mem_keys_updateList]
  rintro (h | h)
  · obtain ⟨entry, hentry, hplace⟩ := List.mem_map.mp h
    obtain ⟨vb, -, hvb⟩ := List.mem_filterMap.mp hentry
    obtain ⟨item, -, rfl⟩ := Option.map_eq_some_iff.mp hvb
    exact getGroupKey_ne _ _ _ (congrArg EntryPlace.groupKey hplace)
  · exact List.not_mem_nil h

theorem unresolvedFieldName_injective (h : unresolvedFieldName oid = unresolvedFieldName oid') :
    oid = oid' := by
  have hlist := congrArg String.toList h
  rw [unresolvedFieldName, unresolvedFieldName, String.toList_append, String.toList_append] at hlist
  exact String.ext (List.append_cancel_left hlist)

theorem lookup_unresolved (pairs : List TrapPair) (oid : String) :
    (pairs.map fun pair => (unresolvedFieldName pair.1, unresolvedItem pair)).lookup
        (unresolvedFieldName oid) =
      (pairs.lookup oid).map fun value => unresolvedItem (oid, value) := by
  induction pairs with
  | nil => rfl
  | cons pair pairs ih =>
    rw [List.map_cons, Dict.lookup_cons_ite, ih, ← Prod.mk.eta (p := pair), Dict.lookup_cons_ite]
    by_cases h : oid = pair.1
    · subst h
      rw [if_pos rfl, if_pos rfl]
      rfl
    · rw [if_neg h, if_neg fun heq => h (unresolvedFieldName_injective heq)]

/-- **The unresolved entries**: under each identifier the last value that is left over. -/
theorem unresolvedEntry_append (pairs : List TrapPair)
    (h : ∀ oid, unresolvedEntry metrics oid = none)
    (oid : String) :
    unresolvedEntry (appendUnresolvedTrapVarbinds pairs metrics) oid =
      (pairs.reverse.lookup oid).map fun value => unresolvedItem (oid, value) := by
  unfold appendUnresolvedTrapVarbinds
  cases pairs with
  | nil => exact h oid
  | cons pair pairs =>
    have hfields : ((metrics.get? unresolvedTrapGroupKey).getD
        ⟨Dict.empty, Dict.empty, [], none⟩).fields.get? (unresolvedFieldName oid) = none := by
      have hentry := h oid
      unfold unresolvedEntry entryAt at hentry
      cases hgroup : metrics.get? unresolvedTrapGroupKey with
      | none => rfl
      | some group =>
        rw [hgroup] at hentry
        exact hentry
    rw [List.isEmpty_cons, if_neg Bool.false_ne_true]
    unfold unresolvedEntry entryAt
    rw [Dict.get?_insert, if_pos rfl, Option.bind_some]
    show (Dict.updateList _ _).get? _ = _
    rw [Dict.get?_updateList_eq_last, hfields, Option.or_none, ← List.map_reverse,
      lookup_unresolved]

/-- What is appended leaves the entries of the varbinds alone. -/
theorem recorded_append {vb : ResponseVarbind} (pairs : List TrapPair) :
    Recorded (appendUnresolvedTrapVarbinds pairs metrics) vb ↔ Recorded metrics vb := by
  unfold appendUnresolvedTrapVarbinds
  split
  · rfl
  · have hkey : vb.groupKey ≠ unresolvedTrapGroupKey := getGroupKey_ne _ _ _
    unfold Recorded Written
    rw [Dict.get?_insert, if_neg hkey]

theorem unresolvedItem_injective {pair read : TrapPair}
    (h : unresolvedItem pair = unresolvedItem read) : pair = read := by
  have hoid : pair.1 = read.1 := congrArg MetricItem.oid h
  have hvalue : valueAsBest pair.2 = valueAsBest read.2 := congrArg MetricItem.value h
  refine Prod.ext hoid ?_
  unfold valueAsBest at hvalue
  split at hvalue <;> split at hvalue
  · exact MetricValue.float.inj hvalue
  · cases hvalue
  · cases hvalue
  · exact MetricValue.str.inj hvalue

end Unresolved

/-! ### When none is dropped, and when each has one status -/

namespace TrapRun

variable {run : TrapRun B} {result : TrapResult} {pair read : TrapPair}
  {name value oid : String} {unprocessed : List TrapPair}

theorem Reads.unique {read' : TrapPair} (h : run.Reads pair read) (h' : run.Reads pair read') :
    read = read' := by
  rcases h with ⟨hnone, rfl⟩ | ⟨vb, hvb, hoid, hvalue⟩
  · rcases h' with ⟨-, rfl⟩ | ⟨vb, hvb, -, -⟩
    · rfl
    · rw [hnone] at hvb
      cases hvb
  · rcases h' with ⟨hnone, -⟩ | ⟨vb', hvb', hoid', hvalue'⟩
    · rw [hnone] at hvb
      cases hvb
    · cases hvb.symm.trans hvb'
      exact Prod.ext (hoid.symm.trans hoid') (Except.ok.inj (hvalue.symm.trans hvalue'))

theorem LastLeft.unique {value' : String} (h : run.LastLeft name value)
    (h' : run.LastLeft name value') : value = value' := by
  rcases h with ⟨hkeeps, h⟩ | ⟨hkeeps, h⟩
  · rcases h' with ⟨-, h'⟩ | ⟨hkeeps', -⟩
    · exact h.unique h'
    · exact absurd hkeeps hkeeps'
  · rcases h' with ⟨hkeeps', -⟩ | ⟨-, h'⟩
    · exact absurd hkeeps' hkeeps
    · exact h.unique h'

/-- The values that are processed no further, by their names. -/
theorem valuesOf_unprocessed
    (h : unprocessedTrapVarbinds run.front.table run.loopMetrics = .ok unprocessed)
    (name : String) :
    valuesOf unprocessed name =
      if name ∈ collectProcessedTrapOids run.loopMetrics then []
      else valuesOf run.front.readings name := by
  have hreadings : unprocessed = run.front.readings.filter fun read =>
      read.1 ∉ collectProcessedTrapOids run.loopMetrics := by
    rw [PyError.eq_filterMap_of_mapM h, TrapStage.readings, List.filterMap_filter,
      List.filter_filterMap]
    refine List.filterMap_congr fun vb _ => ?_
    cases varbindTableValue vb with
    | error err => simp [Except.toOption]
    | ok text => simp [Except.toOption, Option.filter]
  rw [hreadings, valuesOf, List.filter_filter]
  split
  · next hname =>
    rw [List.map_eq_nil_iff, List.filter_eq_nil_iff]
    rintro ⟨name', value⟩ -
    simp only [Bool.and_eq_true, decide_eq_true_eq, not_and, not_not]
    rintro rfl
    exact hname
  · next hname =>
    rw [valuesOf]
    congr 1
    refine List.filter_congr ?_
    rintro ⟨name', value⟩ -
    by_cases hname' : name' = name
    · subst hname'
      simp [hname]
    · simp [hname']

/-- **The last one left over** with a name, in the list the task appends. -/
theorem lookup_merge_iff
    (h : unprocessedTrapVarbinds run.front.table run.loopMetrics = .ok unprocessed) :
    (mergeUnresolvedTrapVarbinds run.front.untranslated unprocessed).reverse.lookup name =
      some value ↔ run.LastLeft name value := by
  rw [mergeUnresolvedTrapVarbinds, lookup_eraseDups_iff, valuesOf_append, valuesOf_unprocessed h,
    LastLeft, ← mem_collect_iff, valuesOf_append]
  by_cases hname : name ∈ collectProcessedTrapOids run.loopMetrics
  · simp [hname]
  · simp [hname]

theorem unresolvedEntry_result_iff (hinclude : run.env.includeUnresolvedTrapVarbinds = true)
    (h : run.returned = .ok result) :
    unresolvedEntry result.result read.1 = some (unresolvedItem read) ↔
      run.LastLeft read.1 read.2 := by
  obtain ⟨-, unprocessed, hunprocessed, host, -, rfl⟩ := (returned_eq_ok_iff hinclude).mp h
  have hloop : ∀ oid, unresolvedEntry run.loopMetrics oid = none := fun oid =>
    unresolvedEntry_readTables _ _ oid
  show unresolvedEntry (appendUnresolvedTrapVarbinds _ run.loopMetrics) read.1 = _ ↔ _
  rw [unresolvedEntry_append _ hloop, Option.map_eq_some_iff, ← lookup_merge_iff hunprocessed]
  constructor
  · rintro ⟨value, hvalue, hitem⟩
    rw [← unresolvedItem_injective hitem]
    exact hvalue
  · intro hvalue
    exact ⟨_, hvalue, rfl⟩

theorem heldUnresolved_iff (hinclude : run.env.includeUnresolvedTrapVarbinds = true)
    (h : run.returned = .ok result) :
    HeldUnresolved result.result read ↔
      ∃ text, run.LastLeft read.1 text ∧ SameBest text read.2 :=
  exists_congr fun text =>
    and_congr_left fun _ => @unresolvedEntry_result_iff B run result (read.1, text) hinclude h

/-- What a stage records is in the result. -/
theorem resolvedIn_iff (hinclude : run.env.includeUnresolvedTrapVarbinds = true)
    (h : run.returned = .ok result) : run.ResolvedIn result.result pair ↔ run.Resolved pair := by
  obtain ⟨-, unprocessed, -, host, -, rfl⟩ := (returned_eq_ok_iff hinclude).mp h
  unfold ResolvedIn Resolved
  refine exists_congr fun stage => and_congr_right fun hstage => exists_congr fun vb =>
    and_congr_right fun _ => ?_
  rw [and_iff_left_iff_imp]
  intro hvb
  show Recorded (appendUnresolvedTrapVarbinds _ run.loopMetrics) vb
  rw [recorded_append, loopMetrics, recorded_readTables_iff]
  exact Or.inr ⟨stage.table, List.mem_map_of_mem hstage, vb,
    (List.mem_filter.mp (mem_writtenPart_iff.mpr hvb)).1, hvb.1, rfl, rfl⟩

/-- The task returns when every attempt settles, the address has a name, and every varbind it
reads the value of has a text. -/
theorem returns_iff (hinclude : run.env.includeUnresolvedTrapVarbinds = true) :
    (∃ result, run.returned = .ok result) ↔
      (∀ attempt ∈ run.attempts, attempt.Settles run.py) ∧
        (∀ vb ∈ run.front.table, ¬ run.KeepsEntry vb.identity.oid →
          ∃ text, varbindTableValue vb = .ok text) ∧
        ∃ host, resultHost run.env run.work.host = .ok host := by
  have hvalue : ∀ vb : ResponseVarbind,
      (∃ q, (do return (vb.identity.oid, ← varbindTableValue vb) : Except PyError TrapPair) =
        .ok q) ↔ ∃ text, varbindTableValue vb = .ok text := by
    intro vb
    cases varbindTableValue vb with
    | error err => exact iff_of_false (fun ⟨_, h⟩ => by cases h) fun ⟨_, h⟩ => by cases h
    | ok text => exact iff_of_true ⟨_, rfl⟩ ⟨_, rfl⟩
  have hunprocessed :
      (∃ unprocessed, unprocessedTrapVarbinds run.front.table run.loopMetrics = .ok unprocessed) ↔
        ∀ vb ∈ run.front.table, ¬ run.KeepsEntry vb.identity.oid →
          ∃ text, varbindTableValue vb = .ok text := by
    rw [unprocessedTrapVarbinds, PyError.mapM_returns_iff]
    simp only [hvalue, List.mem_filter, decide_eq_true_eq, mem_collect_iff, and_imp]
  rw [← hunprocessed]
  constructor
  · rintro ⟨result, h⟩
    obtain ⟨hsettled, unprocessed, h, host, hhost, -⟩ := (returned_eq_ok_iff hinclude).mp h
    exact ⟨hsettled, ⟨unprocessed, h⟩, host, hhost⟩
  · rintro ⟨hsettled, ⟨unprocessed, h⟩, host, hhost⟩
    exact ⟨_, (returned_eq_ok_iff hinclude).mpr ⟨hsettled, unprocessed, h, host, hhost, rfl⟩⟩

/-- **None is dropped exactly when** the varbinds that no stage records are kept apart. -/
theorem noneDropped_iff (run : TrapRun B)
    (hinclude : run.env.includeUnresolvedTrapVarbinds = true) :
    run.NoneDropped ↔ run.KeptApart := by
  constructor
  · rintro ⟨result, hreturned, hkept⟩
    obtain ⟨hsettled, hprinted, hhost⟩ := (returns_iff hinclude).mp ⟨result, hreturned⟩
    refine ⟨hsettled, hhost, hprinted, fun pair hpair hunresolved => ?_⟩
    rcases hkept pair hpair with hresolved | ⟨read, hread, hheld⟩
    · exact absurd ((resolvedIn_iff hinclude hreturned).mp hresolved) hunresolved
    · exact ⟨read, hread, (heldUnresolved_iff hinclude hreturned).mp hheld⟩
  · intro h
    obtain ⟨result, hreturned⟩ := (returns_iff hinclude).mpr ⟨h.settled, h.printed, h.host⟩
    refine ⟨result, hreturned, fun pair hpair => ?_⟩
    rw [resolvedIn_iff hinclude hreturned]
    by_cases hresolved : run.Resolved pair
    · exact Or.inl hresolved
    · obtain ⟨read, hread, hlast⟩ := h.last pair hpair hresolved
      exact Or.inr ⟨read, hread, (heldUnresolved_iff hinclude hreturned).mpr hlast⟩

/-- **Each varbind has one status exactly when** none that a stage records is the last one left
over with its identifier. -/
theorem oneStatus_iff (run : TrapRun B) (result : TrapResult)
    (hinclude : run.env.includeUnresolvedTrapVarbinds = true) (h : run.returned = .ok result) :
    run.OneStatus result ↔
      ∀ pair ∈ run.data, run.Resolved pair → ∀ read, run.Reads pair read →
        ¬ run.LastLeft read.1 read.2 := by
  unfold OneStatus
  simp only [resolvedIn_iff hinclude h, unresolvedEntry_result_iff hinclude h]
  constructor
  · intro hstatus pair hpair hresolved read hread hlast
    exact hstatus pair hpair ⟨hresolved, read, hread, hlast⟩
  · rintro hstatus pair hpair ⟨hresolved, read, hread, hlast⟩
    exact hstatus pair hpair hresolved read hread hlast

/-- Of two untranslated varbinds with one name and two values, one is dropped. -/
theorem not_noneDropped_of_repeated {other : TrapPair}
    (hinclude : run.env.includeUnresolvedTrapVarbinds = true) (hpair : pair ∈ run.data)
    (hother : other ∈ run.data) (hnone : run.front.translation pair = none)
    (hnone' : run.front.translation other = none) (hunresolved : ¬ run.Resolved pair)
    (hunresolved' : ¬ run.Resolved other) (hname : pair.1 = other.1)
    (hvalue : ¬ SameBest pair.2 other.2) : ¬ run.NoneDropped := by
  rintro ⟨result, hreturned, hkept⟩
  have hheld : ∀ {pair : TrapPair}, pair ∈ run.data → run.front.translation pair = none →
      ¬ run.Resolved pair → ∃ text, run.LastLeft pair.1 text ∧ SameBest text pair.2 := by
    intro pair hpair hnone hunresolved
    rcases hkept pair hpair with hresolved | ⟨read, hread, hheld⟩
    · exact absurd ((resolvedIn_iff hinclude hreturned).mp hresolved) hunresolved
    · cases hread.unique (Or.inl ⟨hnone, rfl⟩)
      exact (heldUnresolved_iff hinclude hreturned).mp hheld
  obtain ⟨text, hlast, hbest⟩ := hheld hpair hnone hunresolved
  obtain ⟨text', hlast', hbest'⟩ := hheld hother hnone' hunresolved'
  rw [← hname] at hlast'
  cases hlast.unique hlast'
  exact hvalue (hbest.trans_symm hbest')

/-- What the coercion of a value raises ends the task. -/
theorem not_returned_of_coerce {loc : NodeLocation} {node : IdentityNode} {err : PyError}
    {builder : B} (hbuilder : builder = (preloadTrapMibs run.env run.py run.st run.data).1.builder)
    (hpair : pair ∈ run.data)
    (hobject : run.py.resolveObject builder pair.1 (valueForTrapResolve pair.2) = .error .smiError)
    (hoid : oidValidator pair.1 = true) (hloc : locateTrapVarbind run.py builder pair.1 = .ok loc)
    (hnode : run.py.resolveIdentity builder loc = .ok node)
    (hcoerce : coerceTrapVarbindValue (valueForTrapResolve pair.2) node.mibNode = .error err) :
    run.returned ≠ .ok result := by
  intro h
  obtain ⟨metrics, hmetrics, -⟩ := Worked.andThen_eq_ok.mp h
  obtain ⟨hsettled, -⟩ := trapMetrics_eq_ok_iff.mp hmetrics
  have hfirst : (⟨builder, run.data⟩ : Attempt B) ∈ run.attempts := by
    rw [hbuilder]
    exact List.mem_append_left _ (List.mem_append_left _ List.mem_cons_self)
  exact not_settles_of_coerce hobject hoid hloc hnode hcoerce (hsettled _ hfirst pair hpair)

/-- **A numeral of too many digits** drops every varbind of its trap, unless the syntax of its
node is no integer. -/
theorem not_returned_of_ones {loc : NodeLocation} {node : IdentityNode} {builder : B} {n : ℕ}
    (hbuilder : builder = (preloadTrapMibs run.env run.py run.st run.data).1.builder)
    (hpair : (name, ones n) ∈ run.data) (hdigits : Text.maxDigits ≤ n)
    (hobject : run.py.resolveObject builder name (.str (ones n)) = .error .smiError)
    (hoid : oidValidator name = true) (hloc : locateTrapVarbind run.py builder name = .ok loc)
    (hnode : run.py.resolveIdentity builder loc = .ok node)
    (hbase : ∀ mibSyntax, mibSyntaxClass node.mibNode = some mibSyntax →
      mibSyntax.base = .integer) :
    run.returned ≠ .ok result := by
  obtain ⟨hinteger, hsame⟩ := integerString_of_isDecimalInteger (isDecimalInteger_ones n)
  have hblank : Text.isBlank (ones n) = false := by
    rw [Text.isBlank, strip_of_integerString hinteger, hsame, ones, String.toList_ofList]
    rfl
  have hvalue : valueForTrapResolve (ones n) = .str (ones n) := by
    rw [valueForTrapResolve, hblank, if_neg Bool.false_ne_true]
  have hcoerce : coerceTrapVarbindValue (valueForTrapResolve (ones n)) node.mibNode =
      .error .valueError := by
    rw [hvalue]
    exact coerce_ones hdigits hbase
  exact not_returned_of_coerce hbuilder hpair (by rw [hvalue]; exact hobject) hoid hloc hnode
    hcoerce

end TrapRun

/-! ### Two traps -/

/-- MIB modules never load, and nothing has a translation. -/
def noTranslations : PySnmp Unit where
  loadModules := fun builder _ => (builder, false)
  reread := fun _ vb => vb
  resolveObject := fun _ _ _ => .error .smiError
  nodeLocation := fun _ _ => .error .smiError
  resolveIdentity := fun _ _ => .error .smiError
  resolveLocated := fun _ _ _ => .error .smiError

/-- The setting with unresolved varbinds, and a MIB index. -/
def includingEnv (mibMap : Dict String String) : TrapEnv where
  config := ⟨mibMap, false⟩
  maxTrapVarbindsToDecode := 0
  includeUnresolvedTrapVarbinds := true
  splunkSourcetypeTraps := "sc4snmp:traps"
  ipv6Enabled := false
  resolveTrapAddress := false
  resolveAddress := .ok
  setOrder := id
  setOrder_perm := List.Perm.refl

/-- A trap with two varbinds that have no translation. -/
def untranslatedTrap (first second : TrapPair) : TrapRun Unit where
  env := includingEnv Dict.empty
  py := noTranslations
  st := freshMibState
  work := ⟨[first, second], "192.168.0.1", none⟩

/-- Two ports go down: one object of a vendor, with two values. -/
def portDown (port : String) : TrapPair := ("1.3.6.1.4.1.99999.1.0", "port " ++ port ++ " down")

/-- The name of the device. -/
def deviceName : TrapPair := ("1.3.6.1.4.1.99999.2.0", "core-1")

/-- Nothing is recorded of a trap without translations. -/
theorem not_resolved_of_emptyTable {run : TrapRun B} {pair : TrapPair}
    (h : run.front.table = []) : ¬ run.Resolved pair := by
  have hstages : run.stages = [run.front] := by
    unfold TrapRun.stages TrapRun.builders
    rw [h]
    rfl
  rintro ⟨stage, hstage, vb, -, -, before, after, hsplit, -⟩
  rw [hstages, List.mem_singleton] at hstage
  rw [hstage, h] at hsplit
  simp at hsplit

/-- Varbinds with two names are kept apart. -/
theorem noneDropped_iff_portDown :
    (untranslatedTrap (portDown "1") deviceName).NoneDropped ↔
      (untranslatedTrap (portDown "1") deviceName).KeptApart :=
  TrapRun.noneDropped_iff _ rfl

/-- The first of two values of one object is dropped. -/
theorem noneDropped_fails : ¬ (untranslatedTrap (portDown "1") (portDown "2")).NoneDropped := by
  have hbest : ¬ SameBest (portDown "1").2 (portDown "2").2 := by
    have hnone : PyFloat.ofText (portDown "1").2 = none := by decide
    rintro (h | ⟨x, h, -⟩)
    · exact absurd h (by decide)
    · rw [hnone] at h
      cases h
  have hname : (portDown "1").1 = (portDown "2").1 := rfl
  have htable : (untranslatedTrap (portDown "1") (portDown "2")).front.table = [] := by
    decide +kernel
  refine TrapRun.not_noneDropped_of_repeated rfl ?_ ?_ ?_ ?_ (not_resolved_of_emptyTable htable)
    (not_resolved_of_emptyTable htable) hname hbest
  · decide
  · decide
  · rfl
  · rfl

/-! A MIB that the metric loop loads defines the object of another varbind too. -/

/-- The name of a slot, which has no translation until the MIB is loaded. -/
def slotName : TrapPair := ("1.3.6.1.2.1.47.1.1.1.1.7.1", "Slot 1")

/-- The value of a sensor. -/
def sensorValue : TrapPair := ("1.3.6.1.2.1.99.1.1.1.4.1", "31")

/-- An object below `mib-2`, whose own MIB is not loaded; it has no syntax, so that its value
must be one of ASN.1. -/
def belowMib2 (loc : NodeLocation) : TrapValue → Except SmiFailure ResponseVarbind
  | .asn1 (.integer _ n _) =>
    let suffix := ".".intercalate (loc.suffix.map toString)
    .ok ⟨⟨"1.3.6.1.2.1." ++ suffix, "SNMPv2-SMI::mib-2." ++ suffix, "SNMPv2-SMI", "mib-2", []⟩,
      ⟨"Integer32", .ok (), .ok (toString n)⟩⟩
  | _ => .error .smiError

/-- pysnmp before and after `ENTITY-SENSOR-MIB` is loaded, with what it imports. -/
def sensorTranslations : PySnmp Bool where
  loadModules := fun _ _ => (true, true)
  reread := fun _ vb => vb
  resolveObject := fun loaded name _ =>
    if loaded = true ∧ name = slotName.1 then
      .ok ⟨⟨name, "ENTITY-MIB::entPhysicalName.1", "ENTITY-MIB", "entPhysicalName",
        [.single (.int 1)]⟩, ⟨"SnmpAdminString", .error .valueError, .ok "Slot 1"⟩⟩
    else if loaded = true ∧ name = sensorValue.1 then
      .ok ⟨⟨name, "ENTITY-SENSOR-MIB::entPhySensorValue.1", "ENTITY-SENSOR-MIB",
        "entPhySensorValue", [.single (.int 1)]⟩, ⟨"Integer32", .ok (), .ok "31"⟩⟩
    else .error .smiError
  nodeLocation := fun _ oid => .ok ⟨"SNMPv2-SMI", "mib-2", oid.drop 6⟩
  resolveIdentity := fun _ _ => .ok ⟨some ⟨none⟩, false⟩
  resolveLocated := fun _ loc value => belowMib2 loc value

/-- A trap with the two, of which the MIB index knows the sensor. -/
def sensorTrap : TrapRun Bool where
  env := includingEnv (Dict.ofList [("1.3.6.1.2.1.99", "ENTITY-SENSOR-MIB")])
  py := sensorTranslations
  st := ⟨false, [], []⟩
  work := ⟨[slotName, sensorValue], "192.168.0.1", none⟩

/-- The task returns for the trap with the sensor. -/
theorem returns_sensorTrap : ∃ result, sensorTrap.returned = .ok result := by
  have hok : sensorTrap.returned.toBool = true := by decide +kernel
  cases hreturned : sensorTrap.returned with
  | error err =>
    rw [hreturned] at hok
    cases hok
  | ok result => exact ⟨result, rfl⟩

theorem oneStatus_iff_sensorTrap :
    ∃ result, sensorTrap.returned = .ok result ∧
      (sensorTrap.OneStatus result ↔
        ∀ pair ∈ sensorTrap.data, sensorTrap.Resolved pair → ∀ read, sensorTrap.Reads pair read →
          ¬ sensorTrap.LastLeft read.1 read.2) := by
  obtain ⟨result, h⟩ := returns_sensorTrap
  exact ⟨result, h, TrapRun.oneStatus_iff sensorTrap result rfl h⟩

/-- The name of the slot is recorded after the load, and is an unresolved entry too. -/
theorem oneStatus_fails :
    ∃ result, sensorTrap.returned = .ok result ∧ ¬ sensorTrap.OneStatus result := by
  obtain ⟨result, h⟩ := returns_sensorTrap
  refine ⟨result, h, fun hstatus => hstatus slotName (by decide) ⟨?_, slotName, ?_, ?_⟩⟩
  · rw [TrapRun.resolvedIn_iff rfl h]
    -- the second stage records it
    refine ⟨stageAt sensorTranslations true sensorTrap.data, ?_, _, rfl, by decide +kernel, [], _,
      rfl, List.forall_mem_nil _⟩
    exact List.mem_cons_of_mem _ List.mem_cons_self
  · exact Or.inl ⟨by rfl, rfl⟩
  · rw [TrapRun.unresolvedEntry_result_iff rfl h]
    have huntranslated : valuesOf sensorTrap.front.untranslated slotName.1 = [slotName.2] := by
      decide +kernel
    have hreadings : valuesOf (sensorTrap.front.untranslated ++ sensorTrap.front.readings)
        slotName.1 = [slotName.2] := by decide +kernel
    have hlast : LastNew [slotName.2] slotName.2 :=
      ⟨[], [], rfl, List.not_mem_nil, List.forall_mem_nil _⟩
    by_cases hkeeps : sensorTrap.KeepsEntry slotName.1
    · exact Or.inl ⟨hkeeps, by rw [huntranslated]; exact hlast⟩
    · exact Or.inr ⟨hkeeps, by rw [hreadings]; exact hlast⟩

end Sc4snmp
