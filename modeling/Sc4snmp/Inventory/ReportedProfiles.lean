import Sc4snmp.Enrich.History
import Sc4snmp.Inventory.AssignedProfiles
import Sc4snmp.Inventory.ConditionOrder
import Sc4snmp.Inventory.ConditionalVarbinds
import Sc4snmp.Inventory.GeneratedProfiles
import Sc4snmp.Inventory.ProfileAssignment

/-!
# The polls of a host, from what it reported

`inventory_setup_poller` reads what `enrich` has stored of a host.  Here both are put
together: after any history of walks and polls, the profiles a host is polled with are
decided by what it reported last.  A conditional profile polls the rows of which the last
values meet its conditions, and a smart profile is assigned if one of its patterns is found
in the last value of its field.

## Main definitions

* `ReportSatisfies`, `SelectedRow` — the last reports of a row meet conditions.
* `foundTarget` — the target document as the task finds it.
* `ReportMatches` — a pattern is found in what was reported last.

## Main results

* `generateConditionalProfile_reported` — **the rows a conditional profile polls**.
* `inventorySetupPoller_reported` — **the polls of a host**.
-/

namespace Sc4snmp

open DocumentQuery
open Enrich (AttributesDoc EnrichCall EnrichDb EnrichEnv Evaluates HistoryRecorded Recordable
  Reports fieldNames groupKeys keyHash lastReports lastState recorded_runHistory runHistory)

/-! ### Rows that meet conditions -/

/-- What was reported last for the field of a condition compares as the condition says. -/
def ReportSatisfies (engine : RegexEngine) (reports : Reports MetricItem) (address g : String)
    (condition : ConditionClause) : Bool :=
  match conditionFilter condition with
  | .ok (_, comparison) =>
    comparison.holds engine
      ((reports address g condition.field).map fun item => item.value.toScalar)
  | .error _ => false

/-- A group is one of the family of a condition. -/
def GroupInFamily (engine : RegexEngine) (g : String) (condition : ConditionClause) : Bool :=
  match parseMibComponent (standardField condition.field) with
  | .ok mib => (familyFilter mib).2.holds engine (some (.text (keyHash g)))
  | .error _ => false

/-- A row of a host has reported something, is of the family of a condition, and meets all
conditions with its last reports. -/
structure SelectedRow (engine : RegexEngine) (reports : Reports MetricItem) (address : String)
    (conditions : List ConditionClause) (family : ConditionClause) (g : String) : Prop where
  reported : ∃ f, (reports address g f).isSome
  family : GroupInFamily engine g family = true
  meets : ∀ condition ∈ conditions, ReportSatisfies engine reports address g condition = true

/-- Contents that compare equal are one value for a condition. -/
def ComparesValues {γ : Type} (env : EnrichEnv MetricItem γ) : Prop :=
  ∀ c c', env.differs c c' = false → c.value.toScalar = c'.value.toScalar

/-- Conditions the database understands, whose fields are told apart from the fields that are
reported; the last one decides about the family. -/
structure Answerable (engine : RegexEngine) (F : Set String) (conditions : List ConditionClause)
    (family : ConditionClause) : Prop where
  last : conditions.getLast? = some family
  formed : ∀ condition ∈ conditions, WellFormed engine condition
  own : ∀ condition ∈ conditions, ∀ f ∈ F, keyHash f = keyHash condition.field →
    f = condition.field

section Rows

variable {γ : Type} {env : EnrichEnv MetricItem γ} {engine : RegexEngine} {G F : Set String}
  {indexesOf : String → List IndexValue} {done : List (EnrichCall MetricItem γ)}
  {db : EnrichDb MetricItem γ} {address g : String} {doc : AttributesDoc MetricItem}
  {conditions : List ConditionClause} {family : ConditionClause}

theorem attributeAt_groupKeyHash (doc : AttributesDoc MetricItem) :
    attributeAt doc "group_key_hash" = some (.text doc.groupKeyHash) := rfl

theorem inFamily_eq (hhash : doc.groupKeyHash = keyHash g) (condition : ConditionClause) :
    InFamily engine doc condition = GroupInFamily engine g condition := by
  unfold InFamily GroupInFamily
  cases parseMibComponent (standardField condition.field) with
  | error err => rfl
  | ok mib =>
    have hattribute : attributeAt doc (familyFilter mib).1 = some (.text (keyHash g)) := by
      rw [familyFilter, attributeAt_groupKeyHash, hhash]
    dsimp only
    rw [hattribute]

/-- **A document meets a condition** exactly if what its group reported last does. -/
theorem satisfies_eq_reportSatisfies (hvalues : ComparesValues env)
    (h : HistoryRecorded env G F indexesOf done db) (hg : g ∈ G)
    (hdoc : db.docOf address (keyHash g) = some doc) {condition : ConditionClause}
    (hown : ∀ f ∈ F, keyHash f = keyHash condition.field → f = condition.field) :
    Satisfies engine doc condition =
      ReportSatisfies engine (lastReports done) address g condition := by
  unfold ReportSatisfies
  cases hfilter : conditionFilter condition with
  | error err =>
    unfold Satisfies
    rw [hfilter]
  | ok filter =>
    obtain ⟨path, comparison⟩ := filter
    have hpath : path = fieldPath condition.field := by
      obtain ⟨negate, -, hrest⟩ := PyError.bind_eq_ok.mp hfilter
      obtain ⟨comparison', -, hrest⟩ := PyError.bind_eq_ok.mp hrest
      cases hrest
      rfl
    rw [satisfies_eq hfilter, hpath, attributeAt_fieldPath]
    exact congrArg (comparison.holds engine) (h.field_eq hvalues hg hdoc hown)

/-- **The documents that meet conditions** are those of the rows that do. -/
theorem mem_filterConditionOnDatabase_iff (hvalues : ComparesValues env)
    (h : HistoryRecorded env G F indexesOf done db) (hinj : Set.InjOn keyHash G)
    (hconditions : Answerable engine F conditions family) (address : String) :
    ∃ found, filterConditionOnDatabase engine db.attributes address conditions = .ok found ∧
      ∀ doc, doc ∈ found ↔ ∃ g ∈ G, db.docOf address (keyHash g) = some doc ∧
        SelectedRow engine (lastReports done) address conditions family g := by
  refine ⟨_, filterConditionOnDatabase_wellFormed hconditions.last hconditions.formed address
    db.attributes, fun doc => ?_⟩
  have hmeets : ∀ g ∈ G, db.docOf address (keyHash g) = some doc → ∀ condition ∈ conditions,
      Satisfies engine doc condition =
        ReportSatisfies engine (lastReports done) address g condition :=
    fun g hg hdoc condition hcondition =>
      satisfies_eq_reportSatisfies hvalues h hg hdoc (hconditions.own condition hcondition)
  rw [List.mem_filter, decide_eq_true_eq]
  constructor
  · rintro ⟨hmem, haddress, hfamily, hall⟩
    obtain ⟨g, hg, hhash, -, -⟩ := h.represents.only doc hmem
    have hdoc : db.docOf address (keyHash g) = some doc := by
      rw [← hhash, ← haddress]
      exact h.represents.unique.docOf hmem
    refine ⟨g, hg, hdoc, (h.docOf_isSome_iff hinj hg).mp (by rw [hdoc]; rfl), ?_, ?_⟩
    · exact (inFamily_eq hhash family).symm.trans hfamily
    · exact fun condition hcondition =>
        (hmeets g hg hdoc condition hcondition).symm.trans (hall condition hcondition)
  · rintro ⟨g, hg, hdoc, -, hfamily, hall⟩
    obtain ⟨hmem, haddress, hhash⟩ := Enrich.mem_attributes_of_docOf hdoc
    refine ⟨hmem, haddress, (inFamily_eq hhash family).trans hfamily, ?_⟩
    exact fun condition hcondition =>
      (hmeets g hg hdoc condition hcondition).trans (hall condition hcondition)

/-- **The indexes that are found** are those of the rows that meet the conditions. -/
theorem mem_conditionRecords_iff (hvalues : ComparesValues env)
    (h : HistoryRecorded env G F indexesOf done db) (hinj : Set.InjOn keyHash G)
    (hconditions : Answerable engine F conditions family) {items : String → List VarbindItem}
    (hitems : ∀ g ∈ G, (indexesOf g).mapM IndexValue.storedItem = .ok (items g))
    (address : String) :
    ∃ records, conditionRecords engine db.attributes address conditions = .ok records ∧
      ∀ record, record ∈ records ↔ ∃ g ∈ G, record = items g ∧
        SelectedRow engine (lastReports done) address conditions family g := by
  obtain ⟨found, hfound, hmem⟩ :=
    mem_filterConditionOnDatabase_iff hvalues h hinj hconditions address
  have hrecord : ∀ g ∈ G, ∀ doc, db.docOf address (keyHash g) = some doc →
      recordIndexes doc = .ok (items g) := by
    intro g hg doc hdoc
    obtain ⟨hattributes, -, -⟩ := Enrich.mem_attributes_of_docOf hdoc
    have hid := h.represents.idsIn hinj address g hg doc hdoc
    rw [recordIndexes, (h.docs doc hattributes).2 g hid]
    exact hitems g hg
  obtain ⟨records, hrecords⟩ : ∃ records, found.mapM recordIndexes = .ok records := by
    refine PyError.mapM_returns_iff.mpr fun doc hdoc => ?_
    obtain ⟨g, hg, hdocOf, -⟩ := (hmem doc).mp hdoc
    exact ⟨_, hrecord g hg doc hdocOf⟩
  refine ⟨records, PyError.bind_eq_ok.mpr ⟨found, hfound, hrecords⟩, fun record => ?_⟩
  rw [(PyError.mapM_eq_ok hrecords).2 record]
  constructor
  · rintro ⟨doc, hdoc, heq⟩
    obtain ⟨g, hg, hdocOf, hselected⟩ := (hmem doc).mp hdoc
    exact ⟨g, hg, Except.ok.inj (heq.symm.trans (hrecord g hg doc hdocOf)), hselected⟩
  · rintro ⟨g, hg, rfl, hselected⟩
    obtain ⟨doc, hdocOf⟩ :=
      Option.isSome_iff_exists.mp ((h.docOf_isSome_iff hinj hg).mpr hselected.reported)
    exact ⟨doc, (hmem doc).mpr ⟨g, hg, hdocOf, hselected⟩, hrecord g hg doc hdocOf⟩

end Rows

/-- The varbinds of a generated profile. -/
theorem mem_createProfile {frequency : Option ℤ} {varbinds records : List (List VarbindItem)} :
    ∃ polled, createProfile frequency varbinds records =
        { frequency := frequency, varBinds := some polled } ∧
      ∀ varbind, varbind ∈ polled ↔ ∃ record ∈ records, ∃ object ∈ varbinds,
        object.length = 2 ∧ varbind = object ++ record := by
  refine ⟨_, rfl, fun varbind => ?_⟩
  simp only [List.mem_flatMap, List.mem_map, List.mem_filter, decide_eq_true_eq, and_assoc,
    eq_comm (a := varbind)]

section Reported

variable {γ : Type} {env : EnrichEnv MetricItem γ} {text : MetricItem → Option String}
  {engine : RegexEngine} {indexesOf : String → List IndexValue}
  {calls : List (EnrichCall MetricItem γ)} {db : EnrichDb MetricItem γ}

/-- **The rows a conditional profile polls**, after any history of walks and polls: it has each
of its objects for exactly the rows whose last reports meet its conditions. -/
theorem generateConditionalProfile_reported (hmongo : Evaluates env text)
    (hvalues : ComparesValues env) (hcalls : Recordable env text indexesOf calls)
    (htargets : db.targets = Dict.empty) (hattributes : db.attributes = []) (poller : PollerEnv)
    (address : String) {body : ProfileBody} {conditions : List ConditionClause}
    {family : ConditionClause} (hbody : body.conditions = some conditions)
    (hconditions : Answerable engine (fieldNames calls) conditions family)
    {varbinds : List (List VarbindItem)} (hvarbinds : body.varBinds = some varbinds)
    (hne : varbinds ≠ []) {items : String → List VarbindItem}
    (hitems : ∀ g ∈ groupKeys calls, (indexesOf g).mapM IndexValue.storedItem = .ok (items g)) :
    ∃ polled, generateConditionalProfile
        (poller.withAttributes engine (runHistory env db calls).1.attributes) body address =
          .ok { frequency := body.frequency, varBinds := some polled } ∧
      ∀ varbind, varbind ∈ polled ↔ ∃ g ∈ groupKeys calls,
        SelectedRow engine (lastReports calls) address conditions family g ∧
          ∃ object ∈ varbinds, object.length = 2 ∧ varbind = object ++ items g := by
  have hrecorded := recorded_runHistory hmongo hcalls htargets hattributes
  obtain ⟨records, hrecords, hmem⟩ := mem_conditionRecords_iff hvalues hrecorded
    hcalls.distinct.groups hconditions hitems address
  obtain ⟨polled, hpolled, hpolledMem⟩ := @mem_createProfile body.frequency varbinds records
  refine ⟨polled, ?_, fun varbind => ?_⟩
  · obtain ⟨first, rest, rfl⟩ := List.exists_cons_of_ne_nil hne
    rw [generateConditionalProfile, hvarbinds, hbody]
    refine PyError.bind_eq_ok.mpr ⟨records, hrecords, ?_⟩
    rw [hpolled]
    rfl
  · rw [hpolledMem]
    constructor
    · rintro ⟨record, hrecord, hobject⟩
      obtain ⟨g, hg, rfl, hselected⟩ := (hmem record).mp hrecord
      exact ⟨g, hg, hselected, hobject⟩
    · rintro ⟨g, hg, hselected, hobject⟩
      exact ⟨items g, (hmem _).mpr ⟨g, hg, rfl, hselected⟩, hobject⟩

/-! ### The state of the target -/

/-- The target document of a host as the task finds it. -/
def foundTarget (db : EnrichDb MetricItem γ) (address : String) : Option (Option TargetState) :=
  (db.targets.get? address).map fun doc =>
    if doc.state.entries.isEmpty then none
    else some (doc.state.mapValues fun cv => some cv.content.value)

/-- A pattern is found in what was reported last for a tracked field. -/
def ReportMatches (poller : PollerEnv) (calls : List (EnrichCall MetricItem γ))
    (address field : String) (patterns : List String) : Prop :=
  ∃ cv, lastState calls address field = some cv ∧
    ∃ pattern ∈ patterns, poller.search pattern cv.content.value = .ok true

/-- **The fields that match** are those whose last reports do. -/
theorem fieldMatches_foundTarget (hcalls : HistoryRecorded env (groupKeys calls) (fieldNames calls)
      indexesOf calls db) (poller : PollerEnv) (address : String) :
    FieldMatches poller (foundTarget db address) = ReportMatches poller calls address := by
  funext field patterns
  have hstate : (db.target address).state.get? (Text.replaceChar '.' '|' field) =
      lastState calls address field := hcalls.state address field
  rw [FieldMatches, ReportMatches, ← hstate, foundTarget, EnrichDb.target, Dict.getD, eq_iff_iff]
  cases hdoc : db.targets.get? address with
  | none => simp
  | some doc =>
    by_cases hempty : doc.state.entries = []
    · have hnone : doc.state.get? (Text.replaceChar '.' '|' field) = none := by
        rw [Dict.get?, hempty]
        rfl
      simp [hnone]
    · cases hcv : doc.state.get? (Text.replaceChar '.' '|' field) <;> simp [hempty, hcv]

/-! ### The polls -/

/-- The name of a poll has its target in it. -/
theorem isMatch_pollKey {target : String} (h : Glob.Plain target.toList) (period : ℤ) :
    Glob.isMatch (ScheduleStore.targetPattern target) (pollKey target period) = true := by
  rw [ScheduleStore.isMatch_targetPattern h]
  refine ⟨"redbeat:sc4snmp;".toList, (toString period ++ ";poll").toList, ?_⟩
  simp [pollKey, redbeatKey, pollTaskName, String.toList_append]

/-- A profile is for a host, at a frequency: it is one of the collection, or the one that is
generated for the host from one of the collection. -/
def PolledAt (poller : PollerEnv) (ir : InventoryRecord) (Matches : String → List String → Prop)
    (address : String) (profiles : Dict String ProfileBody) (t : ℤ) (p : String) : Prop :=
  ∃ name body, profiles.get? name = some body ∧ body.frequency = some t ∧
    (p = name ∧ PolledAsIs poller ir Matches name body ∨
      PolledUnderTag poller ir address p name body)

/-- **The polls of a host**, after any history of walks and polls: at each frequency there is
an entry with exactly the profiles that are for the host by its last reports, a poll unless
another task has its name, and no poll where there are no such profiles.  What does not have
the address of the host in its name is left, and the profiles that are generated for it are in
the collection. -/
theorem inventorySetupPoller_reported (hmongo : Evaluates env text)
    (hcalls : Recordable env text indexesOf calls) (htargets : db.targets = Dict.empty)
    (hattributes : db.attributes = []) {poller : PollerEnv} {ir : InventoryRecord} {work : PollWork}
    (hplain : Glob.Plain work.address.toList) {profiles : Dict String ProfileBody}
    {documents documents' : List (String × ProfileBody)} {schedules schedules' : ScheduleStore}
    (hreadable : schedules.Readable)
    (h : inventorySetupPoller poller
      ⟨some ir, foundTarget (runHistory env db calls).1 work.address⟩ work profiles documents
        schedules = (documents', .ok schedules')) :
    (∀ t p, PolledAt poller ir (ReportMatches poller calls work.address) work.address profiles t p →
      ∃ e ps, schedules'.lookup? (pollKey work.address t) = some e ∧
        e.target = some work.address ∧ e.schedule = t ∧
        (¬ TakenFrequency work schedules t → e.task = pollTask) ∧
        e.kwargs.get? "profiles" = some (.list ps) ∧ ∀ q, q ∈ ps ↔
          PolledAt poller ir (ReportMatches poller calls work.address) work.address profiles t q) ∧
      (∀ t, (∀ p, ¬ PolledAt poller ir (ReportMatches poller calls work.address) work.address
          profiles t p) →
        ∀ e, schedules'.lookup? (pollKey work.address t) = some e → e.task ≠ pollTask) ∧
      (∀ k, Glob.isMatch (ScheduleStore.targetPattern work.address) k = false →
        schedules'.lookup? k = schedules.lookup? k) ∧
      ∀ name body generated, name ∈ ir.profiles → profiles.get? name = some body →
        isConditional body = true →
          generateConditionalProfile poller body work.address = .ok generated →
            (profileTag name work.address, generated) ∈ documents' := by
  have hrecorded := recorded_runHistory hmongo hcalls htargets hattributes
  unfold inventorySetupPoller at h
  split at h
  · cases h
  · next documents₁ assigned hsetup =>
    obtain ⟨rfl, hrun⟩ := Prod.mk.inj h
    obtain ⟨hadds, hdocuments⟩ := adds_setupProfiles rfl hsetup
    rw [fieldMatches_foundTarget hrecorded] at hadds
    obtain ⟨s', hrun', hafter⟩ := reconcilePolls_spec work assigned hreadable
    cases hrun.symm.trans hrun'
    refine ⟨fun t p hp => ?_, fun t hnone e he => ?_, fun k hk => ?_, hdocuments⟩
    · obtain ⟨ps, hps, -⟩ := hadds.holds_iff.mpr hp
      have hcarries : Carries (scheduledPoll work t ps
          (schedules.lookup? (pollKey work.address t))) t ps := scheduledPoll_carries
      obtain ⟨hschedule, -, ps', hps', hmem⟩ := hcarries
      refine ⟨_, ps', hafter.scheduled t ps hps, scheduledPoll_target, hschedule,
        fun hfree => (isPollOf_scheduledPoll.mpr hfree).1, hps', fun q => ?_⟩
      rw [hmem]
      have hq : q ∈ ps ↔ Buckets.Holds assigned t q := by simp [Buckets.Holds, hps]
      exact hq.trans hadds.holds_iff
    · -- a poll at a frequency of no profile is deleted
      have hnotMem : t ∉ assigned.keys := fun hmem =>
        (hadds.mem_keys_iff.mp hmem).elim hnone
      have hother : ∀ period ∈ assigned.keys,
          pollKey work.address t ≠ pollKey work.address period :=
        fun period hperiod heq => hnotMem (pollKey_injective work.address heq ▸ hperiod)
      rw [hafter.other _ hother, Option.filter_eq_some_iff, isMatch_pollKey hplain] at he
      simpa using he.2
    · have hother : ∀ period ∈ assigned.keys, k ≠ pollKey work.address period := by
        rintro period - rfl
        rw [isMatch_pollKey hplain] at hk
        cases hk
      rw [hafter.other k hother, hk]
      cases schedules.lookup? k <;> simp

end Reported

/-! ### A host that reports its name and an interface -/

/-- The text of the value of an item. -/
def MetricItem.text? (item : MetricItem) : Option String := item.value.text?

/-- A text that is an expression is no text any more. -/
def withoutExpression (field : Enrich.Stored MetricItem) : Enrich.Stored MetricItem :=
  if field.content.text?.any Enrich.isExpression then
    { field with content := { field.content with value := .str "" } }
  else field

/-- A Mongo that finds nothing under a path. -/
def pathlessEnv : EnrichEnv MetricItem ℤ where
  differs := fun c c' => c ≠ c'
  uptime := .ok
  threshold := ⟨1, Nat.one_pos⟩
  evaluate := fun _ => withoutExpression
  evaluateState := fun _ => withoutExpression
  bulkOrder := id
  bulkOrder_perm := fun _ => List.Perm.refl _

theorem withoutExpression_of_literal {field : Enrich.Stored MetricItem}
    (h : ∀ s, field.content.text? = some s → Enrich.isExpression s = false) :
    withoutExpression field = field := by
  unfold withoutExpression
  cases htext : field.content.text? with
  | none => rfl
  | some s => simp [h s htext]

theorem withoutExpression_plain (field : Enrich.Stored MetricItem) {s : String}
    (hs : (withoutExpression field).content.text? = some s) : Enrich.isExpression s = false := by
  unfold withoutExpression at hs
  split at hs
  · cases hs
    decide
  · next hplain =>
    rw [hs] at hplain
    simpa using hplain

theorem evaluates_pathlessEnv : Evaluates pathlessEnv MetricItem.text? where
  literal _ _ h := withoutExpression_of_literal h
  literalState _ _ h := withoutExpression_of_literal h
  path _ _ field _ hs := withoutExpression_plain field hs
  pathState _ _ field _ hs := withoutExpression_plain field hs
  equal c c' h := by
    have heq : c = c' := by simpa [pathlessEnv] using h
    rw [heq]

/-- A walk of a host with one interface. -/
def hostReport (sysName ifAdminStatus : String) : EnrichCall MetricItem ℤ where
  address := "10.0.0.1:161"
  result := Dict.ofList
    [("SNMPv2-MIB::tuple=int=0",
      ⟨Dict.ofList [("SNMPv2-MIB.sysName", ⟨.f, .str sysName, "1.3.6.1.2.1.1.5.0"⟩)], Dict.empty,
        [.int 0]⟩),
      ("IF-MIB::int=1",
      ⟨Dict.ofList [("IF-MIB.ifAdminStatus", ⟨.f, .str ifAdminStatus, "1.3.6.1.2.1.2.2.1.7.1"⟩)],
        Dict.empty, [.int 1]⟩)]

/-- The host is renamed, and its interface goes up. -/
def hostReports : List (EnrichCall MetricItem ℤ) :=
  [hostReport "Switch" "down", hostReport "Router" "up"]

/-- The index of its interface, and none of the rest. -/
def hostIndexes (g : String) : List IndexValue := if g = "IF-MIB::int=1" then [.int 1] else [.int 0]

theorem groups_hostReport {sysName ifAdminStatus g : String}
    {group : Enrich.ResultGroup MetricItem ℤ}
    (h : (hostReport sysName ifAdminStatus).result.get? g = some group) :
    group.indexes = hostIndexes g ∧ group.metrics = Dict.empty ∧
      (g = "SNMPv2-MIB::tuple=int=0" ∧ group.fields.entries =
          [("SNMPv2-MIB.sysName", ⟨.f, .str sysName, "1.3.6.1.2.1.1.5.0"⟩)] ∨
        g = "IF-MIB::int=1" ∧ group.fields.entries =
          [("IF-MIB.ifAdminStatus", ⟨.f, .str ifAdminStatus, "1.3.6.1.2.1.2.2.1.7.1"⟩)]) := by
  rcases List.mem_pair.mp (Dict.mem_entries_iff.mpr h) with heq | heq
  · obtain ⟨rfl, rfl⟩ := Prod.mk.inj heq
    exact ⟨rfl, rfl, Or.inl ⟨rfl, rfl⟩⟩
  · obtain ⟨rfl, rfl⟩ := Prod.mk.inj heq
    exact ⟨rfl, rfl, Or.inr ⟨rfl, rfl⟩⟩

theorem reported_hostReport {sysName ifAdminStatus g f : String} {c : MetricItem}
    (h : (hostReport sysName ifAdminStatus).reported g f = some c) :
    f = "SNMPv2-MIB.sysName" ∧ c.text? = some sysName ∨
      f = "IF-MIB.ifAdminStatus" ∧ c.text? = some ifAdminStatus := by
  obtain ⟨group, hgroup, hget⟩ := Option.bind_eq_some_iff.mp h
  have hmem := Dict.mem_entries_iff.mpr hget
  obtain ⟨-, -, ⟨-, hfields⟩ | ⟨-, hfields⟩⟩ := groups_hostReport hgroup
  · rw [hfields] at hmem
    obtain ⟨rfl, rfl⟩ := Prod.mk.inj (List.mem_singleton.mp hmem)
    exact Or.inl ⟨rfl, rfl⟩
  · rw [hfields] at hmem
    obtain ⟨rfl, rfl⟩ := Prod.mk.inj (List.mem_singleton.mp hmem)
    exact Or.inr ⟨rfl, rfl⟩

theorem fieldNames_hostReports :
    fieldNames hostReports ⊆ {"SNMPv2-MIB.sysName", "IF-MIB.ifAdminStatus"} := by
  rintro f ⟨call, hcall, g, hf⟩
  obtain ⟨c, hc⟩ := Option.isSome_iff_exists.mp hf
  rcases List.mem_pair.mp hcall with rfl | rfl <;>
  · rcases reported_hostReport hc with ⟨rfl, -⟩ | ⟨rfl, -⟩ <;> simp

theorem groupKeys_hostReports :
    groupKeys hostReports ⊆ {"SNMPv2-MIB::tuple=int=0", "IF-MIB::int=1"} := by
  rintro g ⟨call, hcall, hg⟩
  obtain ⟨group, hgroup⟩ := Dict.mem_keys_iff.mp hg
  rcases List.mem_pair.mp hcall with rfl | rfl <;>
  · obtain ⟨-, -, ⟨rfl, -⟩ | ⟨rfl, -⟩⟩ := groups_hostReport hgroup <;> simp

theorem recordable_hostReports :
    Recordable pathlessEnv MetricItem.text? hostIndexes hostReports where
  distinct :=
    ⟨(Set.injOn_pair.mpr fun h => absurd h (by decide +kernel)).mono groupKeys_hostReports,
      (Set.injOn_pair.mpr fun h => absurd h (by decide +kernel)).mono fieldNames_hostReports⟩
  plain := by
    intro call hcall g f s hs
    obtain ⟨c, hc, hs⟩ := hs
    rcases List.mem_pair.mp hcall with rfl | rfl <;>
    · rcases reported_hostReport hc with ⟨-, htext⟩ | ⟨-, htext⟩ <;>
      · cases htext.symm.trans hs
        decide
  uptimes := fun _ _ _ _ metric _ => ⟨metric, rfl⟩
  indexes := by
    intro call hcall g group hgroup
    rcases List.mem_pair.mp hcall with rfl | rfl <;> exact (groups_hostReport hgroup).1

/-- What the index of a group is stored as. -/
def hostItems (g : String) : List VarbindItem := if g = "IF-MIB::int=1" then [.int 1] else [.int 0]

theorem storedItems_hostIndexes (g : String) :
    (hostIndexes g).mapM IndexValue.storedItem = .ok (hostItems g) := by
  unfold hostIndexes hostItems
  split <;> rfl

theorem answerable_interfaceUp :
    Answerable plainEngine (fieldNames hostReports) [interfaceUp] interfaceUp where
  last := rfl
  formed condition hcondition :=
    wellFormed_twoConditions condition
      (List.mem_pair.mpr (Or.inl (List.mem_singleton.mp hcondition)))
  own condition hcondition f hf hhash := by
    obtain rfl := List.mem_singleton.mp hcondition
    rcases fieldNames_hostReports hf with rfl | rfl
    · exact absurd hhash (by decide +kernel)
    · rfl

/-- The interface that went up is polled. -/
theorem generateConditionalProfile_reported_up : ∃ polled,
    generateConditionalProfile (accessEnv.withAttributes plainEngine
        (runHistory pathlessEnv ⟨Dict.empty, [], []⟩ hostReports).1.attributes) interfaceProfile
      "10.0.0.1:161" = .ok { frequency := some 30, varBinds := some polled } ∧
      [.str "IF-MIB", .str "ifDescr", .int 1] ∈ polled := by
  have hvalues : ComparesValues pathlessEnv := by
    intro c c' h
    have heq : c = c' := by simpa [pathlessEnv] using h
    rw [heq]
  obtain ⟨polled, hrun, hmem⟩ := @generateConditionalProfile_reported ℤ pathlessEnv
    MetricItem.text? plainEngine hostIndexes hostReports ⟨Dict.empty, [], []⟩ evaluates_pathlessEnv
    hvalues recordable_hostReports rfl rfl accessEnv "10.0.0.1:161" interfaceProfile [interfaceUp]
    interfaceUp rfl answerable_interfaceUp [[.str "IF-MIB", .str "ifDescr"]] rfl
    (List.cons_ne_nil _ _) hostItems fun g _ => storedItems_hostIndexes g
  refine ⟨polled, hrun, (hmem _).mpr ⟨"IF-MIB::int=1", ?_, ⟨?_, ?_, ?_⟩, ?_⟩⟩
  · exact ⟨_, List.mem_cons_self, by decide +kernel⟩
  · exact ⟨"IF-MIB.ifAdminStatus", by decide +kernel⟩
  · decide +kernel
  · intro condition hcondition
    obtain rfl := List.mem_singleton.mp hcondition
    decide +kernel
  · exact ⟨_, List.mem_singleton_self _, rfl, by decide +kernel⟩

/-- Two polls of the host, at a frequency of the smart profile for routers and at one of no
profile, and a poll of another host. -/
def pollsBefore : ScheduleStore :=
  ((ScheduleStore.empty.save (generatePollTaskDefinition ⟨"10.0.0.1:161", .none, some 60⟩ 60
    ["BaseUpTime"]).newEntry).save (generatePollTaskDefinition ⟨"10.0.0.1:161", .none, some 60⟩ 600
      ["BaseUpTime"]).newEntry).save (generatePollTaskDefinition ⟨"2.2.2.2:161", .none, some 60⟩ 60
        ["BaseUpTime"]).newEntry

theorem readable_pollsBefore : pollsBefore.Readable :=
  ((ScheduleStore.readable_empty.save _).save _).save _

/-- The setup of that host, with a smart profile for routers. -/
def hostSetup : List (String × ProfileBody) × Except PyError ScheduleStore :=
  inventorySetupPoller literalEnv
    ⟨some routerRecord, foundTarget
      (runHistory pathlessEnv ⟨Dict.empty, [], []⟩ hostReports).1 "10.0.0.1:161"⟩
    ⟨"10.0.0.1:161", .none, some 60⟩ routerConfig [] pollsBefore

/-- The host that is named `Router` now is polled with the profile for routers.  Its poll at
another frequency is deleted, and that of the other host is left. -/
theorem inventorySetupPoller_reported_router : ∃ documents schedules e ps,
    hostSetup = (documents, .ok schedules) ∧
      schedules.lookup? (pollKey "10.0.0.1:161" 60) = some e ∧ e.task = pollTask ∧
        e.kwargs.get? "profiles" = some (.list ps) ∧ "routers" ∈ ps ∧
      (∀ e, schedules.lookup? (pollKey "10.0.0.1:161" 600) = some e → e.task ≠ pollTask) ∧
      schedules.lookup? (pollKey "2.2.2.2:161" 60) =
        pollsBefore.lookup? (pollKey "2.2.2.2:161" 60) := by
  have hreturns : hostSetup.2.toOption.isSome = true := by decide +kernel
  obtain ⟨schedules, hschedules⟩ : ∃ schedules, hostSetup.2 = .ok schedules := by
    cases hsetup : hostSetup.2 with
    | error err =>
      rw [hsetup] at hreturns
      cases hreturns
    | ok schedules => exact ⟨schedules, rfl⟩
  have hrun : hostSetup = (hostSetup.1, .ok schedules) := Prod.ext rfl hschedules
  have hpolled : PolledAt literalEnv routerRecord
      (ReportMatches literalEnv hostReports "10.0.0.1:161") "10.0.0.1:161" routerConfig 60
      "routers" := by
    refine ⟨"routers", _, rfl, rfl, Or.inl ⟨rfl, Or.inl ⟨rfl, _, rfl, Or.inr ⟨rfl, _, _, rfl, rfl,
      _, rfl, "Router", List.mem_singleton_self _, ?_⟩⟩⟩⟩
    decide +kernel
  have hnone : ∀ p, ¬ PolledAt literalEnv routerRecord
      (ReportMatches literalEnv hostReports "10.0.0.1:161") "10.0.0.1:161" routerConfig 600 p := by
    rintro p ⟨name, body, hget, hfrequency, -⟩
    have hfrequencies : ∀ entry ∈ routerConfig.entries, entry.2.frequency ≠ some 600 := by decide
    exact hfrequencies _ (Dict.mem_entries_iff.mpr hget) hfrequency
  have hfree : ¬ TakenFrequency ⟨"10.0.0.1:161", .none, some 60⟩ pollsBefore 60 := by
    rintro ⟨e, he, htask⟩
    have hpoll : (pollsBefore.lookup? (pollKey "10.0.0.1:161" 60)).map
        RedBeatSchedulerEntry.task = some pollTask := by decide +kernel
    rw [he, Option.map_some, Option.some.injEq] at hpoll
    exact htask hpoll
  obtain ⟨hpolls, hdeleted, hleft, -⟩ := @inventorySetupPoller_reported ℤ pathlessEnv
    MetricItem.text? hostIndexes hostReports ⟨Dict.empty, [], []⟩ evaluates_pathlessEnv
    recordable_hostReports rfl rfl literalEnv routerRecord ⟨"10.0.0.1:161", .none, some 60⟩
    (by decide) routerConfig [] hostSetup.1 pollsBefore schedules readable_pollsBefore hrun
  obtain ⟨e, ps, he, -, -, htask, hps, hmem⟩ := hpolls 60 "routers" hpolled
  exact ⟨hostSetup.1, schedules, e, ps, hrun, he, htask hfree, hps,
    (hmem "routers").mpr hpolled, hdeleted 600 hnone, hleft _ (by decide +kernel)⟩

end Sc4snmp
