import Sc4snmp.Splunk.JsonValidity

/-!
# The events of a trap

Each group of a trap has an event of its own, or all have one together.  The groups of a
trap with several rows have the same symbols, and the aggregated event has one entry for
each: that of the last group.  A trap of which nothing was resolved has no groups, and no
event to aggregate the others into.

## Main definitions

* `Convertible` — an item `value_as_best` takes.
* `WorkGroup.shown` — the entries of the event of a group.
* `TrapPrepared` — nothing raises, and the aggregated event loses nothing.
* `TrapPreparable` — when this is so.

## Main results

* `get?_trapEvent` — what the event of a group has.
* `prepareTrapData_prepared_iff` — **exactly then**.
-/

namespace Sc4snmp

namespace Splunk

variable {env : SplunkEnv} {work : Work} {groups : List WorkGroup}

/-! ### Items -/

/-- An item with a value that is no integer too large for a float. -/
def Convertible (item : Item) : Prop :=
  ∃ v, item.get? "value" = some v ∧ ∀ i, v = .int i → (PyFloat.ofInt i).isSome

theorem valueAsBest_returns_iff (v : Json) :
    (∃ w, valueAsBest v = .ok w) ↔ ∀ i, v = .int i → (PyFloat.ofInt i).isSome := by
  cases v with
  | int i => cases hi : PyFloat.ofInt i <;> simp [valueAsBest, hi]
  | str s =>
    simp only [valueAsBest]
    split
    · simp
    · cases PyFloat.ofText s <;> simp
  | _ => simp [valueAsBest]

theorem bestItem_returns_iff (item : Item) :
    (∃ item', bestItem item = .ok item') ↔ Convertible item := by
  unfold bestItem Convertible Item.value
  cases item.get? "value" with
  | none => simp [bind, Except.bind]
  | some v =>
    have hiff := valueAsBest_returns_iff v
    cases hw : valueAsBest v with
    | error err => simpa [bind, Except.bind, hw] using hiff
    | ok w => simpa [bind, Except.bind, pure, Except.pure, hw] using hiff

theorem mapItems_returns_iff {α β : Type} {f : α → Except PyError β} {d : Dict String α} :
    (∃ d', mapItems f d = .ok d') ↔ ∀ k v, d.get? k = some v → ∃ w, f v = .ok w := by
  have hentries : (∃ d', mapItems f d = .ok d') ↔
      ∃ es, (d.entries.mapM fun e => do return (e.1, ← f e.2)) = .ok es := by
    constructor
    · rintro ⟨d', h⟩
      obtain ⟨es, hes, -⟩ := PyError.bind_eq_ok.mp h
      exact ⟨es, hes⟩
    · rintro ⟨es, hes⟩
      exact ⟨Dict.ofList es, PyError.bind_eq_ok.mpr ⟨es, hes, rfl⟩⟩
  rw [hentries, PyError.mapM_returns_iff]
  constructor
  · intro h k v hv
    obtain ⟨e, he⟩ := h (k, v) (Dict.mem_entries_iff.mpr hv)
    obtain ⟨w, hw, -⟩ := PyError.bind_eq_ok.mp he
    exact ⟨w, hw⟩
  · rintro h ⟨k, v⟩ he
    obtain ⟨w, hw⟩ := h k v (Dict.mem_entries_iff.mp he)
    exact ⟨(k, w), PyError.bind_eq_ok.mpr ⟨w, hw, rfl⟩⟩

/-! ### The event of a group -/

/-- The entry of the event of a group under a key: a metric hides a field. -/
def WorkGroup.shown (data : WorkGroup) (k : String) : Option Item :=
  ((data.metrics.get? k).bind fun item => (bestItem item).toOption).or (data.fields.get? k)

/-- What the event of a group has. -/
theorem get?_trapEvent {data : WorkGroup} {e : Event} (h : trapEvent env work data = .ok e)
    (k : String) : e.content.get? k = data.shown k := by
  obtain ⟨processed, hprocessed, h⟩ := PyError.bind_eq_ok.mp h
  cases h
  rw [processedMetrics_eq] at hprocessed
  have hmetrics := rel_mapItems hprocessed k
  have hget : (data.fields.update processed).get? k =
      (processed.get? k).or (data.fields.get? k) := Dict.get?_update data.fields processed k
  dsimp only
  rw [hget, WorkGroup.shown]
  revert hmetrics
  generalize data.metrics.get? k = o
  generalize processed.get? k = o'
  intro hmetrics
  cases hmetrics with
  | none => rfl
  | some hbest =>
    rw [Option.bind_some, hbest]
    rfl

theorem trapEvent_returns_iff {data : WorkGroup} : (∃ e, trapEvent env work data = .ok e) ↔
    ∀ k item, data.metrics.get? k = some item → Convertible item := by
  have hmetrics : (∃ e, trapEvent env work data = .ok e) ↔
      ∃ processed, mapItems bestItem data.metrics = .ok processed := by
    rw [← processedMetrics_eq]
    constructor
    · rintro ⟨e, h⟩
      obtain ⟨processed, hprocessed, -⟩ := PyError.bind_eq_ok.mp h
      exact ⟨processed, hprocessed⟩
    · rintro ⟨processed, hprocessed⟩
      exact ⟨_, PyError.bind_eq_ok.mpr ⟨processed, hprocessed, rfl⟩⟩
  rw [hmetrics, mapItems_returns_iff]
  simp only [bestItem_returns_iff]

/-! ### All groups -/

/-- `prepare_trap_data` returns, and an aggregated event has every entry that the separate
events have. -/
def TrapPrepared (env : SplunkEnv) (work : Work) (groups : List WorkGroup) : Prop :=
  ∃ events, prepareTrapData env work groups = .ok events ∧ (env.aggregateTrapsEvents = true →
    ∀ separate, prepareTrapData { env with aggregateTrapsEvents := false } work groups =
      .ok separate → ∃ event, events = [event] ∧ ∀ e ∈ separate, ∀ k item,
        e.content.get? k = some item → event.content.get? k = some item)

/-- The metrics have values, and the groups to aggregate are there and agree. -/
structure TrapPreparable (env : SplunkEnv) (groups : List WorkGroup) : Prop where
  convertible : ∀ data ∈ groups, ∀ k item, data.metrics.get? k = some item → Convertible item
  nonempty : env.aggregateTrapsEvents = true → groups ≠ []
  agree : env.aggregateTrapsEvents = true → ∀ data ∈ groups, ∀ data' ∈ groups, ∀ k item item',
    data.shown k = some item → data'.shown k = some item' → item = item'

/-- The separate events have what their groups show. -/
theorem shown_iff {separate : List Event} (h : groups.mapM (trapEvent env work) = .ok separate)
    (k : String) (item : Item) : (∃ e ∈ separate, e.content.get? k = some item) ↔
      ∃ data ∈ groups, data.shown k = some item := by
  obtain ⟨hall, hmem⟩ := PyError.mapM_eq_ok h
  constructor
  · rintro ⟨e, he, hitem⟩
    obtain ⟨data, hdata, hevent⟩ := (hmem e).mp he
    exact ⟨data, hdata, (get?_trapEvent hevent k).symm.trans hitem⟩
  · rintro ⟨data, hdata, hitem⟩
    obtain ⟨e, hevent⟩ := hall data hdata
    exact ⟨e, (hmem e).mpr ⟨data, hdata, hevent⟩, (get?_trapEvent hevent k).trans hitem⟩

/-- **Nothing raises and nothing is lost exactly when** the metrics have values and, with
aggregation, there are groups and their entries agree. -/
theorem prepareTrapData_prepared_iff (env : SplunkEnv) (work : Work) (groups : List WorkGroup) :
    TrapPrepared env work groups ↔ TrapPreparable env groups := by
  have hreturns : (∃ separate, groups.mapM (trapEvent env work) = .ok separate) ↔
      ∀ data ∈ groups, ∀ k item, data.metrics.get? k = some item → Convertible item := by
    simp only [PyError.mapM_returns_iff, trapEvent_returns_iff]
  have hapart : ∀ separate, groups.mapM (trapEvent env work) = .ok separate →
      prepareTrapData { env with aggregateTrapsEvents := false } work groups = .ok separate :=
    fun separate h => PyError.bind_eq_ok.mpr ⟨separate, h, rfl⟩
  constructor
  · rintro ⟨events, h, hentries⟩
    obtain ⟨separate, hseparate, h⟩ := PyError.bind_eq_ok.mp h
    refine ⟨hreturns.mp ⟨separate, hseparate⟩, ?_, ?_⟩
    · intro haggregate
      rintro rfl
      cases hseparate
      rw [if_pos haggregate] at h
      cases h
    · intro haggregate data hdata data' hdata' k item item' hitem hitem'
      obtain ⟨event, -, hevent⟩ := hentries haggregate separate (hapart separate hseparate)
      obtain ⟨e, he, hshown⟩ := (shown_iff hseparate k item).mpr ⟨data, hdata, hitem⟩
      obtain ⟨e', he', hshown'⟩ := (shown_iff hseparate k item').mpr ⟨data', hdata', hitem'⟩
      have hboth := (hevent e he k item hshown).symm.trans (hevent e' he' k item' hshown')
      exact Option.some.inj hboth
  · rintro ⟨hconvertible, hnonempty, hagree⟩
    obtain ⟨separate, hseparate⟩ := hreturns.mpr hconvertible
    by_cases haggregate : env.aggregateTrapsEvents = true
    · have hsome : separate ≠ [] := by
        rintro rfl
        cases PyError.forall₂_of_mapM hseparate
        exact hnonempty haggregate rfl
      obtain ⟨events, hevents⟩ : ∃ events, aggregateTraps separate = .ok events := by
        cases separate with
        | nil => exact absurd rfl hsome
        | cons e separate => exact ⟨_, rfl⟩
      refine ⟨events, PyError.bind_eq_ok.mpr ⟨separate, hseparate, ?_⟩, fun _ => ?_⟩
      · rw [if_pos haggregate, hevents]
      · intro separate' hseparate'
        obtain rfl : separate = separate' :=
          Except.ok.inj ((hapart separate hseparate).symm.trans hseparate')
        obtain ⟨event, rfl, hcontent⟩ := get?_aggregateTraps hevents
        refine ⟨event, rfl, fun e he k item hitem => ?_⟩
        rw [hcontent]
        -- some event shows an entry under the key, and it is the same one
        cases hfound : separate.reverse.findSome? fun e => e.content.get? k with
        | none =>
          have hnone := List.findSome?_eq_none_iff.mp hfound e (List.mem_reverse.mpr he)
          rw [hitem] at hnone
          cases hnone
        | some item' =>
          obtain ⟨e', he', hitem'⟩ := List.exists_of_findSome?_eq_some hfound
          obtain ⟨data, hdata, hshown⟩ := (shown_iff hseparate k item).mp ⟨e, he, hitem⟩
          obtain ⟨data', hdata', hshown'⟩ :=
            (shown_iff hseparate k item').mp ⟨e', List.mem_reverse.mp he', hitem'⟩
          rw [hagree haggregate data' hdata' data hdata k item' item hshown' hshown]
    · refine ⟨separate, PyError.bind_eq_ok.mpr ⟨separate, hseparate, ?_⟩,
        fun h => absurd h haggregate⟩
      rw [if_neg haggregate]
      rfl

/-- A setting that aggregates. -/
def aggregatingEnv : SplunkEnv := { plainEnv with aggregateTrapsEvents := true }

/-- A trap without groups raises, and of two rows with one symbol the first is lost. -/
theorem prepareTrapData_prepared_fails :
    (¬ TrapPrepared aggregatingEnv (contactWork .null) []) ∧
      ¬ TrapPrepared aggregatingEnv (contactWork .null)
        [contactGroup (.str "first"), contactGroup (.str "second")] := by
  constructor
  · rintro ⟨events, h, -⟩
    cases h
  · rintro ⟨events, h, hentries⟩
    cases h
    obtain ⟨event, hevent, hall⟩ := hentries rfl _ rfl
    cases hevent
    have hfirst := hall _ List.mem_cons_self "SNMPv2-MIB.sysContact" _ rfl
    have hvalue : some (Json.str "second") = some (Json.str "first") :=
      congrArg (fun item => item.bind fun i : Item => i.get? "value") hfirst
    simp at hvalue

end Splunk

end Sc4snmp
