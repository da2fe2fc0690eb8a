import Sc4snmp.Splunk.Prepare

/-!
# Valid texts for Splunk

The encoder writes valid JSON exactly when no number is infinite or not a number.  Such numbers
come from texts: `float` takes `nan`, `inf` and numbers that are too large, and the pattern
keeps only the last of these back.

## Main definitions

* `bestFinite` — a value that `value_as_best` makes no such number of.
* `PreparedValid` — all texts that `prepare` returns, and those inside of them, are valid.
* `Sendable` — the items that are sent have only finite values.

## Main results

* `finite_valueAsBest` — what `value_as_best` makes of a value.
* `valid_prepare_iff` — **the texts are valid exactly when the items sent have finite values**.
-/

namespace Sc4snmp

namespace Splunk

variable {env : SplunkEnv} {work : Work} {p : Prepared}

/-! ### Values -/

/-- `value_as_best` makes no number of a value that is infinite or not a number. -/
def bestFinite : Json → Bool
  | .str s => scientificValue s || (PyFloat.ofText s).all Float.isFinite
  | v => v.finite

theorem finite_ofInt {i : ℤ} {x : Float} (h : PyFloat.ofInt i = some x) : x.isFinite = true := by
  unfold PyFloat.ofInt at h
  dsimp only at h
  split at h
  · next hfinite =>
    cases h
    exact hfinite
  · cases h

/-- **What `value_as_best` makes of a value.** -/
theorem finite_valueAsBest {v w : Json} (h : valueAsBest v = .ok w) : w.finite = bestFinite v := by
  cases v with
  | str s =>
    rw [valueAsBest] at h
    rw [bestFinite]
    split at h
    · next hscientific =>
      -- a number in scientific notation stays a text
      cases h
      rw [hscientific]
      rfl
    · next hscientific =>
      rw [Bool.not_eq_true] at hscientific
      rw [hscientific, Bool.false_or]
      split at h
      · next x hx =>
        cases h
        rw [hx]
        rfl
      · next hnone =>
        cases h
        rw [hnone]
        rfl
  | int i =>
    rw [valueAsBest] at h
    split at h
    · next x hx =>
      cases h
      exact finite_ofInt hx
    · cases h
  | bool b =>
    cases h
    cases b <;> decide +kernel
  | null | float | arr | obj =>
    cases h
    rfl

/-! ### Objects -/

theorem membersFinite_eq_all (ms : List (String × Json)) :
    Json.membersFinite ms = ms.all fun m => m.2.finite := by
  induction ms with
  | nil => rfl
  | cons m ms ih =>
    rw [Json.membersFinite, ih]
    rfl

theorem finite_obj_iff (ms : List (String × Json)) :
    (Json.obj ms).finite = true ↔ ∀ m ∈ ms, m.2.finite = true := by
  show Json.membersFinite ms = true ↔ _
  rw [membersFinite_eq_all, List.all_eq_true]

/-- The values of a dictionary that is written entry by entry are the last ones. -/
theorem forall_entries_ofList {α : Type} {P : α → Prop} (es : List (String × α)) :
    (∀ e ∈ (Dict.ofList es).entries, P e.2) ↔ ∀ k v, es.reverse.lookup k = some v → P v := by
  have hget : ∀ k, (Dict.ofList es).get? k = es.reverse.lookup k := by
    intro k
    unfold Dict.ofList
    rw [Dict.get?_updateList_eq_last, Dict.get?_empty, Option.or_none]
  constructor
  · intro h k v hv
    exact h (k, v) (Dict.mem_entries_iff.mpr ((hget k).trans hv))
  · rintro h ⟨k, v⟩ he
    exact h k v ((hget k).symm.trans (Dict.mem_entries_iff.mp he))

/-! ### The outputs -/

/-- All texts that are returned are valid, and those of the contents. -/
def PreparedValid (p : Prepared) : Prop :=
  (∀ s ∈ p.metricTexts, Json.Valid s) ∧ (∀ s ∈ p.eventTexts, Json.Valid s) ∧
    ∀ e ∈ p.events, Json.Valid e.nested

/-- An item has only finite values. -/
def Item.finite (item : Item) : Prop := ∀ m ∈ item.entries, m.2.finite = true

/-- The content of an event has only finite values. -/
def ContentFinite (content : Dict String Item) : Prop := ∀ e ∈ content.entries, Item.finite e.2

theorem valid_nested_iff (e : Event) : Json.Valid e.nested ↔ ContentFinite e.content := by
  unfold Event.nested contentDoc ContentFinite Item.finite
  rw [Json.valid_dumps_iff, finite_obj_iff, List.forall_mem_map]
  simp only [finite_obj_iff]

/-- An event is valid around its content. -/
theorem valid_event (e : Event) : Json.Valid e.doc.dumps := by
  unfold Event.doc
  rw [Json.valid_dumps_iff, finite_obj_iff, List.forall_mem_append]
  constructor
  · simp only [List.forall_mem_cons, List.not_mem_nil, false_implies, implies_true, and_true]
    exact ⟨e.time_finite, rfl, rfl, rfl, rfl, rfl⟩
  · intro m hm
    obtain ⟨fields, -, rfl⟩ := Option.map_eq_some_iff.mp (Option.mem_toList.mp hm)
    rw [finite_obj_iff, List.forall_mem_map]
    exact fun _ _ => rfl

theorem valid_metric_iff (fields : Dict String Json) :
    Json.Valid (metricDoc env work fields).dumps ↔ ∀ m ∈ fields.entries, m.2.finite = true := by
  unfold metricDoc
  rw [Json.valid_dumps_iff, finite_obj_iff, ← finite_obj_iff fields.entries]
  simp only [List.forall_mem_cons, List.not_mem_nil, false_implies, implies_true, and_true]
  exact ⟨fun h => h.2.2.2.2.2.2, fun h => ⟨work.time_finite, rfl, rfl, rfl, rfl, rfl, h⟩⟩

/-! ### What is sent -/

/-- The last assignment to a key. -/
def lastAssignment (as : List Assignment) (k : String) : Option Assignment :=
  (as.map fun a => (a.key, a)).reverse.lookup k

/-- An assignment of a finite value. -/
def Assignment.Finite (a : Assignment) : Prop :=
  ∀ v, a.value = .ok v → (if a.asBest then bestFinite v else v.finite) = true

/-- The item of a group of a trap under a key, and whether its value goes through
`value_as_best`: a metric hides a field. -/
def WorkGroup.trapItem (data : WorkGroup) (k : String) : Option (Item × Bool) :=
  ((data.metrics.get? k).map fun item => (item, true)).or
    ((data.fields.get? k).map fun item => (item, false))

/-- The values of an item are finite when it is sent. -/
def ItemSendable (i : Item × Bool) : Prop :=
  ∀ m ∈ i.1.entries, (if i.2 ∧ m.1 = "value" then bestFinite m.2 else m.2.finite) = true

/-- A group of a poll or a walk is sent with finite values. -/
def PollSendable (env : SplunkEnv) (work : Work) (data : WorkGroup) : Prop :=
  if data.metrics.entries.isEmpty then ContentFinite data.fields
  else ∀ k a, lastAssignment (assignments env work data) k = some a → a.Finite

/-- The groups of a trap are sent with finite values; of the items under one key, the last
group's is sent when the events are aggregated. -/
def TrapSendable (env : SplunkEnv) (groups : List WorkGroup) : Prop :=
  if env.aggregateTrapsEvents then
    ∀ k i, groups.reverse.findSome? (fun data => data.trapItem k) = some i → ItemSendable i
  else ∀ data ∈ groups, ∀ k i, data.trapItem k = some i → ItemSendable i

/-- The items that are sent have only finite values. -/
def Sendable (env : SplunkEnv) (work : Work) : Prop :=
  if work.sourcetype = some env.sourcetypeTraps then
    TrapSendable env (applyCustomTranslations env work)
  else ∀ data ∈ applyCustomTranslations env work, PollSendable env work data

/-! ### Metrics -/

theorem finite_assigned {a : Assignment} {w : Json} (h : a.assigned = .ok w) :
    w.finite = true ↔ a.Finite := by
  obtain ⟨v, hv, h⟩ := PyError.bind_eq_ok.mp h
  unfold Assignment.Finite
  simp only [hv, Except.ok.injEq, forall_eq']
  split at h
  · next hbest =>
    rw [finite_valueAsBest h, if_pos hbest]
  · next hbest =>
    cases h
    rw [if_neg hbest]

/-- The values that are assigned, key by key. -/
theorem rel_lookup_assigned {as : List Assignment} {es : List (String × Json)}
    (h : (as.mapM fun a => do return (a.key, ← a.assigned)) = Except.ok es) (k : String) :
    Option.Rel (fun a w => Assignment.assigned a = .ok w) (lastAssignment as k)
      (es.reverse.lookup k) := by
  have hentries : List.Forall₂ (fun e f => f.1 = e.1 ∧ Assignment.assigned e.2 = .ok f.2)
      (as.map fun a => (a.key, a)) es := by
    rw [List.forall₂_map_left_iff]
    refine (PyError.forall₂_of_mapM h).imp ?_
    intro a e he
    obtain ⟨w, hw, he⟩ := PyError.bind_eq_ok.mp he
    cases he
    exact ⟨rfl, hw⟩
  exact Dict.rel_lookup_of_forall₂ (fun a w => Assignment.assigned a = .ok w)
    (List.rel_reverse hentries) k

theorem valid_setMetricsFields_iff {data : WorkGroup} {fields : Dict String Json}
    (h : setMetricsFields env work data = .ok fields) :
    Json.Valid (metricDoc env work fields).dumps ↔
      ∀ k a, lastAssignment (assignments env work data) k = some a → a.Finite := by
  obtain ⟨es, hes, h⟩ := PyError.bind_eq_ok.mp h
  cases h
  rw [valid_metric_iff, @forall_entries_ofList _ (fun v : Json => v.finite = true)]
  refine forall_congr' ?_
  intro k
  have hk := rel_lookup_assigned hes k
  revert hk
  generalize lastAssignment (assignments env work data) k = o
  generalize es.reverse.lookup k = o'
  intro hk
  cases hk with
  | none => simp
  | some hw => simpa using finite_assigned hw

/-! ### Polls and walks -/

theorem valid_prepareGroups_iff {groups : List WorkGroup}
    (h : prepareGroups env work groups = .ok p) :
    PreparedValid p ↔ ∀ data ∈ groups, PollSendable env work data := by
  induction groups generalizing p with
  | nil =>
    cases h
    simp [PreparedValid, Prepared.metricTexts, Prepared.eventTexts]
  | cons data groups ih =>
    rw [List.forall_mem_cons]
    rw [prepareGroups] at h
    split at h
    · next hempty =>
      -- a group without metrics is an event
      obtain ⟨p', hp', h⟩ := PyError.bind_eq_ok.mp h
      cases h
      have hevents : PreparedValid { p' with events := pollingEvent env work data :: p'.events } ↔
          Json.Valid (pollingEvent env work data).nested ∧ PreparedValid p' := by
        unfold PreparedValid Prepared.metricTexts Prepared.eventTexts
        simp only [List.map_cons, List.forall_mem_cons, valid_event, true_and]
        tauto
      rw [hevents, ih hp', valid_nested_iff, PollSendable, if_pos hempty]
      rfl
    · next hempty =>
      -- one with metrics is a metric document with its fields
      obtain ⟨fields, hfields, h⟩ := PyError.bind_eq_ok.mp h
      obtain ⟨p', hp', h⟩ := PyError.bind_eq_ok.mp h
      cases h
      have hmetrics : PreparedValid { p' with metrics := metricDoc env work fields :: p'.metrics } ↔
          Json.Valid (metricDoc env work fields).dumps ∧ PreparedValid p' := by
        unfold PreparedValid Prepared.metricTexts Prepared.eventTexts
        simp only [List.map_cons, List.forall_mem_cons]
        tauto
      rw [hmetrics, ih hp', valid_setMetricsFields_iff hfields, PollSendable, if_neg hempty]

/-! ### Traps -/

theorem finite_insert_value {item : Item} {v w : Json} (hv : item.value = .ok v)
    (hw : valueAsBest v = .ok w) :
    Item.finite (item.insert "value" w) ↔ ItemSendable (item, true) := by
  have hget : item.get? "value" = some v := by
    unfold Item.value at hv
    split at hv
    · next v' hv' =>
      cases hv
      exact hv'
    · cases hv
  -- the value is replaced, the other members stay
  have hentry : ∀ m : String × Json, m ∈ (item.insert "value" w).entries ↔
      (m = ("value", w) ∨ m.1 ≠ "value" ∧ m ∈ item.entries) := by
    rintro ⟨k, u⟩
    rw [Dict.mem_entries_iff, Dict.get?_insert, Dict.mem_entries_iff]
    by_cases hk : k = "value"
    · simp [hk, eq_comm]
    · simp [hk]
  unfold Item.finite ItemSendable
  constructor
  · rintro hfinite ⟨k, u⟩ hm
    by_cases hk : k = "value"
    · subst hk
      obtain rfl : u = v := Option.some.inj ((Dict.mem_entries_iff.mp hm).symm.trans hget)
      rw [if_pos ⟨rfl, rfl⟩, ← finite_valueAsBest hw]
      exact hfinite ("value", w) ((hentry _).mpr (Or.inl rfl))
    · rw [if_neg fun h => hk h.2]
      exact hfinite (k, u) ((hentry _).mpr (Or.inr ⟨hk, hm⟩))
  · intro hsendable m hm
    rcases (hentry m).mp hm with rfl | ⟨hk, hm⟩
    · have hvalue := hsendable ("value", v) (Dict.mem_entries_iff.mpr hget)
      rw [if_pos ⟨rfl, rfl⟩] at hvalue
      rw [finite_valueAsBest hw]
      exact hvalue
    · have hother := hsendable m hm
      rwa [if_neg fun h => hk h.2] at hother

/-- Items that are finite together. -/
def FiniteTogether : Item × Bool → Item → Prop := fun i item => Item.finite item ↔ ItemSendable i

theorem rel_processedMetrics {metrics processed : Dict String Item}
    (h : processedMetrics metrics = .ok processed) (k : String) :
    Option.Rel FiniteTogether ((metrics.get? k).map fun item => (item, true))
      (processed.get? k) := by
  rw [processedMetrics_eq] at h
  have hk := rel_mapItems h k
  revert hk
  generalize metrics.get? k = o
  generalize processed.get? k = o'
  intro hk
  cases hk with
  | none => exact Option.Rel.none
  | some hbest =>
    obtain ⟨v, hv, hbest⟩ := PyError.bind_eq_ok.mp hbest
    obtain ⟨w, hw, hbest⟩ := PyError.bind_eq_ok.mp hbest
    cases hbest
    exact Option.Rel.some (finite_insert_value hv hw)

/-- The content of an event of a trap, key by key. -/
theorem rel_trapEvent {data : WorkGroup} {e : Event} (h : trapEvent env work data = .ok e)
    (k : String) : Option.Rel FiniteTogether (data.trapItem k) (e.content.get? k) := by
  obtain ⟨processed, hprocessed, h⟩ := PyError.bind_eq_ok.mp h
  cases h
  have hmetrics := rel_processedMetrics hprocessed k
  have hget : (data.fields.update processed).get? k =
      (processed.get? k).or (data.fields.get? k) := Dict.get?_update data.fields processed k
  unfold WorkGroup.trapItem
  dsimp only
  rw [hget]
  revert hmetrics
  generalize (data.metrics.get? k).map (fun item => (item, true)) = o
  generalize processed.get? k = o'
  intro hmetrics
  cases hmetrics with
  | some hR => exact Option.Rel.some hR
  | none =>
    rw [Option.none_or, Option.none_or]
    cases data.fields.get? k with
    | none => exact Option.Rel.none
    | some item =>
      refine Option.Rel.some ?_
      simp [FiniteTogether, Item.finite, ItemSendable]

/-- The content of the aggregated event: of each key the last content counts. -/
theorem get?_aggregated (events : List Event) (content : Dict String Item) (k : String) :
    (events.foldl (fun content e => content.update e.content) content).get? k =
      (events.reverse.findSome? fun e => e.content.get? k).or (content.get? k) := by
  induction events generalizing content with
  | nil => simp
  | cons e events ih =>
    rw [List.foldl_cons, ih, Dict.get?_update, List.reverse_cons, List.findSome?_append,
      List.findSome?_singleton, Option.or_assoc]

/-- `aggregate_traps` returns one event. -/
theorem get?_aggregateTraps {separate events : List Event}
    (h : aggregateTraps separate = .ok events) : ∃ event, events = [event] ∧
      ∀ k, event.content.get? k = separate.reverse.findSome? fun e => e.content.get? k := by
  cases separate with
  | nil => cases h
  | cons e separate =>
    cases h
    refine ⟨_, rfl, fun k => ?_⟩
    dsimp only
    rw [get?_aggregated, Dict.get?_update, Dict.get?_empty, Option.or_none, List.reverse_cons,
      List.findSome?_append, List.findSome?_singleton]

/-- What is found first in lists of related elements is related. -/
theorem rel_findSome? {α β α' β' : Type} {R : α' → β' → Prop} {f : α → Option α'}
    {g : β → Option β'} {as : List α} {bs : List β}
    (h : List.Forall₂ (fun a b => Option.Rel R (f a) (g b)) as bs) :
    Option.Rel R (as.findSome? f) (bs.findSome? g) := by
  induction h with
  | nil => exact Option.Rel.none
  | @cons a b as bs hab _ ih =>
    rw [List.findSome?_cons, List.findSome?_cons]
    revert hab
    generalize f a = o
    generalize g b = o'
    intro hab
    cases hab with
    | none => exact ih
    | some hR => exact Option.Rel.some hR

theorem contentFinite_iff (content : Dict String Item) :
    ContentFinite content ↔ ∀ k item, content.get? k = some item → Item.finite item := by
  constructor
  · exact fun h k item hitem => h (k, item) (Dict.mem_entries_iff.mpr hitem)
  · rintro h ⟨k, item⟩ he
    exact h k item (Dict.mem_entries_iff.mp he)

/-- Items that are there together are finite together. -/
theorem finite_iff_sendable {o : Option (Item × Bool)} {o' : Option Item}
    (h : Option.Rel FiniteTogether o o') :
    (∀ item, o' = some item → Item.finite item) ↔ ∀ i, o = some i → ItemSendable i := by
  cases h with
  | none => simp
  | some hR => simpa [FiniteTogether] using hR

/-- Events that are sent one for each group. -/
theorem finite_separate_iff {groups : List WorkGroup} {events : List Event}
    (h : List.Forall₂ (fun data e => trapEvent env work data = .ok e) groups events) :
    (∀ e ∈ events, ∀ k item, e.content.get? k = some item → Item.finite item) ↔
      ∀ data ∈ groups, ∀ k i, data.trapItem k = some i → ItemSendable i := by
  induction h with
  | nil => simp
  | cons he _ ih =>
    rw [List.forall_mem_cons, List.forall_mem_cons, ih]
    exact and_congr_left' (forall_congr' fun k => finite_iff_sendable (rel_trapEvent he k))

theorem valid_prepareTrapData_iff {groups : List WorkGroup} {events : List Event}
    (h : prepareTrapData env work groups = .ok events) :
    (∀ e ∈ events, Json.Valid e.nested) ↔ TrapSendable env groups := by
  obtain ⟨separate, hseparate, h⟩ := PyError.bind_eq_ok.mp h
  have hevents := PyError.forall₂_of_mapM hseparate
  unfold TrapSendable
  simp only [valid_nested_iff, contentFinite_iff]
  split at h
  · next haggregate =>
    rw [if_pos haggregate]
    obtain ⟨event, rfl, hcontent⟩ := get?_aggregateTraps h
    rw [List.forall_mem_singleton]
    refine forall_congr' ?_
    intro k
    rw [hcontent]
    exact finite_iff_sendable
      (rel_findSome? (List.rel_reverse (hevents.imp fun _ _ he => rel_trapEvent he k)))
  · next haggregate =>
    cases h
    rw [if_neg haggregate]
    exact finite_separate_iff hevents

/-- **The texts are valid exactly when the items that are sent have finite values.** -/
theorem valid_prepare_iff (h : prepare env work = .ok p) : PreparedValid p ↔ Sendable env work := by
  unfold prepare at h
  unfold Sendable
  dsimp only at h
  split at h
  · next htrap =>
    obtain ⟨events, hevents, h⟩ := PyError.bind_eq_ok.mp h
    cases h
    rw [if_pos htrap, ← valid_prepareTrapData_iff hevents]
    unfold PreparedValid Prepared.metricTexts Prepared.eventTexts
    simp [valid_event]
  · next htrap =>
    rw [if_neg htrap]
    exact valid_prepareGroups_iff h

/-- A setting without translations, whose other values do not matter. -/
def plainEnv : SplunkEnv where
  sourcetypeTraps := "sc4snmp:traps"
  sourcetypePollingMetrics := "sc4snmp:metric"
  sourcetypePollingEvents := "sc4snmp:event"
  indexEvents := "netops"
  indexMetrics := "netmetrics"
  metricNameHyphenToUnderscore := false
  metricsIndexingEnabled := false
  aggregateTrapsEvents := false
  customTranslations := Dict.empty

/-- A group with one field. -/
def contactGroup (value : Json) : WorkGroup where
  fields := Dict.ofList [("SNMPv2-MIB.sysContact", Dict.ofList [("time", .float (Float.ofInt 0)),
    ("type", .str "f"), ("value", value), ("oid", .str "1.3.6.1.2.1.1.4.0")])]
  metrics := Dict.empty
  profiles := none
  indexes := none

/-- A poll of it. -/
def contactWork (value : Json) : Work where
  time := Float.ofInt 0
  address := "10.0.0.1"
  sourcetype := none
  frequency := some 60
  group := none
  fields := none
  result := Dict.ofList [("SNMPv2-MIB::tuple=int=0", contactGroup value)]
  time_finite := PyFloat.isFinite_ofInt_zero

/-- A text that is no number goes out. -/
theorem valid_prepare_iff_text : PreparedValid ⟨[], [pollingEvent plainEnv
    (contactWork (.str "nobody")) (contactGroup (.str "nobody"))]⟩ := by
  refine (@valid_prepare_iff plainEnv (contactWork (.str "nobody")) _ rfl).mpr ?_
  intro data hdata
  obtain rfl := List.mem_singleton.mp hdata
  intro e he
  obtain rfl := List.mem_singleton.mp he
  intro m hm
  have hvalues : ∀ j ∈ [Json.float (Float.ofInt 0), .str "f", .str "nobody",
      .str "1.3.6.1.2.1.1.4.0"], j.finite = true := by decide +kernel
  exact hvalues m.2 (List.mem_map_of_mem (f := Prod.snd) hm)

/-- The text `nan` has become a number by then, and the event is not valid. -/
theorem valid_prepare_fails : ¬ ∀ (env : SplunkEnv) (work : Work) (p : Prepared),
    prepare env work = .ok p → PreparedValid p := by
  intro h
  have hvalid := h plainEnv (contactWork (.float PyFloat.nan)) _ rfl
  have hnested := hvalid.2.2 _ (List.mem_singleton_self _)
  unfold Event.nested contentDoc at hnested
  rw [Json.valid_dumps_iff] at hnested
  revert hnested
  decide +kernel

end Splunk

end Sc4snmp
