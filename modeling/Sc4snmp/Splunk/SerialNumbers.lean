import Sc4snmp.Splunk.JsonValidity
import Sc4snmp.Splunk.Pipeline

/-!
# Texts like `849867E3`

`value_as_best` of `splunk/tasks.py` keeps a text that reads like a number with an exponent,
which may be a serial number.  The function of the same name in `snmp/manager.py` has read it
as a number before.

## Main definitions

* `Found` — what the output of `prepare` has for a field.

## Main results

* `isFloat_of_scientificValue` — `float` takes every text of the pattern.
* `serialNumber_lost` — **no such text arrives, on any way**.
-/

namespace Sc4snmp

namespace Splunk

/-! ### The pattern -/

/-- One decimal digit or more. -/
def IsDigits (ds : List Char) : Prop := ds ≠ [] ∧ ∀ d ∈ ds, (Text.decimalValue d).isSome = true

/-- A sign, or nothing. -/
def IsSign (sign : List Char) : Prop := sign ∈ [[], ['+'], ['-']]

theorem afterPlainDigits_spec {cs rest : List Char} (h : afterPlainDigits cs = some rest) :
    ∃ ds, IsDigits ds ∧ cs = ds ++ rest := by
  unfold afterPlainDigits at h
  dsimp only at h
  split at h
  · next hlength =>
    cases h
    refine ⟨cs.takeWhile fun c => (Text.decimalValue c).isSome, ⟨?_, ?_⟩,
      List.takeWhile_append_dropWhile.symm⟩
    · intro hnil
      have hsplit := @List.takeWhile_append_dropWhile _ (fun c => (Text.decimalValue c).isSome) cs
      rw [hnil, List.nil_append] at hsplit
      rw [hsplit] at hlength
      omega
    · intro d hd
      exact @List.mem_takeWhile_imp _ (fun c => (Text.decimalValue c).isSome) _ _ hd
  · cases h

theorem afterSign_spec (cs : List Char) : ∃ sign, IsSign sign ∧ cs = sign ++ afterSign cs := by
  unfold afterSign
  split
  · exact ⟨['+'], by simp [IsSign], rfl⟩
  · exact ⟨['-'], by simp [IsSign], rfl⟩
  · exact ⟨[], by simp [IsSign], rfl⟩

/-- A fraction, or nothing. -/
def IsFraction (fraction : List Char) : Prop :=
  fraction = [] ∨ ∃ ds, fraction = '.' :: ds ∧ IsDigits ds

/-- A number with an exponent. -/
structure Scientific (core : List Char) where
  sign : List Char
  whole : List Char
  fraction : List Char
  e : Char
  exponentSign : List Char
  exponent : List Char
  isSign : IsSign sign
  isWhole : IsDigits whole
  isFraction : IsFraction fraction
  isE : e = 'e' ∨ e = 'E'
  isExponentSign : IsSign exponentSign
  isExponent : IsDigits exponent
  core_eq : core = sign ++ (whole ++ (fraction ++ e :: (exponentSign ++ exponent)))

theorem scientificExponent_spec {cs : List Char} (h : scientificExponent cs = true) :
    ∃ e sign ds rest, (e = 'e' ∨ e = 'E') ∧ IsSign sign ∧ IsDigits ds ∧
      (rest = [] ∨ rest = [Char.ofNat 10]) ∧ cs = e :: (sign ++ (ds ++ rest)) := by
  cases cs with
  | nil => cases h
  | cons e cs =>
    rw [scientificExponent, Bool.and_eq_true] at h
    obtain ⟨he, h⟩ := h
    obtain ⟨sign, hsign, hcs⟩ := afterSign_spec cs
    split at h
    · next rest hrest =>
      obtain ⟨ds, hds, hafter⟩ := afterPlainDigits_spec hrest
      refine ⟨e, sign, ds, rest, by simpa using he, hsign, hds, by simpa using h, ?_⟩
      rw [← hafter, ← hcs]
    · cases h

/-- The texts of the pattern. -/
theorem scientificValue_spec {s : String} (h : scientificValue s = true) :
    ∃ core, Nonempty (Scientific core) ∧
      (s.toList = core ∨ s.toList = core ++ [Char.ofNat 10]) := by
  obtain ⟨sign, hsign, hs⟩ := afterSign_spec s.toList
  have hparts : ∃ whole fraction tail, IsDigits whole ∧ IsFraction fraction ∧
      scientificExponent tail = true ∧ afterSign s.toList = whole ++ (fraction ++ tail) := by
    -- a point and digits are there, or not
    unfold scientificValue at h
    split at h
    · cases h
    · next cs hcs =>
      obtain ⟨whole, hwhole, hafter⟩ := afterPlainDigits_spec hcs
      obtain ⟨tail, htail, hexponent⟩ := (Option.any_eq_true _ _).mp h
      obtain ⟨ds, hds, hcs'⟩ := afterPlainDigits_spec htail
      refine ⟨whole, '.' :: ds, tail, hwhole, Or.inr ⟨ds, rfl, hds⟩, hexponent, ?_⟩
      rw [hafter, hcs']
      rfl
    · next cs _ hcs =>
      obtain ⟨whole, hwhole, hafter⟩ := afterPlainDigits_spec hcs
      exact ⟨whole, [], cs, hwhole, Or.inl rfl, h, hafter⟩
  obtain ⟨whole, fraction, tail, hwhole, hfraction, htail, hafter⟩ := hparts
  obtain ⟨e, esign, ds, rest, he, hesign, hds, hrest, rfl⟩ := scientificExponent_spec htail
  refine ⟨sign ++ (whole ++ (fraction ++ e :: (esign ++ ds))),
    ⟨⟨sign, whole, fraction, e, esign, ds, hsign, hwhole, hfraction, he, hesign, hds, rfl⟩⟩, ?_⟩
  rw [hs, hafter]
  rcases hrest with rfl | rfl
  · exact Or.inl (by simp)
  · exact Or.inr (by simp)

theorem isSpace_of_sign {sign : List Char} (h : IsSign sign) :
    ∀ c ∈ sign, Text.isSpace c = false := by
  rcases List.mem_cons.mp h with rfl | h
  · exact List.forall_mem_nil _
  rcases List.mem_pair.mp h with rfl | rfl
  · exact List.forall_mem_singleton.mpr rfl
  · exact List.forall_mem_singleton.mpr rfl

namespace Scientific

variable {core : List Char}

/-- It has no white space. -/
theorem isSpace (h : Scientific core) : ∀ c ∈ core, Text.isSpace c = false := by
  have hdigits : ∀ ds, IsDigits ds → ∀ c ∈ ds, Text.isSpace c = false :=
    fun ds hds c hc => Text.isSpace_of_decimalValue (hds.2 c hc)
  have he : Text.isSpace h.e = false := by
    rcases h.isE with he | he <;> rw [he] <;> rfl
  have hfraction : ∀ c ∈ h.fraction, Text.isSpace c = false := by
    rcases h.isFraction with hnil | ⟨ds, hds, hdigits'⟩
    · rw [hnil]
      exact List.forall_mem_nil _
    · rw [hds, List.forall_mem_cons]
      exact ⟨rfl, hdigits ds hdigits'⟩
  rw [h.core_eq]
  simp only [List.forall_mem_append, List.forall_mem_cons]
  exact ⟨isSpace_of_sign h.isSign, hdigits _ h.isWhole, hfraction, he,
    isSpace_of_sign h.isExponentSign, hdigits _ h.isExponent⟩

theorem ne_nil (h : Scientific core) : core ≠ [] := by
  rw [h.core_eq]
  simp

/-- `float` takes the exponent, -/
theorem isExponent_eq (h : Scientific core) :
    Text.isExponent (h.e :: (h.exponentSign ++ h.exponent)) = true := by
  have hafter : Text.afterDigits h.exponent = some [] := by
    have happend := @Text.afterDigits_append h.exponent [] h.isExponent.1 h.isExponent.2
      (fun _ hc => by cases hc)
    rwa [List.append_nil] at happend
  have he : (decide (h.e = 'e') || decide (h.e = 'E')) = true := by simpa using h.isE
  -- without a sign the first digit is neither plus nor minus
  rcases List.mem_cons.mp h.isExponentSign with hsign | hsign
  · rw [hsign, List.nil_append]
    obtain ⟨d, ds, hds⟩ := List.exists_cons_of_ne_nil h.isExponent.1
    have hdigit := h.isExponent.2 d (by rw [hds]; exact List.mem_cons_self)
    rw [Text.isExponent.eq_def, hds]
    rw [hds] at hafter
    split
    · next heq => cases heq
    · next heq =>
      obtain ⟨-, heq⟩ := List.cons.inj heq
      rw [(List.cons.inj heq).1] at hdigit
      exact absurd hdigit (by decide)
    · next heq =>
      obtain ⟨-, heq⟩ := List.cons.inj heq
      rw [(List.cons.inj heq).1] at hdigit
      exact absurd hdigit (by decide)
    · next heq =>
      obtain ⟨hc, hcs⟩ := List.cons.inj heq
      rw [← hc, ← hcs, he, hafter]
      rfl
  · rcases List.mem_pair.mp hsign with hsign | hsign
    · rw [hsign]
      show Text.isExponent (h.e :: '+' :: h.exponent) = true
      rw [Text.isExponent, he, hafter]
      rfl
    · rw [hsign]
      show Text.isExponent (h.e :: '-' :: h.exponent) = true
      rw [Text.isExponent, he, hafter]
      rfl

/-- the number without its sign, -/
theorem isDecimal_eq (h : Scientific core) :
    Text.isDecimal (h.whole ++ (h.fraction ++ h.e :: (h.exponentSign ++ h.exponent))) = true := by
  have he : (Text.decimalValue h.e).isSome = false ∧ h.e ≠ '_' := by
    rcases h.isE with he | he <;> rw [he] <;> decide
  have hpoint : h.e ≠ '.' := by
    rcases h.isE with he | he <;> rw [he] <;> decide
  unfold Text.isDecimal
  rcases h.isFraction with hfraction | ⟨ds, hfraction, hds⟩
  · rw [hfraction, List.nil_append, Text.afterDigits_append h.isWhole.1 h.isWhole.2]
    · split
      · next heq => exact absurd (List.cons.inj (Option.some.inj heq)).1 hpoint
      · next heq =>
        cases heq
        exact h.isExponent_eq
      · next heq => cases heq
    · intro c hc
      cases hc
      exact he
  · rw [hfraction, List.cons_append, Text.afterDigits_append h.isWhole.1 h.isWhole.2]
    · show Text.isExponent ((Text.afterDigits _).getD _) = true
      rw [Text.afterDigits_append hds.1 hds.2]
      · exact h.isExponent_eq
      · intro c hc
        cases hc
        exact he
    · intro c hc
      cases hc
      decide

/-- and all of it. -/
theorem isFloat_eq (h : Scientific core) {s : String} (hs : Text.strip s.toList = core) :
    Text.isFloat s = true := by
  have hdecimal := h.isDecimal_eq
  unfold Text.isFloat
  dsimp only
  rw [hs, h.core_eq]
  -- without a sign the first digit is neither plus nor minus
  rcases List.mem_cons.mp h.isSign with hsign | hsign
  · rw [hsign, List.nil_append]
    obtain ⟨d, ds, hds⟩ := List.exists_cons_of_ne_nil h.isWhole.1
    have hdigit := h.isWhole.2 d (by rw [hds]; exact List.mem_cons_self)
    split
    · next heq =>
      rw [hds] at heq
      rw [(List.cons.inj heq).1] at hdigit
      exact absurd hdigit (by decide)
    · next heq =>
      rw [hds] at heq
      rw [(List.cons.inj heq).1] at hdigit
      exact absurd hdigit (by decide)
    · rw [hdecimal]
      rfl
  · rcases List.mem_pair.mp hsign with hsign | hsign
    · rw [hsign, List.singleton_append]
      show (Text.isDecimal _ || _) = true
      rw [hdecimal, Bool.true_or]
    · rw [hsign, List.singleton_append]
      show (Text.isDecimal _ || _) = true
      rw [hdecimal, Bool.true_or]

end Scientific

/-- **`float` takes every text of the pattern.** -/
theorem isFloat_of_scientificValue {s : String} (h : scientificValue s = true) :
    Text.isFloat s = true := by
  obtain ⟨core, ⟨hcore⟩, hs⟩ := scientificValue_spec h
  refine hcore.isFloat_eq ?_
  rcases hs with hs | hs
  · rw [hs]
    exact Text.strip_of_not_space hcore.isSpace
  · rw [hs]
    exact Text.strip_append_space hcore.isSpace hcore.ne_nil (by decide)

/-! ### What arrives -/

/-- The name of a field behind the translations. -/
def translatedName (env : SplunkEnv) (field : String) : String :=
  if env.customTranslations.entries.isEmpty then field
  else (translation env.customTranslations field).getD field

/-- The item of a field; a translation gives it another name. -/
def SameItem (item values : Item) : Prop :=
  item = values ∨ ∃ name, item = values.insert "name" (.str name)

/-- What the output of `prepare` has for a field with an item: in an event the item under the
name of the field, in a metric the value under the last part of the name, when the value of the
item is what is written there last. -/
inductive Found (env : SplunkEnv) (work : Work) (p : Prepared) (field : String) (values : Item)
    (v : Json) : Prop
  | event {e : Event} {item : Item} (he : e ∈ p.events) (hitem : e.content.get? field = some item)
      (hsame : SameItem item values) (hv : item.value = .ok v)
  | metric {data : WorkGroup} {fields : Dict String Json} {a : Assignment}
      (hfields : setMetricsFields env work data = .ok fields)
      (hmetric : metricDoc env work fields ∈ p.metrics)
      (ha : lastAssignment (assignments env work data) (shortField field) = some a)
      (hvalue : a.value = values.value) (hv : fields.get? (shortField field) = some v)

/-- A value arrives for the field at a place. -/
def Arrives (env : SplunkEnv) (work : Except PyError Work) (place : EntryPlace) (v : Json) : Prop :=
  ∃ w p data values, work = .ok w ∧ prepare env w = .ok p ∧
    w.result.get? place.groupKey = some data ∧ data.fields.get? place.name = some values ∧
      Found env w p (translatedName env place.name) values v

section Arrives

variable {env : SplunkEnv} {work : Work} {p : Prepared} {field : String} {values : Item}
  {v : Json} {x : Float} {place : EntryPlace} {item : MetricItem} {text : String}

theorem SameItem.value_eq {item : Item} (h : SameItem item values) : item.value = values.value := by
  rcases h with rfl | ⟨name, rfl⟩
  · rfl
  · exact value_insert_name values name

/-- The value of a metric is the one that is assigned last. -/
theorem assigned_of_setMetricsFields {data : WorkGroup} {fields : Dict String Json} {a : Assignment}
    {k : String} (hfields : setMetricsFields env work data = .ok fields)
    (ha : lastAssignment (assignments env work data) k = some a) (hv : fields.get? k = some v) :
    a.assigned = .ok v := by
  obtain ⟨es, hes, hfields⟩ := PyError.bind_eq_ok.mp hfields
  cases hfields
  have hrel := rel_lookup_assigned hes k
  rw [ha] at hrel
  unfold Dict.ofList at hv
  rw [Dict.get?_updateList_eq_last, Dict.get?_empty, Option.or_none] at hv
  rw [hv] at hrel
  cases hrel with
  | some hassigned => exact hassigned

/-- A number stays a number in the output. -/
theorem Found.float (h : Found env work p field values v) (hx : values.value = .ok (.float x)) :
    v = .float x := by
  cases h with
  | event he hitem hsame hv =>
    rw [hsame.value_eq, hx] at hv
    exact (Except.ok.inj hv).symm
  | @metric data fields a hfields hmetric ha hvalue hv =>
    obtain ⟨w, hw, hassigned⟩ := PyError.bind_eq_ok.mp (assigned_of_setMetricsFields hfields ha hv)
    rw [hvalue, hx] at hw
    cases hw
    split at hassigned
    · exact (Except.ok.inj hassigned).symm
    · exact (Except.ok.inj hassigned).symm

/-- **What arrives for an entry that is a number** is this number. -/
theorem arrives_float {work : Except PyError Work}
    (hwork : ∀ w, work = .ok w → HasField w place item) (hitem : item.value = .float text)
    (h : Arrives env work place v) : ∃ x, PyFloat.ofText text = some x ∧ v = .float x := by
  obtain ⟨w, p, data, values, hw, -, hdata, hvalues, hfound⟩ := h
  obtain ⟨data', values', u, hdata', hvalues', hu, hvalue⟩ := hwork w hw
  cases hdata.symm.trans hdata'
  cases hvalues.symm.trans hvalues'
  rw [hitem, ofMetricValue] at hu
  split at hu
  · next x hx =>
    cases hu
    exact ⟨x, hx, hfound.float hvalue⟩
  · cases hu

end Arrives

/-! ### The three ways -/

/-- The value of a varbind is a text. -/
def IsText (vb : ResponseVarbind) : Prop :=
  vb.value.typeName ∉ mtypesCc ∧ vb.value.typeName ∉ mtypesG ∧ vb.value.typeName ∉ mtypesR

instance (vb : ResponseVarbind) : Decidable (IsText vb) :=
  inferInstanceAs (Decidable (_ ∧ _ ∧ _))

/-- The entry of a varbind with this text is in the metrics. -/
structure HoldsText (metrics : Metrics) (vb : ResponseVarbind) (s : String) : Prop where
  isText : IsText vb
  prettyPrint : vb.value.prettyPrint = .ok s
  entry : ∃ item, vb.item? = some item ∧ entryAt metrics vb.place = some item

/-- The text never arrives from a poll, -/
def LostOnPolls (s : String) : Prop :=
  ∀ (run : PollRun) (vb : ResponseVarbind), HoldsText run.metrics vb s →
    ¬ Arrives run.splunkEnv run.work vb.place (.str s)

/-- from a translated varbind of a trap, -/
def LostOnTraps (s : String) : Prop :=
  ∀ (B : Type) (delivery : TrapDelivery B) (result : TrapResult) (vb : ResponseVarbind),
    delivery.run.returned = .ok result → HoldsText result.result vb s →
      ¬ Arrives delivery.splunkEnv delivery.work vb.place (.str s)

/-- or from one that is left over. -/
def LostUnresolved (s : String) : Prop :=
  ∀ (B : Type) (delivery : TrapDelivery B) (result : TrapResult) (oid : String),
    delivery.run.returned = .ok result →
      unresolvedEntry result.result oid = some (unresolvedItem (oid, s)) →
        ¬ Arrives delivery.splunkEnv delivery.work
          ⟨unresolvedTrapGroupKey, false, unresolvedFieldName oid⟩ (.str s)

/-- `value_as_best` of `snmp/manager.py` reads the text as a number. -/
theorem valueAsBest_of_scientificValue {s : String} (h : scientificValue s = true) :
    Sc4snmp.valueAsBest s = .float s := by
  rw [Sc4snmp.valueAsBest, if_pos (isFloat_of_scientificValue h)]

/-- The entry of a text is a field, with the text read as a number. -/
theorem HoldsText.entry_float {metrics : Metrics} {vb : ResponseVarbind} {s : String}
    (h : HoldsText metrics vb s) (hs : scientificValue s = true) :
    vb.place.isMetric = false ∧ ∃ item, entryAt metrics vb.place = some item ∧
      item.value = .float s := by
  obtain ⟨item, hitem, hentry⟩ := h.entry
  have hkind : ∃ t, mapMetricType vb.value = .ok t ∧ t ∉ mtypes := by
    unfold mapMetricType
    rw [if_neg h.isText.1, if_neg h.isText.2.1, if_neg h.isText.2.2]
    exact ⟨.f, rfl, by decide⟩
  obtain ⟨t, ht, hmtype⟩ := hkind
  have hindex : setMetricsIndex vb = .ok (t, .float s) := by
    unfold setMetricsIndex
    rw [ht, h.prettyPrint]
    show Except.ok (t, fillEmptyValue _ (Sc4snmp.valueAsBest s)) = _
    rw [valueAsBest_of_scientificValue hs]
    rfl
  have hitem' : item = ⟨t, .float s, vb.identity.oid⟩ := by
    rw [ResponseVarbind.item?, hindex] at hitem
    exact (Option.some.inj hitem).symm
  refine ⟨?_, item, hentry, by rw [hitem']⟩
  show Option.getD (vb.item?.map _) false = false
  rw [hitem, hitem']
  simp [isMetric, hmtype]

/-- **No text of the pattern arrives**, on any of the ways. -/
theorem serialNumber_lost (s : String) (hs : scientificValue s = true) :
    LostOnPolls s ∧ LostOnTraps s ∧ LostUnresolved s := by
  refine ⟨?_, ?_, ?_⟩
  · intro run vb hholds harrives
    obtain ⟨hfield, item, hentry, hvalue⟩ := hholds.entry_float hs
    obtain ⟨x, -, hx⟩ := arrives_float (fun w hw => run.hasField hw hentry hfield) hvalue harrives
    cases hx
  · intro B delivery result vb hresult hholds harrives
    obtain ⟨hfield, item, hentry, hvalue⟩ := hholds.entry_float hs
    obtain ⟨x, -, hx⟩ :=
      arrives_float (fun w hw => delivery.hasField hw hresult hentry hfield) hvalue harrives
    cases hx
  · intro B delivery result oid hresult hentry harrives
    have hvalue : (unresolvedItem (oid, s)).value = .float s := valueAsBest_of_scientificValue hs
    obtain ⟨x, -, hx⟩ :=
      arrives_float (fun w hw => delivery.hasField hw hresult hentry rfl) hvalue harrives
    cases hx

theorem serialNumber_lost_letterE :
    LostOnPolls "849867E3" ∧ LostOnTraps "849867E3" ∧ LostUnresolved "849867E3" :=
  serialNumber_lost "849867E3" (by decide)

/-! ### A serial number -/

/-- The serial number of a module. -/
def serialNumber : ResponseVarbind where
  identity := ⟨"1.3.6.1.2.1.47.1.1.1.1.11.1", "ENTITY-MIB::entPhysicalSerialNum.1", "ENTITY-MIB",
    "entPhysicalSerialNum", [.single (.int 1)]⟩
  value := ⟨"SnmpAdminString", .ok (), .ok "849867E3"⟩

/-- Mongo holds what is written. -/
def plainEnrichEnv : Enrich.EnrichEnv Item Item where
  differs := fun _ _ => true
  uptime := fun _ => .ok 0
  threshold := 20
  evaluate := fun _ field => field
  evaluateState := fun _ field => field
  bulkOrder := id
  bulkOrder_perm := List.Perm.refl

/-- The setting without options. -/
def plainSplunkEnv : SplunkEnv where
  sourcetypeTraps := "sc4snmp:traps"
  sourcetypePollingMetrics := "sc4snmp:metric"
  sourcetypePollingEvents := "sc4snmp:event"
  indexEvents := "netops"
  indexMetrics := "netmetrics"
  metricNameHyphenToUnderscore := false
  metricsIndexingEnabled := false
  aggregateTrapsEvents := false
  customTranslations := Dict.empty

/-- The first poll of a device, which answers with the serial number. -/
def serialPoll : PollRun where
  mibMap := Dict.empty
  mapping := Dict.empty
  table := [serialNumber]
  before := Dict.empty
  time := Float.ofInt 0
  time_finite := PyFloat.isFinite_ofInt_zero
  address := "192.168.0.1"
  frequency := some 60
  group := none
  enrichEnv := plainEnrichEnv
  db := ⟨Dict.empty, [], []⟩
  splunkEnv := plainSplunkEnv

/-- The device has answered with the text, the poll is delivered, and the text is not there. -/
theorem serialNumber_arrives_fails :
    HoldsText serialPoll.metrics serialNumber "849867E3" ∧
      (∃ w, serialPoll.work = .ok w ∧ ∃ p, prepare serialPoll.splunkEnv w = .ok p) ∧
      ¬ Arrives serialPoll.splunkEnv serialPoll.work serialNumber.place (.str "849867E3") := by
  have hholds : HoldsText serialPoll.metrics serialNumber "849867E3" :=
    ⟨by decide, rfl, _, rfl, rfl⟩
  have hdelivered : ∃ w, serialPoll.work = .ok w ∧ ∃ p, prepare serialPoll.splunkEnv w = .ok p :=
    ⟨_, rfl, _, rfl⟩
  obtain ⟨hfield, item, hentry, hvalue⟩ := hholds.entry_float (by decide)
  refine ⟨hholds, hdelivered, ?_⟩
  intro harrives
  obtain ⟨x, -, hx⟩ :=
    arrives_float (fun w hw => serialPoll.hasField hw hentry hfield) hvalue harrives
  cases hx

end Splunk

end Sc4snmp
