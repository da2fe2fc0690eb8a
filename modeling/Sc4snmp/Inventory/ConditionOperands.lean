import Sc4snmp.Inventory.ConditionNegation

/-!
# Equal to a value, and in a list of one

`equals` compares a field with the value as it stands in the profile; `in` first reads the
elements of its list as numbers, as the values of the fields were when they were stored.  So
a text that denotes a number is a text to one and a number to the other.

## Main definitions

* `equalsClause`, `inClause` — the two conditions.
* `Undisturbed` — no candidate has one of the two values.

## Main results

* `satisfies_equalsClause`, `satisfies_inClause` — what the two say of a document.
* `filterConditionOnDatabase_equals_in_iff` — **when both select the same documents**.
-/

namespace Sc4snmp

open DocumentQuery
open Enrich (AttributesDoc)

/-- `equals` with a value. -/
def equalsClause (field : String) (item : ConditionItem) (negate : PyVal) : ConditionClause :=
  { field, operation := "equals", value := .scalar item, negateOperation := negate }

/-- `in` with a list of one. -/
def inClause (field : String) (item : ConditionItem) (negate : PyVal) : ConditionClause :=
  { field, operation := "in", value := .list [item], negateOperation := negate }

/-- No document of the address and the family has one of two values in a field. -/
def Undisturbed (engine : RegexEngine) (docs : List (AttributesDoc MetricItem)) (address : String)
    (condition : ConditionClause) (v w : StoredScalar) : Prop :=
  ∀ doc ∈ docs, doc.address = address → InFamily engine doc condition = true →
    ∀ stored, storedValue doc condition.field = some stored → stored ≠ v ∧ stored ≠ w

variable {engine : RegexEngine} {field : String} {item converted : ConditionItem} {negate : PyVal}
  {flag : Bool}

/-! ### The two conditions -/

theorem ofText_equals : ConditionOperation.ofText "equals" = some .equals := by decide

theorem ofText_in : ConditionOperation.ofText "in" = some .inList := by decide

theorem conditionFilter_equalsClause (hnegate : humanBool negate = .ok flag) :
    conditionFilter (equalsClause field item negate) =
      .ok (fieldPath field, if flag then .ne (ConditionValue.scalar item).operand
        else .eq (ConditionValue.scalar item).operand) :=
  (conditionFilter_eq_ok_iff ofText_equals hnegate).mpr ⟨_, rfl, rfl⟩

theorem conditionFilter_inClause (hnegate : humanBool negate = .ok flag)
    (hconverted : convertToFloat true item = .ok converted) :
    conditionFilter (inClause field item negate) =
      .ok (fieldPath field, if flag then .notIn [converted.toScalar]
        else .inAny [converted.toScalar]) := by
  have hitems : [item].mapM (convertToFloat true) = .ok [converted] := by
    rw [List.mapM_cons, hconverted]
    rfl
  have hcomparison : conditionComparison (some .inList) (.list [item]) flag =
      .ok (if flag then .notIn [converted.toScalar] else .inAny [converted.toScalar]) :=
    PyError.bind_eq_ok.mpr ⟨[item], rfl, PyError.bind_eq_ok.mpr ⟨_, hitems, rfl⟩⟩
  exact (conditionFilter_eq_ok_iff ofText_in hnegate).mpr ⟨_, hcomparison, rfl⟩

/-- An element that is not converted makes no query. -/
theorem not_conditionFilter_inClause (hnegate : humanBool negate = .ok flag) {err : PyError}
    (hconverted : convertToFloat true item = .error err) (f : String × Comparison ExtendedRat) :
    conditionFilter (inClause field item negate) ≠ .ok f := by
  intro h
  obtain ⟨comparison, hcomparison, _⟩ := (conditionFilter_eq_ok_iff ofText_in hnegate).mp h
  obtain ⟨items, hitems, hrest⟩ := PyError.bind_eq_ok.mp hcomparison
  obtain ⟨results, hresults, _⟩ := PyError.bind_eq_ok.mp hrest
  cases hitems
  obtain ⟨result, hresult⟩ := (PyError.mapM_eq_ok hresults).1 item (List.mem_singleton.mpr rfl)
  rw [hconverted] at hresult
  cases hresult

/-- The operand of a value that is converted. -/
theorem operand_of_converted (hconverted : convertToFloat true item = .ok converted) :
    (ConditionValue.scalar item).operand = some item.toScalar := by
  cases item with
  | other => cases hconverted
  | int | float | str | bool => rfl

/-- `equals` says that a document has the value. -/
theorem satisfies_equalsClause (hnegate : humanBool negate = .ok flag)
    (hconverted : convertToFloat true item = .ok converted) (doc : AttributesDoc MetricItem) :
    Satisfies engine doc (equalsClause field item negate) =
      (flag ^^ equals (storedValue doc field) (some item.toScalar)) := by
  rw [satisfies_eq (conditionFilter_equalsClause hnegate), attributeAt_fieldPath,
    operand_of_converted hconverted]
  cases flag with
  | true => exact (Bool.true_xor _).symm
  | false => exact (Bool.false_xor _).symm

/-- `in` says that it has the value `float` makes of it. -/
theorem satisfies_inClause (hnegate : humanBool negate = .ok flag)
    (hconverted : convertToFloat true item = .ok converted) (doc : AttributesDoc MetricItem) :
    Satisfies engine doc (inClause field item negate) =
      (flag ^^ equals (storedValue doc field) (some converted.toScalar)) := by
  rw [satisfies_eq (conditionFilter_inClause hnegate hconverted), attributeAt_fieldPath]
  cases flag with
  | true =>
    rw [if_pos rfl, holds_notIn, holds_inAny_singleton]
    exact (Bool.true_xor _).symm
  | false =>
    rw [if_neg Bool.false_ne_true, holds_inAny_singleton]
    exact (Bool.false_xor _).symm

/-- Being one of two different values says the same of what is stored when it is neither. -/
theorem equals_eq_equals_iff {stored : Option StoredScalar} {v w : StoredScalar} (hne : v ≠ w) :
    equals stored (some v) = equals stored (some w) ↔
      ∀ s, stored = some s → s ≠ v ∧ s ≠ w := by
  cases stored with
  | none => exact iff_of_true rfl fun s h => (nomatch h)
  | some s =>
    simp only [equals_some_some, decide_eq_decide, Option.some.injEq, forall_eq']
    constructor
    · intro h
      constructor
      · exact fun hv => hne (hv.symm.trans (h.mp hv))
      · exact fun hw => hne ((h.mpr hw).symm.trans hw)
    · exact fun h => iff_of_false h.1 h.2

/-! ### What they select -/

/-- **`equals` with a value and `in` with a list of it select the same documents** exactly if the
value can be read as a number or is left a text, and this does not change it or no candidate has
one of the two values. -/
theorem filterConditionOnDatabase_equals_in_iff (engine : RegexEngine)
    (docs : List (AttributesDoc MetricItem)) (address field : String) (item : ConditionItem)
    {negate : PyVal} {flag : Bool} (hnegate : humanBool negate = .ok flag) {mib : String}
    (hmib : parseMibComponent (standardField field) = .ok mib)
    (hfamily : (familyFilter mib).2.compiles engine = true) :
    filterConditionOnDatabase engine docs address [equalsClause field item negate] =
        filterConditionOnDatabase engine docs address [inClause field item negate] ↔
      ∃ converted, convertToFloat true item = .ok converted ∧
        (item.toScalar = converted.toScalar ∨
          Undisturbed engine docs address (equalsClause field item negate) item.toScalar
            converted.toScalar) := by
  have hequals : WellFormed engine (equalsClause field item negate) := by
    refine ⟨⟨_, conditionFilter_equalsClause hnegate, ?_⟩, ⟨mib, hmib, hfamily⟩⟩
    cases flag <;> rfl
  rw [filterConditionOnDatabase_wellFormed List.getLast?_singleton
    (List.forall_mem_singleton.mpr hequals)]
  cases hconverted : convertToFloat true item with
  | error err =>
    refine iff_of_false ?_ (by simp)
    intro heq
    obtain ⟨q, hq, _⟩ := PyError.bind_eq_ok.mp heq.symm
    obtain ⟨filters, _, _, hfilters, _⟩ := createQuery_eq_ok_iff.mp hq
    obtain ⟨f, hf⟩ := (PyError.mapM_eq_ok hfilters).1 _ (List.mem_singleton.mpr rfl)
    exact not_conditionFilter_inClause hnegate hconverted f hf
  | ok converted =>
    have hin : WellFormed engine (inClause field item negate) := by
      refine ⟨⟨_, conditionFilter_inClause hnegate hconverted, ?_⟩, ⟨mib, hmib, hfamily⟩⟩
      cases flag <;> rfl
    have hsame : ∀ doc, InFamily engine doc (inClause field item negate) =
        InFamily engine doc (equalsClause field item negate) := inFamily_congr rfl
    rw [filterConditionOnDatabase_wellFormed List.getLast?_singleton
      (List.forall_mem_singleton.mpr hin), Except.ok.injEq, filter_eq_filter_iff]
    simp only [List.forall_mem_singleton, decide_eq_true_eq, hsame, Except.ok.injEq,
      exists_eq_left', satisfies_equalsClause hnegate hconverted,
      satisfies_inClause hnegate hconverted]
    by_cases hscalar : item.toScalar = converted.toScalar
    · simp [hscalar]
    · rw [or_iff_right hscalar, Undisturbed]
      refine forall₂_congr fun doc _ => ?_
      rw [and_congr_right_iff]
      refine imp_congr_right fun _ => ?_
      rw [and_congr_right_iff, ← Bool.eq_iff_iff, Bool.xor_right_inj, equals_eq_equals_iff hscalar]
      rfl

/-! ### A text that denotes a number -/

/-- An interface whose status came as the text `1`. -/
def numericStatus : List (AttributesDoc MetricItem) :=
  [fieldGroup "IF-MIB::int=1" "IF-MIB.ifAdminStatus" (valueAsBest "1")]

theorem filterConditionOnDatabase_equals_in_iff_numericStatus :
    filterConditionOnDatabase plainEngine numericStatus "10.0.0.1:161"
          [equalsClause "IF-MIB.ifAdminStatus" (.str "1") .none] =
        filterConditionOnDatabase plainEngine numericStatus "10.0.0.1:161"
          [inClause "IF-MIB.ifAdminStatus" (.str "1") .none] ↔
      ∃ converted, convertToFloat true (.str "1") = .ok converted ∧
        (ConditionItem.toScalar (.str "1") = converted.toScalar ∨
          Undisturbed plainEngine numericStatus "10.0.0.1:161"
            (equalsClause "IF-MIB.ifAdminStatus" (.str "1") .none)
            (ConditionItem.toScalar (.str "1")) converted.toScalar) :=
  have hmib : parseMibComponent (standardField "IF-MIB.ifAdminStatus") = .ok "IF-MIB" := rfl
  have hnegate : humanBool .none = .ok false := rfl
  filterConditionOnDatabase_equals_in_iff plainEngine numericStatus "10.0.0.1:161" _ _ hnegate hmib
    (by decide)

/-- **A status that came as the text `1` is in the list of it and does not equal it.** -/
theorem filterConditionOnDatabase_equals_in_differ :
    (filterConditionOnDatabase plainEngine numericStatus "10.0.0.1:161"
        [equalsClause "IF-MIB.ifAdminStatus" (.str "1") .none]).map
          (List.map AttributesDoc.groupKeyHash) = .ok [] ∧
      (filterConditionOnDatabase plainEngine numericStatus "10.0.0.1:161"
        [inClause "IF-MIB.ifAdminStatus" (.str "1") .none]).map
          (List.map AttributesDoc.groupKeyHash) = .ok ["IF-MIB::int=1"] := by
  constructor
  · decide +kernel
  · decide +kernel

end Sc4snmp
