import Sc4snmp.Inventory.ConditionQuery

/-!
# Negated conditions

Each operation of a condition is negated by an operator of its own, the regular expressions by
`$not`.  Of a document that has the field, one of the two says yes.  For the orders this
takes a number on both sides, and what `float` reads can be no number.

## Main definitions

* `ComparesNumbers` — the numbers a condition with an order compares.
* `ConditionClause.withNegation` — a condition with another flag.

## Main results

* `conditionComparison_complement` — the comparison of a negated operation is the complement.
* `createQuery_complement` — **one of the two queries selects a document**.
-/

namespace Sc4snmp

open DocumentQuery
open Enrich (AttributesDoc)

/-- If the operation is an order, a number is compared with a number. -/
def ComparesNumbers (operation : ConditionOperation) (value : ConditionValue)
    (stored : StoredScalar) : Prop :=
  operation = .gt ∨ operation = .lt →
    ∃ x y, stored = .number (some x) ∧ value.toNumber = .ok (some y)

/-- A condition with another flag. -/
def ConditionClause.withNegation (condition : ConditionClause) (flag : PyVal) : ConditionClause :=
  { condition with negateOperation := flag }

@[simp] theorem withNegation_field (condition : ConditionClause) (flag : PyVal) :
    (condition.withNegation flag).field = condition.field := rfl

variable {engine : RegexEngine} {operation : ConditionOperation} {value : ConditionValue}
  {stored : StoredScalar}

/-- **The comparison of a negated operation is the complement.** -/
theorem conditionComparison_complement {comparison : Comparison ExtendedRat}
    (h : conditionComparison (some operation) value false = .ok comparison)
    (hnumbers : ComparesNumbers operation value stored) :
    ∃ comparison', conditionComparison (some operation) value true = .ok comparison' ∧
      comparison'.compiles engine = comparison.compiles engine ∧
        comparison'.holds engine (some stored) = !comparison.holds engine (some stored) := by
  cases operation with
  | equals =>
    cases h
    exact ⟨_, rfl, rfl, holds_ne _⟩
  | gt =>
    obtain ⟨x, y, rfl, hy⟩ := hnumbers (Or.inl rfl)
    obtain ⟨n, hn, heq⟩ := PyError.bind_eq_ok.mp h
    cases hy.symm.trans hn
    cases heq
    exact ⟨_, PyError.bind_eq_ok.mpr ⟨_, hy, rfl⟩, rfl, holds_lte⟩
  | lt =>
    obtain ⟨x, y, rfl, hy⟩ := hnumbers (Or.inr rfl)
    obtain ⟨n, hn, heq⟩ := PyError.bind_eq_ok.mp h
    cases hy.symm.trans hn
    cases heq
    exact ⟨_, PyError.bind_eq_ok.mpr ⟨_, hy, rfl⟩, rfl, holds_gte⟩
  | inList =>
    obtain ⟨items, hitems, h⟩ := PyError.bind_eq_ok.mp h
    obtain ⟨converted, hconverted, heq⟩ := PyError.bind_eq_ok.mp h
    cases heq
    have hnegated : conditionComparison (some .inList) value true =
        .ok (.notIn (converted.map ConditionItem.toScalar)) :=
      PyError.bind_eq_ok.mpr ⟨items, hitems, PyError.bind_eq_ok.mpr ⟨converted, hconverted, rfl⟩⟩
    exact ⟨_, hnegated, rfl, holds_notIn _⟩
  | regex =>
    obtain ⟨⟨pattern, options⟩, hregex, heq⟩ := PyError.bind_eq_ok.mp h
    cases heq
    exact ⟨_, PyError.bind_eq_ok.mpr ⟨_, hregex, rfl⟩, rfl, holds_not _⟩

/-- **One of the two queries selects a document** of the address and the family that has the
field. -/
theorem createQuery_complement (engine : RegexEngine) (address : String)
    (condition : ConditionClause) {operation : ConditionOperation}
    (hoperation : ConditionOperation.ofText condition.operation = some operation)
    {positive negative : PyVal}
    (hpositive : humanBool positive = .ok false) (hnegative : humanBool negative = .ok true)
    (hformed : WellFormed engine (condition.withNegation positive))
    (doc : AttributesDoc MetricItem) (haddress : doc.address = address)
    (hfamily : InFamily engine doc condition = true) {stored : StoredScalar}
    (hstored : storedValue doc condition.field = some stored)
    (hnumbers : ComparesNumbers operation condition.value stored) :
    ∃ q q', createQuery [condition.withNegation positive] address = .ok q ∧
      createQuery [condition.withNegation negative] address = .ok q' ∧
        q.compiles engine = true ∧ q'.compiles engine = true ∧
          q.selects engine (attributeAt doc) = !q'.selects engine (attributeAt doc) := by
  have hoperations : ∀ flag, ConditionOperation.ofText (condition.withNegation flag).operation =
      some operation := fun _ => hoperation
  obtain ⟨f, hf, hcompiles⟩ := hformed.filter
  obtain ⟨comparison, hcomparison, rfl⟩ :=
    (conditionFilter_eq_ok_iff (hoperations positive) hpositive).mp hf
  obtain ⟨comparison', hcomparison', hcompiles', hholds⟩ :=
    @conditionComparison_complement engine operation condition.value stored _ hcomparison hnumbers
  have hf' : conditionFilter (condition.withNegation negative) =
      .ok (fieldPath condition.field, comparison') :=
    (conditionFilter_eq_ok_iff (hoperations negative) hnegative).mpr
      ⟨comparison', hcomparison', rfl⟩
  have hformed' : WellFormed engine (condition.withNegation negative) :=
    ⟨⟨_, hf', hcompiles'.trans hcompiles⟩, by simpa only [withNegation_field] using hformed.family⟩
  obtain ⟨q, hq, hqc⟩ := createQuery_wellFormed (List.cons_ne_nil _ [])
    (List.forall_mem_singleton.mpr hformed) address
  obtain ⟨q', hq', hqc'⟩ := createQuery_wellFormed (List.cons_ne_nil _ [])
    (List.forall_mem_singleton.mpr hformed') address
  refine ⟨q, q', hq, hq', hqc, hqc', ?_⟩
  -- what is left of both queries is the comparison of the field
  have hsame : ∀ flag, InFamily engine doc (condition.withNegation flag) = true := fun flag =>
    (inFamily_congr (withNegation_field condition flag) doc).trans hfamily
  rw [selects_single hq haddress (hsame positive), selects_single hq' haddress (hsame negative),
    satisfies_eq hf, satisfies_eq hf']
  simp only [withNegation_field, attributeAt_fieldPath, hstored, hholds, Bool.not_not]

/-! ### A value that is no number -/

/-- An interface is faster than a value. -/
def fasterThan (value : ConditionValue) : ConditionClause :=
  { field := "IF-MIB.ifSpeed", operation := "gt", value }

/-- An interface of a host with a speed. -/
def speedGroup : AttributesDoc MetricItem :=
  fieldGroup "IF-MIB::int=1" "IF-MIB.ifSpeed" (valueAsBest "150")

theorem wellFormed_fasterThan :
    WellFormed plainEngine ((fasterThan (.scalar (.str "100"))).withNegation .none) :=
  ⟨⟨_, rfl, by decide⟩, ⟨"IF-MIB", rfl, by decide⟩⟩

theorem comparesNumbers_fasterThan :
    ComparesNumbers .gt (.scalar (.str "100")) (integerScalar 150) :=
  fun _ => ⟨PyFloat.ofRat 150, PyFloat.ofRat 100, by decide +kernel, by decide +kernel⟩

theorem createQuery_complement_fasterThan :
    ∃ q q', createQuery [(fasterThan (.scalar (.str "100"))).withNegation .none] "10.0.0.1:161" =
        .ok q ∧
      createQuery [(fasterThan (.scalar (.str "100"))).withNegation (.str "true")]
          "10.0.0.1:161" = .ok q' ∧
        q.compiles plainEngine = true ∧ q'.compiles plainEngine = true ∧
          q.selects plainEngine (attributeAt speedGroup) =
            !q'.selects plainEngine (attributeAt speedGroup) :=
  have hspeed : storedValue speedGroup "IF-MIB.ifSpeed" = some (integerScalar 150) := by
    decide +kernel
  createQuery_complement plainEngine "10.0.0.1:161" (fasterThan (.scalar (.str "100")))
    rfl rfl rfl wellFormed_fasterThan speedGroup rfl (by decide) hspeed comparesNumbers_fasterThan

/-- **A value that is no number leaves a document out of both queries.** -/
theorem createQuery_nan_selects_neither :
    WellFormed plainEngine ((fasterThan (.scalar (.str "nan"))).withNegation .none) ∧
      InFamily plainEngine speedGroup (fasterThan (.scalar (.str "nan"))) = true ∧
      storedValue speedGroup "IF-MIB.ifSpeed" = some (integerScalar 150) ∧
      filterConditionOnDatabase plainEngine [speedGroup] "10.0.0.1:161"
        [(fasterThan (.scalar (.str "nan"))).withNegation .none] = .ok [] ∧
      filterConditionOnDatabase plainEngine [speedGroup] "10.0.0.1:161"
        [(fasterThan (.scalar (.str "nan"))).withNegation (.str "true")] = .ok [] := by
  refine ⟨⟨⟨_, rfl, by decide⟩, ⟨"IF-MIB", rfl, by decide⟩⟩, by decide, by decide +kernel, ?_, ?_⟩
  · rfl
  · rfl

end Sc4snmp
