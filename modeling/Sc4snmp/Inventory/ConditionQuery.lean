import Sc4snmp.Common.InventoryRecord
import Sc4snmp.Common.Profile
import Sc4snmp.Enrich.Tasks
import Sc4snmp.Lib.DocumentQuery
import Sc4snmp.Lib.FloatOrder

/-!
# The query of a conditional profile

`create_query` of `inventory/tasks.py` turns the conditions of a profile into a query on the
attributes `enrich` has stored.  A document is selected if it is one of the address, its
group is one of a family of MIBs, and each field compares as its condition says.  The
family is that of the condition the loop met last.

## Main definitions

* `conditionComparison` — the comparison of a condition.
* `createQuery` — the query.
* `attributeAt` — what a document of the attributes has at a path.
* `filterConditionOnDatabase` — the documents the query selects.
* `Satisfies`, `InFamily` — what a condition says of the field and of the group of a document.

## Main results

* `createQuery_eq_ok_iff` — the queries that are built.
* `selects_createQuery` — **what a query says of a document**.
-/

namespace Sc4snmp

open DocumentQuery
open Enrich (AttributesDoc)

/-! ### Values -/

/-- A value of the database. -/
abbrev StoredScalar := Scalar ExtendedRat

/-- The number of an integer. -/
def integerScalar (i : ℤ) : StoredScalar := .number (some (PyFloat.ofRat i))

/-- What the database makes of an element of a condition. -/
def ConditionItem.toScalar : ConditionItem → StoredScalar
  | int i => integerScalar i
  | float x => .number (PyFloat.value x)
  | str s => .text s
  | bool b => .bool b
  | other => .other

/-- The value of a condition as an operand. -/
def ConditionValue.operand : ConditionValue → Option StoredScalar
  | scalar .other => none
  | scalar item => some item.toScalar
  | list _ => none

/-- What the database makes of the value of an entry. -/
def MetricValue.toScalar : MetricValue → StoredScalar
  | float text => .number ((PyFloat.ofText text).bind PyFloat.value)
  | str s => .text s
  | index (.int i) => integerScalar i
  | index (.str s) => .text s
  | index _ => .other

/-! ### Conditions -/

/-- The operations of a condition. -/
inductive ConditionOperation
  | equals
  | gt
  | lt
  | inList
  | regex
  deriving DecidableEq, Repr

/-- The operation of a name, in capitals or not. -/
def ConditionOperation.ofText (operation : String) : Option ConditionOperation :=
  match Text.lower operation with
  | "equals" => some equals
  | "gt" => some gt
  | "lt" => some lt
  | "in" => some inList
  | "regex" => some regex
  | _ => none

/-- `convert_to_float`.  An integer may be too large. -/
def convertToFloat (ignoreError : Bool) : ConditionItem → Except PyError ConditionItem
  | .int i =>
    match PyFloat.ofInt i with
    | some x => .ok (.float x)
    | none => .error .other
  | .float x => .ok (.float x)
  | .str s =>
    match PyFloat.ofText s with
    | some x => .ok (.float x)
    | none => if ignoreError then .ok (.str s) else .error .other
  | .bool b => .ok (.float (Float.ofInt (if b then 1 else 0)))
  | .other => .error .typeError

/-- `convert_to_float` of a value that is no list, as a number of the database. -/
def ConditionValue.toNumber : ConditionValue → Except PyError (Option ExtendedRat)
  | scalar item => do
    match ← convertToFloat false item with
    | .float x => return PyFloat.value x
    | _ => throw .typeError
  | list _ => .error .typeError

/-- The elements a loop over a value meets. -/
def ConditionValue.items : ConditionValue → Except PyError (List ConditionItem)
  | list items => .ok items
  | scalar (.str s) => .ok (s.toList.map fun c => .str (String.ofList [c]))
  | scalar _ => .error .typeError

/-- The text without the given character at both ends. -/
def stripChar (c : Char) (s : String) : String :=
  String.ofList ((s.toList.dropWhile (· = c)).reverse.dropWhile (· = c)).reverse

/-- `_prepare_regex`: a pattern and, after a slash, its options. -/
def prepareRegex : ConditionValue → Except PyError (String × String)
  | .scalar (.str s) =>
    match Text.splitOn '/' (stripChar '/' s) with
    | [] => .ok ("", "")
    | [pattern] => .ok (pattern, "")
    | pattern :: options :: _ => .ok (pattern, options)
  | _ => .error .attributeError

/-- The operators of `profile_mappings`, with the operands of `_get_value_for_operation`.  A
name that is no operation leaves a document for an operand. -/
def conditionComparison (operation : Option ConditionOperation) (value : ConditionValue)
    (negate : Bool) : Except PyError (Comparison ExtendedRat) :=
  match operation with
  | some .equals => return if negate then .ne value.operand else .eq value.operand
  | some .gt => do
    let n ← value.toNumber
    return if negate then .lte n else .gt n
  | some .lt => do
    let n ← value.toNumber
    return if negate then .gte n else .lt n
  | some .inList => do
    let items ← value.items
    let converted ← items.mapM (convertToFloat true)
    let vs := converted.map ConditionItem.toScalar
    return if negate then .notIn vs else .inAny vs
  | some .regex => do
    let (pattern, options) ← prepareRegex value
    return if negate then .not (.regex pattern options) else .regex pattern options
  | none => return .eq none

/-! ### The query -/

/-- A field as it is stored. -/
def standardField (field : String) : String := Text.replaceChar '.' '|' field

/-- Where a document has the value of a field. -/
def fieldPath (field : String) : String := "fields." ++ standardField field ++ ".value"

/-- The body of the loop of `create_query`. -/
def conditionFilter (condition : ConditionClause) :
    Except PyError (String × Comparison ExtendedRat) := do
  let negate ← humanBool condition.negateOperation
  let operation := ConditionOperation.ofText condition.operation
  let comparison ← conditionComparison operation condition.value negate
  return (fieldPath condition.field, comparison)

/-- `_parse_mib_component`. -/
def parseMibComponent (field : String) : Except PyError String :=
  match Text.splitOn '|' field with
  | mib :: _ :: _ => .ok mib
  | _ => .error .other

/-- The filter of the groups of a family of MIBs. -/
def familyFilter (mib : String) : String × Comparison ExtendedRat :=
  ("group_key_hash", .regex ("^" ++ mib) "")

/-- The filter of an address. -/
def addressFilter (address : String) : String × Comparison ExtendedRat :=
  ("address", .eq (some (.text address)))

/-- `create_query`.  After the loop, `field` is the one of the last condition. -/
def createQuery (conditions : List ConditionClause) (address : String) :
    Except PyError (Query String ExtendedRat) := do
  let filters ← conditions.mapM conditionFilter
  match conditions.getLast? with
  | none => throw .other
  | some condition =>
    let mib ← parseMibComponent (standardField condition.field)
    return ⟨addressFilter address :: familyFilter mib :: filters⟩

/-! ### The attributes -/

/-- What a document of the attributes has at a path. -/
def attributeAt (doc : AttributesDoc MetricItem) (path : String) : Option StoredScalar :=
  match Text.splitOn '.' path with
  | ["address"] => some (.text doc.address)
  | ["group_key_hash"] => some (.text doc.groupKeyHash)
  | ["fields", field, "value"] =>
    (doc.fields.get? field).map fun stored => stored.content.value.toScalar
  | _ => none

/-- The value of a field of a document. -/
def storedValue (doc : AttributesDoc MetricItem) (field : String) : Option StoredScalar :=
  (doc.fields.get? (standardField field)).map fun stored => stored.content.value.toScalar

/-- `filter_condition_on_database`, as the documents it finds. -/
def filterConditionOnDatabase (engine : RegexEngine) (docs : List (AttributesDoc MetricItem))
    (address : String) (conditions : List ConditionClause) :
    Except PyError (List (AttributesDoc MetricItem)) := do
  let q ← createQuery conditions address
  match q.find engine attributeAt docs with
  | some found => return found
  | none => throw .other

@[simp] theorem attributeAt_address (doc : AttributesDoc MetricItem) :
    attributeAt doc "address" = some (.text doc.address) := rfl

/-- The path of a field leads to its value: the field has no dots. -/
@[simp] theorem attributeAt_fieldPath (doc : AttributesDoc MetricItem) (field : String) :
    attributeAt doc (fieldPath field) = storedValue doc field := by
  have hdots : '.' ∉ (standardField field).toList := by
    rw [standardField, Text.replaceChar, String.toList_ofList, List.mem_map]
    rintro ⟨c, _, hc⟩
    split at hc
    · exact absurd hc (by decide)
    · next hne => exact hne hc
  have hpath : fieldPath field = ".".intercalate ["fields", standardField field, "value"] := by
    apply String.toList_injective
    simp [fieldPath, String.toList_append]
  have hsplit : Text.splitOn '.' (fieldPath field) = ["fields", standardField field, "value"] := by
    rw [hpath]
    refine Text.splitOn_intercalate_of_notMem rfl (List.cons_ne_nil _ _) ?_
    simp only [List.forall_mem_cons, List.not_mem_nil, false_implies, implies_true, and_true]
    exact ⟨by decide, hdots, by decide⟩
  rw [attributeAt, hsplit]
  rfl

/-! ### What a query says of a document -/

/-- The field of a document compares as a condition says. -/
def Satisfies (engine : RegexEngine) (doc : AttributesDoc MetricItem)
    (condition : ConditionClause) : Bool :=
  match conditionFilter condition with
  | .ok (path, comparison) => comparison.holds engine (attributeAt doc path)
  | .error _ => false

/-- The group of a document is one of the family of a condition. -/
def InFamily (engine : RegexEngine) (doc : AttributesDoc MetricItem)
    (condition : ConditionClause) : Bool :=
  match parseMibComponent (standardField condition.field) with
  | .ok mib => (familyFilter mib).2.holds engine (attributeAt doc (familyFilter mib).1)
  | .error _ => false

/-- A condition the database understands: its operation has a value of the right kind, its
field names a family of MIBs, and its patterns compile. -/
structure WellFormed (engine : RegexEngine) (condition : ConditionClause) : Prop where
  filter : ∃ f, conditionFilter condition = .ok f ∧ f.2.compiles engine = true
  family : ∃ mib, parseMibComponent (standardField condition.field) = .ok mib ∧
    (familyFilter mib).2.compiles engine = true

variable {engine : RegexEngine} {conditions : List ConditionClause} {address : String}

/-- The filter of a condition, by its operation and its flag. -/
theorem conditionFilter_eq_ok_iff {condition : ConditionClause}
    {operation : Option ConditionOperation} {negate : Bool}
    (hoperation : ConditionOperation.ofText condition.operation = operation)
    (hnegate : humanBool condition.negateOperation = .ok negate)
    {f : String × Comparison ExtendedRat} :
    conditionFilter condition = .ok f ↔
      ∃ comparison, conditionComparison operation condition.value negate = .ok comparison ∧
        f = (fieldPath condition.field, comparison) := by
  subst hoperation
  rw [conditionFilter, PyError.bind_eq_ok]
  constructor
  · rintro ⟨negate', hnegate', h⟩
    cases hnegate.symm.trans hnegate'
    obtain ⟨comparison, hcomparison, heq⟩ := PyError.bind_eq_ok.mp h
    cases heq
    exact ⟨comparison, hcomparison, rfl⟩
  · rintro ⟨comparison, hcomparison, rfl⟩
    exact ⟨negate, hnegate, PyError.bind_eq_ok.mpr ⟨comparison, hcomparison, rfl⟩⟩

/-- The family is that of the field. -/
theorem inFamily_congr {condition condition' : ConditionClause}
    (h : condition.field = condition'.field) (doc : AttributesDoc MetricItem) :
    InFamily engine doc condition = InFamily engine doc condition' := by
  rw [InFamily, InFamily, h]

/-- The queries that are built. -/
theorem createQuery_eq_ok_iff {q : Query String ExtendedRat} :
    createQuery conditions address = .ok q ↔
      ∃ filters condition mib, conditions.mapM conditionFilter = .ok filters ∧
        conditions.getLast? = some condition ∧
          parseMibComponent (standardField condition.field) = .ok mib ∧
            q = ⟨addressFilter address :: familyFilter mib :: filters⟩ := by
  rw [createQuery, PyError.bind_eq_ok]
  constructor
  · rintro ⟨filters, hfilters, hrest⟩
    cases hlast : conditions.getLast? with
    | none =>
      rw [hlast] at hrest
      cases hrest
    | some condition =>
      rw [hlast] at hrest
      obtain ⟨mib, hmib, hq⟩ := PyError.bind_eq_ok.mp hrest
      cases hq
      exact ⟨filters, condition, mib, hfilters, rfl, hmib, rfl⟩
  · rintro ⟨filters, condition, mib, hfilters, hlast, hmib, rfl⟩
    refine ⟨filters, hfilters, ?_⟩
    rw [hlast]
    exact PyError.bind_eq_ok.mpr ⟨mib, hmib, rfl⟩

/-- A condition says of a document what its filter says. -/
theorem satisfies_eq {condition : ConditionClause} {f : String × Comparison ExtendedRat}
    (hf : conditionFilter condition = .ok f) (doc : AttributesDoc MetricItem) :
    Satisfies engine doc condition = f.2.holds engine (attributeAt doc f.1) := by
  rw [Satisfies, hf]

/-- What the filters of some conditions say of a document. -/
theorem all_filters_iff {filters : List (String × Comparison ExtendedRat)}
    (h : conditions.mapM conditionFilter = .ok filters) (doc : AttributesDoc MetricItem) :
    (filters.all fun f => f.2.holds engine (attributeAt doc f.1)) = true ↔
      ∀ condition ∈ conditions, Satisfies engine doc condition = true := by
  obtain ⟨hall, hmem⟩ := PyError.mapM_eq_ok h
  rw [List.all_eq_true]
  constructor
  · intro hfilters condition hcondition
    obtain ⟨f, hf⟩ := hall condition hcondition
    rw [satisfies_eq hf]
    exact hfilters f ((hmem f).mpr ⟨condition, hcondition, hf⟩)
  · intro hsatisfies f hf
    obtain ⟨condition, hcondition, heq⟩ := (hmem f).mp hf
    exact (satisfies_eq heq doc).symm.trans (hsatisfies condition hcondition)

/-- **What a query says of a document**: it is one of the address, its group is one of the
family of the last condition, and all conditions are satisfied. -/
theorem selects_createQuery {q : Query String ExtendedRat} {condition : ConditionClause}
    (h : createQuery conditions address = .ok q) (hlast : conditions.getLast? = some condition)
    (doc : AttributesDoc MetricItem) :
    q.selects engine (attributeAt doc) = true ↔
      doc.address = address ∧ InFamily engine doc condition = true ∧
        ∀ condition ∈ conditions, Satisfies engine doc condition = true := by
  obtain ⟨filters, condition', mib, hfilters, hlast', hmib, rfl⟩ := createQuery_eq_ok_iff.mp h
  cases hlast.symm.trans hlast'
  have hfamily : InFamily engine doc condition =
      (familyFilter mib).2.holds engine (attributeAt doc (familyFilter mib).1) := by
    rw [InFamily, hmib]
  rw [Query.selects, List.all_cons, List.all_cons, Bool.and_eq_true, Bool.and_eq_true,
    all_filters_iff hfilters, hfamily]
  simp [addressFilter]

/-- The query of a single condition, of a document of the address and the family. -/
theorem selects_single {q : Query String ExtendedRat} {condition : ConditionClause}
    (h : createQuery [condition] address = .ok q) {doc : AttributesDoc MetricItem}
    (haddress : doc.address = address) (hfamily : InFamily engine doc condition = true) :
    q.selects engine (attributeAt doc) = Satisfies engine doc condition := by
  rw [Bool.eq_iff_iff, selects_createQuery h rfl, List.forall_mem_singleton]
  exact ⟨fun h => h.2.2, fun h => ⟨haddress, hfamily, h⟩⟩

/-- Well-formed conditions make a query that is not refused. -/
theorem createQuery_wellFormed (hne : conditions ≠ [])
    (hformed : ∀ condition ∈ conditions, WellFormed engine condition) (address : String) :
    ∃ q, createQuery conditions address = .ok q ∧ q.compiles engine = true := by
  obtain ⟨filters, hfilters⟩ : ∃ filters, conditions.mapM conditionFilter = .ok filters :=
    PyError.mapM_returns_iff.mpr fun condition hcondition =>
      (hformed condition hcondition).filter.imp fun f hf => hf.1
  obtain ⟨mib, hmib, hcompiles⟩ := (hformed _ (List.getLast_mem hne)).family
  refine ⟨_, createQuery_eq_ok_iff.mpr
    ⟨filters, _, mib, hfilters, List.getLast?_eq_some_getLast hne, hmib, rfl⟩, ?_⟩
  rw [Query.compiles, List.all_cons, List.all_cons, Bool.and_eq_true, Bool.and_eq_true]
  refine ⟨rfl, hcompiles, List.all_eq_true.mpr fun f hf => ?_⟩
  obtain ⟨condition, hcondition, heq⟩ := ((PyError.mapM_eq_ok hfilters).2 f).mp hf
  obtain ⟨f', hf', hcompiles'⟩ := (hformed condition hcondition).filter
  cases heq.symm.trans hf'
  exact hcompiles'

/-- The documents that well-formed conditions select. -/
theorem filterConditionOnDatabase_wellFormed {condition : ConditionClause}
    (hlast : conditions.getLast? = some condition)
    (hformed : ∀ condition ∈ conditions, WellFormed engine condition) (address : String)
    (docs : List (AttributesDoc MetricItem)) :
    filterConditionOnDatabase engine docs address conditions =
      .ok (docs.filter fun doc => doc.address = address ∧ InFamily engine doc condition = true ∧
        ∀ condition ∈ conditions, Satisfies engine doc condition = true) := by
  have hne : conditions ≠ [] := by
    rintro rfl
    cases hlast
  obtain ⟨q, hq, hcompiles⟩ := createQuery_wellFormed hne hformed address
  have hfind : q.find engine attributeAt docs =
      some (docs.filter fun doc => doc.address = address ∧ InFamily engine doc condition = true ∧
        ∀ condition ∈ conditions, Satisfies engine doc condition = true) := by
    refine (find_eq_some_filter_iff hcompiles _).mpr fun doc _ => ?_
    rw [selects_createQuery hq hlast, decide_eq_true_eq]
  rw [filterConditionOnDatabase]
  refine PyError.bind_eq_ok.mpr ⟨q, hq, ?_⟩
  rw [hfind]
  rfl

/-! ### Groups of one field, and patterns that stand for themselves -/

/-- A group of a host with one field. -/
def fieldGroup (groupKeyHash field : String) (value : MetricValue) : AttributesDoc MetricItem where
  address := "10.0.0.1:161"
  groupKeyHash := groupKeyHash
  indexes := some [.int 1]
  id := some groupKeyHash
  fields := Dict.ofList [(standardField field, ⟨field, ⟨.f, value, "1.3.6.1.2.1"⟩⟩)]

/-- A letter, a digit or a hyphen, which stands for itself in a pattern. -/
def isPlain (c : Char) : Bool := c.isAlphanum || c = '-'

/-- The engine for patterns of such characters, with or without a caret in front. -/
def plainEngine : RegexEngine where
  compile pattern options :=
    match options, pattern.toList with
    | "", '^' :: cs => if cs.all isPlain then some fun s => cs.isPrefixOf s.toList else none
    | "", cs => if cs.all isPlain then some fun s => Text.contains s pattern else none
    | _, _ => none

end Sc4snmp
