import Sc4snmp.Inventory.ConditionQuery

/-!
# The order of conditions

A conditional profile stands for the documents that satisfy each of its conditions taken on
its own.  The query has a filter for the groups of one family of MIBs only, the one of the
condition that comes last, so which documents it selects can depend on the order.

## Main definitions

* `SelectedAlone` — a condition, on its own, selects a document.
* `FamiliesAgree` — the families do not tell the candidates apart.

## Main results

* `selectedAlone_iff` — what a condition on its own says.
* `filterConditionOnDatabase_perm_iff` — **when every order selects the documents that each
  condition selects**.
* `familiesAgree_of_one_family` — conditions of one family of MIBs can come in any order.
-/

namespace Sc4snmp

open DocumentQuery
open Enrich (AttributesDoc)

/-- The query of a single condition selects a document. -/
def SelectedAlone (engine : RegexEngine) (address : String) (doc : AttributesDoc MetricItem)
    (condition : ConditionClause) : Bool :=
  match createQuery [condition] address with
  | .ok q => q.selects engine (attributeAt doc)
  | .error _ => false

/-- A document of the address that satisfies all conditions is in the families of all of them
or of none. -/
def FamiliesAgree (engine : RegexEngine) (docs : List (AttributesDoc MetricItem))
    (address : String) (conditions : List ConditionClause) : Prop :=
  ∀ doc ∈ docs, doc.address = address →
    (∀ condition ∈ conditions, Satisfies engine doc condition = true) →
      (∀ condition ∈ conditions, InFamily engine doc condition = true) ∨
        ∀ condition ∈ conditions, InFamily engine doc condition ≠ true

variable {engine : RegexEngine} {address : String} {docs : List (AttributesDoc MetricItem)}
  {conditions : List ConditionClause}

/-- What a condition on its own says of a document. -/
theorem selectedAlone_iff {condition : ConditionClause} (hformed : WellFormed engine condition)
    (doc : AttributesDoc MetricItem) :
    SelectedAlone engine address doc condition = true ↔
      doc.address = address ∧ InFamily engine doc condition = true ∧
        Satisfies engine doc condition = true := by
  obtain ⟨q, hq, _⟩ := createQuery_wellFormed (List.cons_ne_nil condition [])
    (by simpa using hformed) address
  rw [SelectedAlone, hq, selects_createQuery hq rfl]
  simp

/-- A condition can be put at the end. -/
theorem exists_perm_getLast {condition : ConditionClause} (h : condition ∈ conditions) :
    ∃ conditions' : List ConditionClause,
      conditions'.Perm conditions ∧ conditions'.getLast? = some condition := by
  obtain ⟨front, back, rfl⟩ := List.append_of_mem h
  refine ⟨front ++ back ++ [condition], ?_, by simp⟩
  rw [List.append_assoc]
  exact (List.perm_append_singleton condition back).append_left front

/-- The documents the conditions select in an order, and those each of them selects. -/
theorem filterConditionOnDatabase_eq_iff {conditions' : List ConditionClause}
    (hperm : conditions'.Perm conditions) {last : ConditionClause}
    (hlast : conditions'.getLast? = some last)
    (hformed : ∀ condition ∈ conditions, WellFormed engine condition) :
    filterConditionOnDatabase engine docs address conditions' =
        .ok (docs.filter fun doc =>
          ∀ condition ∈ conditions, SelectedAlone engine address doc condition = true) ↔
      ∀ doc ∈ docs, doc.address = address →
        (∀ condition ∈ conditions, Satisfies engine doc condition = true) →
          InFamily engine doc last = true →
            ∀ condition ∈ conditions, InFamily engine doc condition = true := by
  have hmem : last ∈ conditions := hperm.mem_iff.mp (List.mem_of_getLast? hlast)
  rw [filterConditionOnDatabase_wellFormed hlast
    (fun condition hcondition => hformed condition (hperm.mem_iff.mp hcondition)),
    Except.ok.injEq, filter_eq_filter_iff]
  refine forall₂_congr fun doc _ => ?_
  have halone : (∀ condition ∈ conditions, SelectedAlone engine address doc condition = true) ↔
      ∀ condition ∈ conditions, doc.address = address ∧ InFamily engine doc condition = true ∧
        Satisfies engine doc condition = true :=
    forall₂_congr fun condition hcondition => selectedAlone_iff (hformed condition hcondition) doc
  have hsame : (∀ condition ∈ conditions', Satisfies engine doc condition = true) ↔
      ∀ condition ∈ conditions, Satisfies engine doc condition = true :=
    forall_congr' fun condition => imp_congr_left hperm.mem_iff
  rw [decide_eq_true_eq, decide_eq_true_eq, halone, hsame]
  constructor
  · intro h haddress hsatisfies hlast condition hcondition
    exact (h.mp ⟨haddress, hlast, hsatisfies⟩ condition hcondition).2.1
  · intro h
    constructor
    · rintro ⟨haddress, hlast, hsatisfies⟩ condition hcondition
      exact ⟨haddress, h haddress hsatisfies hlast condition hcondition,
        hsatisfies condition hcondition⟩
    · intro hall
      exact ⟨(hall last hmem).1, (hall last hmem).2.1,
        fun condition hcondition => (hall condition hcondition).2.2⟩

/-- **Every order of the conditions selects the documents that each condition selects on its
own** exactly if the families of MIBs do not tell the candidates apart. -/
theorem filterConditionOnDatabase_perm_iff (engine : RegexEngine)
    (docs : List (AttributesDoc MetricItem)) (address : String) (conditions : List ConditionClause)
    (hne : conditions ≠ []) (hformed : ∀ condition ∈ conditions, WellFormed engine condition) :
    (∀ conditions', conditions'.Perm conditions →
        filterConditionOnDatabase engine docs address conditions' =
          .ok (docs.filter fun doc =>
            ∀ condition ∈ conditions, SelectedAlone engine address doc condition = true)) ↔
      FamiliesAgree engine docs address conditions := by
  constructor
  · intro h doc hdoc haddress hsatisfies
    by_cases hnone : ∀ condition ∈ conditions, InFamily engine doc condition ≠ true
    · exact Or.inr hnone
    · -- the condition of the family goes to the end
      push Not at hnone
      obtain ⟨last, hmem, hfamily⟩ := hnone
      obtain ⟨conditions', hperm, hlast⟩ := exists_perm_getLast hmem
      exact Or.inl ((filterConditionOnDatabase_eq_iff hperm hlast hformed).mp (h conditions' hperm)
        doc hdoc haddress hsatisfies hfamily)
  · intro h conditions' hperm
    have hne' : conditions' ≠ [] := by
      rintro rfl
      exact hne hperm.symm.eq_nil
    have hlast := List.getLast?_eq_some_getLast hne'
    refine (filterConditionOnDatabase_eq_iff hperm hlast hformed).mpr ?_
    intro doc hdoc haddress hsatisfies hfamily
    rcases h doc hdoc haddress hsatisfies with hall | hnone
    · exact hall
    · exact absurd hfamily (hnone _ (hperm.mem_iff.mp (List.getLast_mem hne')))

/-- Conditions on fields of one family of MIBs can come in any order. -/
theorem familiesAgree_of_one_family {mib : String}
    (h : ∀ condition ∈ conditions, parseMibComponent (standardField condition.field) = .ok mib) :
    FamiliesAgree engine docs address conditions := by
  intro doc _ _ _
  have hsame : ∀ condition ∈ conditions, InFamily engine doc condition =
      (familyFilter mib).2.holds engine (attributeAt doc (familyFilter mib).1) := by
    intro condition hcondition
    rw [InFamily, h condition hcondition]
  by_cases hfamily :
      (familyFilter mib).2.holds engine (attributeAt doc (familyFilter mib).1) = true
  · exact Or.inl fun condition hcondition => (hsame condition hcondition).trans hfamily
  · exact Or.inr fun condition hcondition => by rwa [hsame condition hcondition]

/-! ### Conditions of two families -/

/-- The interface is up. -/
def interfaceUp : ConditionClause :=
  { field := "IF-MIB.ifAdminStatus", operation := "equals", value := .scalar (.str "up") }

/-- The mask of the address is not that of the loopback. -/
def maskOther : ConditionClause :=
  { field := "IP-MIB.ipAdEntNetMask", operation := "equals", value := .scalar (.str "255.0.0.0"),
    negateOperation := .str "true" }

/-- An interface that is up, and an address. -/
def twoGroups : List (AttributesDoc MetricItem) :=
  [fieldGroup "IF-MIB::int=1" "IF-MIB.ifAdminStatus" (.str "up"),
    fieldGroup "IP-MIB::int=1" "IP-MIB.ipAdEntNetMask" (.str "255.255.255.0")]

theorem wellFormed_twoConditions :
    ∀ condition ∈ [interfaceUp, maskOther], WellFormed plainEngine condition := by
  intro condition hcondition
  rcases List.mem_pair.mp hcondition with rfl | rfl
  · exact ⟨⟨_, rfl, rfl⟩, ⟨"IF-MIB", rfl, by decide⟩⟩
  · exact ⟨⟨_, rfl, rfl⟩, ⟨"IP-MIB", rfl, by decide⟩⟩

theorem filterConditionOnDatabase_perm_iff_twoGroups :
    (∀ conditions', conditions'.Perm [interfaceUp, maskOther] →
        filterConditionOnDatabase plainEngine twoGroups "10.0.0.1:161" conditions' =
          .ok (twoGroups.filter fun doc => ∀ condition ∈ [interfaceUp, maskOther],
            SelectedAlone plainEngine "10.0.0.1:161" doc condition = true)) ↔
      FamiliesAgree plainEngine twoGroups "10.0.0.1:161" [interfaceUp, maskOther] :=
  filterConditionOnDatabase_perm_iff plainEngine twoGroups "10.0.0.1:161" _ (List.cons_ne_nil _ _)
    wellFormed_twoConditions

/-- **The same two conditions select nothing in one order and an interface in the other.** -/
theorem filterConditionOnDatabase_order_matters :
    (∀ condition ∈ [interfaceUp, maskOther], WellFormed plainEngine condition) ∧
      (filterConditionOnDatabase plainEngine twoGroups "10.0.0.1:161"
        [interfaceUp, maskOther]).map (List.map AttributesDoc.groupKeyHash) = .ok [] ∧
      (filterConditionOnDatabase plainEngine twoGroups "10.0.0.1:161"
        [maskOther, interfaceUp]).map (List.map AttributesDoc.groupKeyHash) =
          .ok ["IF-MIB::int=1"] := by
  refine ⟨wellFormed_twoConditions, ?_, ?_⟩
  · decide +kernel
  · decide +kernel

end Sc4snmp
