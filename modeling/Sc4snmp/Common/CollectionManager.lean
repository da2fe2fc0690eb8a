import Sc4snmp.Common.Profile

/-!
# Configuration collections

`common/collection_manager.py` with the schemas of `common/collections_schemas.py`: a
collection of the configuration holds one document for each element, and an update
replaces all of them.  The transaction of the update is opened on a session that
none of its two writes is given, so the server runs both of them on their own.

## Main definitions

* `returnCollection` — reading a collection.
* `updateCollectionOps`, `Database.perform` — replacing one, as the operations it issues.
* `validateProfiles` — the profiles the schemas accept.

## Main results

* `documents_updateCollection` — what an update leaves when nobody else is about.
-/

namespace Sc4snmp

section Collection

variable {ν : Type}

/-! ### Reading -/

/-- `return_collection_once`: the documents a `find` returns, put together. -/
def returnCollectionOnce (documents : List (String × ν)) : Dict String ν := Dict.ofList documents

/-- `return_collection`, from what its finds return: the first that is not empty. -/
def returnCollection : List (List (String × ν)) → Dict String ν
  | [] => Dict.empty
  | documents :: finds =>
    if (returnCollectionOnce documents).entries.isEmpty then returnCollection finds
    else returnCollectionOnce documents

theorem isEmpty_returnCollectionOnce (documents : List (String × ν)) :
    (returnCollectionOnce documents).entries.isEmpty = documents.isEmpty := by
  cases documents with
  | nil => rfl
  | cons document documents =>
    have hmem : document.1 ∈ (returnCollectionOnce (document :: documents)).keys := by
      rw [returnCollectionOnce, Dict.ofList, Dict.mem_keys_updateList]
      exact Or.inl List.mem_cons_self
    rw [List.isEmpty_cons, ← Bool.not_eq_true, List.isEmpty_iff]
    intro hnil
    rw [Dict.keys, hnil] at hmem
    cases hmem

/-- A read comes back with nothing, or with all that one of its finds returned. -/
theorem returnCollection_cases (finds : List (List (String × ν))) :
    ((∀ documents ∈ finds, documents = []) ∧ returnCollection finds = Dict.empty) ∨
      ∃ documents ∈ finds, documents ≠ [] ∧
        returnCollection finds = returnCollectionOnce documents := by
  induction finds with
  | nil => exact Or.inl ⟨by simp, rfl⟩
  | cons documents finds ih =>
    unfold returnCollection
    rw [isEmpty_returnCollectionOnce]
    cases documents with
    | nil =>
      rw [List.isEmpty_nil, if_pos rfl]
      rcases ih with ⟨hall, hnone⟩ | ⟨documents, hmem, hne, hread⟩
      · exact Or.inl ⟨List.forall_mem_cons.mpr ⟨rfl, hall⟩, hnone⟩
      · exact Or.inr ⟨documents, List.mem_cons_of_mem _ hmem, hne, hread⟩
    | cons document documents =>
      rw [List.isEmpty_cons, if_neg (by simp)]
      exact Or.inr ⟨_, List.mem_cons_self, List.cons_ne_nil _ _, rfl⟩

/-! ### Replacing -/

/-- A write of many documents. -/
inductive CollectionWrite (ν : Type)
  | deleteMany
  | insertMany (documents : List (String × ν))

/-- What a write makes of the documents. -/
def CollectionWrite.apply (documents : List (String × ν)) :
    CollectionWrite ν → List (String × ν)
  | .deleteMany => []
  | .insertMany inserted => documents ++ inserted

/-- The operations of a client.  A write is part of the transaction of a session when
it is given the session. -/
inductive DatabaseOp (ν : Type)
  | startTransaction
  | write (w : CollectionWrite ν) (session : Bool)
  | commitTransaction

/-- A collection on the server: what others read, and the writes of the open
transaction. -/
structure Database (ν : Type) where
  documents : List (String × ν)
  transaction : List (CollectionWrite ν) := []

/-- What the server does. -/
def Database.perform (db : Database ν) : DatabaseOp ν → Database ν
  | .startTransaction => { db with transaction := [] }
  | .write w true => { db with transaction := db.transaction ++ [w] }
  | .write w false => { db with documents := w.apply db.documents }
  | .commitTransaction =>
    { documents := db.transaction.foldl CollectionWrite.apply db.documents, transaction := [] }

/-- `update_collection`: the operations it issues. -/
def updateCollectionOps (elements : Dict String ν) : List (DatabaseOp ν) :=
  if elements.entries.isEmpty then [.write .deleteMany false]
  else [.startTransaction, .write .deleteMany false, .write (.insertMany elements.entries) false,
    .commitTransaction]

/-- The documents after some operations. -/
def documentsAfter (db : Database ν) (ops : List (DatabaseOp ν)) : List (String × ν) :=
  (ops.foldl Database.perform db).documents

/-- `update_collection`, with nobody reading meanwhile. -/
def updateCollection (elements : Dict String ν) (documents : List (String × ν)) :
    List (String × ν) :=
  documentsAfter { documents } (updateCollectionOps elements)

theorem documents_updateCollection (elements : Dict String ν) (documents : List (String × ν)) :
    updateCollection elements documents = elements.entries := by
  unfold updateCollection updateCollectionOps
  split
  · next hempty => exact (List.isEmpty_iff.mp hempty).symm
  · rfl

end Collection

/-! ### Schemas -/

/-- A profile as it is in the configuration: with the keys and types of a profile, or
with others that no schema accepts. -/
abbrev RawProfile := Option ProfileBody

/-- `standard_profile_schema`, as far as types do not say it. -/
def standardProfileSchema (body : ProfileBody) : Bool :=
  body.frequency.isSome && body.varBinds.isSome && body.condition.isNone && body.conditions.isNone

/-- A condition of one of the given types and without anything else. -/
def bareCondition (types : List String) (condition : ProfileCondition) : Bool :=
  condition.type.any (· ∈ types) && condition.field.isNone && condition.patterns.isNone

/-- `walk_profile_schema`. -/
def walkProfileSchema (body : ProfileBody) : Bool :=
  body.frequency.isNone && body.varBinds.isSome && body.condition.any (bareCondition ["walk"]) &&
    body.conditions.isNone

/-- `base_profile_schema`. -/
def baseProfileSchema (body : ProfileBody) : Bool :=
  body.frequency.isSome && body.varBinds.isSome &&
    body.condition.any (bareCondition ["base", "mandatory"]) && body.conditions.isNone

/-- `smart_profile_schema`. -/
def smartProfileSchema (body : ProfileBody) : Bool :=
  body.frequency.isSome && body.varBinds.isSome &&
    body.condition.any (fun c => c.type = some "field" && c.field.isSome && c.patterns.isSome) &&
    body.conditions.isNone

/-- The type of the value of a condition: a number, a text or a list. -/
def conditionValueSchema : ConditionValue → Bool
  | .scalar (.bool _) => false
  | .scalar .other => false
  | _ => true

/-- The type of `negate_operation`, when it is there. -/
def negateOperationSchema : PyVal → Bool
  | .int _ => false
  | _ => true

/-- The items of `conditions`. -/
def conditionClauseSchema (clause : ConditionClause) : Bool :=
  clause.operation ∈ ["lt", "gt", "regex", "in", "equals"] &&
    conditionValueSchema clause.value && negateOperationSchema clause.negateOperation

/-- `conditional_profile_schema`. -/
def conditionalProfileSchema (body : ProfileBody) : Bool :=
  body.frequency.isSome && body.varBinds.isSome && body.condition.isNone &&
    body.conditions.any fun clauses => clauses.all conditionClauseSchema

/-- `get_all_profile_schemas`. -/
def allProfileSchemas : List (ProfileBody → Bool) :=
  [standardProfileSchema, walkProfileSchema, baseProfileSchema, smartProfileSchema,
    conditionalProfileSchema]

/-- Some schema accepts the profile. -/
def validProfile (raw : RawProfile) : Option ProfileBody :=
  raw.filter fun body => allProfileSchemas.any (· body)

/-- `validate_elements` of the profiles: the ones that are not valid are left out. -/
def validateProfiles (elements : Dict String RawProfile) : Dict String ProfileBody :=
  Dict.ofList (elements.entries.filterMap fun element =>
    (validProfile element.2).map fun body => (element.1, body))

/-- `update_all` of the profiles, with what `gather_elements` has gathered. -/
def ProfilesManager.updateAll (elements : Dict String RawProfile)
    (documents : List (String × ProfileBody)) : List (String × ProfileBody) :=
  updateCollection (validateProfiles elements) documents

end Sc4snmp
