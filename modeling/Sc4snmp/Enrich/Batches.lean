import Sc4snmp.Enrich.Tasks

/-!
# The batches of `enrich`

A call writes the fields of a group in batches, in the loop over its fields and after it.
Alone, it makes one update of the target and one of the document, whatever the threshold.

## Main definitions

* `storedField`, `modifiedFields`, `addedFields` — the fields of a group that are written,
  in the loop and in the bulk.
* `EnrichDb.commit` — the updates that are pending, made.

## Main results

* `run_writeGroup` — **the part of the loop that writes a group, without its batches**.
* `run_enrich_withThreshold` — **the threshold of the batches does not matter**.
-/

namespace Sc4snmp

namespace Enrich

open Program (run)

variable {β γ : Type} {env : EnrichEnv β γ} {db db' : EnrichDb β γ} {a h a' h' : String}

/-! ### The first document a filter selects -/

section UpdateFirst

variable {δ : Type} {p q : δ → Bool} {f g : δ → δ} {xs : List δ}

theorem find?_updateFirst (hf : ∀ x, p x = true → p (f x) = true) :
    (updateFirst p f xs).find? p = (xs.find? p).map f := by
  induction xs with
  | nil => rfl
  | cons x xs ih =>
    unfold updateFirst
    by_cases hx : p x = true
    · simp [hx, hf x hx]
    · simp [hx, ih]

/-- A change of one document is none of another. -/
theorem find?_updateFirst_of_disjoint (hf : ∀ x, p x = true → q x = false ∧ q (f x) = false) :
    (updateFirst p f xs).find? q = xs.find? q := by
  induction xs with
  | nil => rfl
  | cons x xs ih =>
    unfold updateFirst
    by_cases hx : p x = true
    · simp [hx, hf x hx]
    · simp [hx, List.find?_cons, ih]

/-- A change that a filter does not see changes what it selects, or not. -/
theorem find?_updateFirst_or (hf : ∀ x, q (f x) = q x) :
    (updateFirst p f xs).find? q = xs.find? q ∨
      ∃ x, xs.find? q = some x ∧ p x = true ∧ (updateFirst p f xs).find? q = some (f x) := by
  induction xs with
  | nil => exact Or.inl rfl
  | cons y xs ih =>
    unfold updateFirst
    cases hq : q y with
    | true =>
      by_cases hy : p y = true
      · exact Or.inr ⟨y, by simp [hq], hy, by simp [hy, hf, hq]⟩
      · simp [hy, hq]
    | false =>
      by_cases hy : p y = true
      · simp [hy, hf, hq]
      · simpa [hy, hq] using ih

theorem updateFirst_updateFirst (hf : ∀ x, p x = true → p (f x) = true) :
    updateFirst p g (updateFirst p f xs) = updateFirst p (fun x => g (f x)) xs := by
  induction xs with
  | nil => rfl
  | cons x xs ih =>
    unfold updateFirst
    by_cases hx : p x = true
    · simp [hx, updateFirst, hf x hx]
    · simp [hx, updateFirst, ih]

theorem updateFirst_of_any (h : xs.any p = false) : updateFirst p f xs = xs := by
  induction xs with
  | nil => rfl
  | cons x xs ih =>
    rw [List.any_cons, Bool.or_eq_false_iff] at h
    simp [updateFirst, h.1, ih h.2]

theorem map_updateFirst {ε : Type} {key : δ → ε} (hf : ∀ x, key (f x) = key x) :
    (updateFirst p f xs).map key = xs.map key := by
  induction xs with
  | nil => rfl
  | cons x xs ih =>
    unfold updateFirst
    split
    · rw [List.map_cons, List.map_cons, hf]
    · rw [List.map_cons, List.map_cons, ih]

theorem updateFirst_id : updateFirst p (fun x => x) xs = xs := by
  induction xs with
  | nil => rfl
  | cons x xs ih =>
    unfold updateFirst
    split
    · rfl
    · rw [ih]

end UpdateFirst

/-! ### Stages -/

@[simp] theorem setFields_nil (doc : AttributesDoc β) : doc.setFields env [] = doc := rfl

theorem setFields_append (doc : AttributesDoc β) (stages stages' : List (String × Stored β)) :
    doc.setFields env (stages ++ stages') = (doc.setFields env stages).setFields env stages' :=
  List.foldl_append

/-- Stages change the fields of a document, and nothing else. -/
theorem setFields_frame (env : EnrichEnv β γ) (doc : AttributesDoc β)
    (stages : List (String × Stored β)) :
    (doc.setFields env stages).address = doc.address ∧
      (doc.setFields env stages).groupKeyHash = doc.groupKeyHash ∧
      (doc.setFields env stages).indexes = doc.indexes ∧
        (doc.setFields env stages).id = doc.id := by
  induction stages generalizing doc with
  | nil => exact ⟨rfl, rfl, rfl, rfl⟩
  | cons e stages ih => exact ih _

@[simp] theorem isFor_setFields (doc : AttributesDoc β) (stages : List (String × Stored β)) :
    (doc.setFields env stages).isFor a h = doc.isFor a h := by
  obtain ⟨haddress, hhash, -, -⟩ := setFields_frame env doc stages
  simp [AttributesDoc.isFor, haddress, hhash]

theorem setState_append (doc : TargetDoc β γ) (stages stages' : List (String × Stored β)) :
    doc.setState env (stages ++ stages') = (doc.setState env stages).setState env stages' :=
  List.foldl_append

/-- A document is for one group only. -/
theorem isFor_of_ne {doc : AttributesDoc β} (hdoc : doc.isFor a h = true)
    (hne : ¬(a' = a ∧ h' = h)) : doc.isFor a' h' = false := by
  simp only [AttributesDoc.isFor, Bool.and_eq_true, decide_eq_true_eq] at hdoc
  rw [AttributesDoc.isFor, hdoc.1, hdoc.2, Bool.and_eq_false_iff, decide_eq_false_iff_not,
    decide_eq_false_iff_not]
  by_cases ha : a = a'
  · exact Or.inr fun hh => hne ⟨ha.symm, hh.symm⟩
  · exact Or.inl ha

theorem any_isFor_iff : db.attributes.any (AttributesDoc.isFor a h) = (db.docOf a h).isSome := by
  rw [Bool.eq_iff_iff, List.any_eq_true]
  exact List.find?_isSome.symm

/-- Every group has one document at most. -/
def UniqueDocs (db : EnrichDb β γ) : Prop :=
  (db.attributes.map fun doc => (doc.address, doc.groupKeyHash)).Nodup

/-- A document is the one of its group. -/
theorem UniqueDocs.docOf (hdb : UniqueDocs db) {doc : AttributesDoc β}
    (hdoc : doc ∈ db.attributes) :
    db.docOf doc.address doc.groupKeyHash = some doc := by
  unfold UniqueDocs at hdb
  unfold EnrichDb.docOf
  generalize db.attributes = docs at hdb hdoc ⊢
  induction docs with
  | nil => cases hdoc
  | cons other docs ih =>
    rw [List.map_cons, List.nodup_cons] at hdb
    rw [List.find?_cons]
    rcases List.mem_cons.mp hdoc with rfl | hmem
    · simp [AttributesDoc.isFor]
    · have hother : other.isFor doc.address doc.groupKeyHash = false := by
        rw [Bool.eq_false_iff]
        intro hfor
        simp only [AttributesDoc.isFor, Bool.and_eq_true, decide_eq_true_eq] at hfor
        apply hdb.1
        rw [hfor.1, hfor.2]
        exact List.mem_map_of_mem hmem
      rw [hother]
      exact ih hdb.2 hmem

/-! ### The updates that are pending -/

namespace EnrichDb

/-- The attributes after an update of one document. -/
def commitAttributes (env : EnrichEnv β γ) (a h : String) (stages : List (String × Stored β))
    (attributes : List (AttributesDoc β)) : List (AttributesDoc β) :=
  updateFirst (AttributesDoc.isFor a h) (fun doc => doc.setFields env stages) attributes

/-- The targets after an update of one document. -/
def commitTargets (env : EnrichEnv β γ) (a : String) (stages : List (String × Stored β))
    (targets : Dict String (TargetDoc β γ)) : Dict String (TargetDoc β γ) :=
  if stages = [] then targets
  else targets.insert a ((targets.getD a ⟨none, Dict.empty⟩).setState env stages)

/-- The database after updates of a target and of a document of its attributes. -/
def commit (env : EnrichEnv β γ) (a h : String)
    (updates attributeUpdates : List (String × Stored β))
    (db : EnrichDb β γ) : EnrichDb β γ :=
  { db with
    targets := commitTargets env a updates db.targets
    attributes := commitAttributes env a h attributeUpdates db.attributes }

end EnrichDb

open EnrichDb (commitAttributes commitTargets)

theorem commitAttributes_append (env : EnrichEnv β γ) (stages stages' : List (String × Stored β))
    (attributes : List (AttributesDoc β)) :
    commitAttributes env a h (stages ++ stages') attributes =
      commitAttributes env a h stages' (commitAttributes env a h stages attributes) := by
  unfold commitAttributes
  rw [updateFirst_updateFirst fun doc hdoc => by rw [isFor_setFields]; exact hdoc]
  simp only [setFields_append]

theorem commitTargets_append (env : EnrichEnv β γ) (stages stages' : List (String × Stored β))
    (targets : Dict String (TargetDoc β γ)) :
    commitTargets env a (stages ++ stages') targets =
      commitTargets env a stages' (commitTargets env a stages targets) := by
  unfold commitTargets
  by_cases hstages : stages = []
  · simp [hstages]
  by_cases hstages' : stages' = []
  · simp [hstages, hstages']
  · simp [hstages, hstages', Dict.getD, Dict.insert_insert, setState_append]

/-- An update makes no documents. -/
theorem uniqueDocs_commitAttributes {stages : List (String × Stored β)}
    (h : db'.attributes = commitAttributes env a h stages db.attributes) (hdb : UniqueDocs db) :
    UniqueDocs db' := by
  unfold UniqueDocs at hdb ⊢
  rw [h, commitAttributes, map_updateFirst fun doc => ?_]
  · exact hdb
  · obtain ⟨haddress, hhash, -, -⟩ := setFields_frame env doc stages
    rw [haddress, hhash]

/-! ### The fields of a group -/

/-- What is stored of a field, if a document is there and has it. -/
def storedField (current : Option (AttributesDoc β)) (key : String) : Option (Stored β) :=
  current.bind fun doc => doc.fields.get? key

/-- The fields that differ from those stored. -/
def modifiedFields (env : EnrichEnv β γ) (current : Option (AttributesDoc β))
    (fields : List (String × β)) : List (String × Stored β) :=
  fields.filterMap fun e =>
    if (storedField current (keyHash e.1)).any fun cv => cv.differs env ⟨e.1, e.2⟩ then
      some (keyHash e.1, ⟨e.1, e.2⟩)
    else none

/-- The fields that are not stored. -/
def addedFields (current : Option (AttributesDoc β)) (fields : List (String × β)) :
    List (String × Stored β) :=
  fields.filterMap fun e =>
    if (storedField current (keyHash e.1)).isNone then some (keyHash e.1, ⟨e.1, e.2⟩) else none

/-- The fields that go to the target. -/
def trackedUpdates (fields : List (String × β)) : List (String × Stored β) :=
  fields.filterMap fun e =>
    if e.1 ∈ trackedFields then some (keyHash e.1, ⟨e.1, e.2⟩) else none

theorem modifiedFields_none (fields : List (String × β)) : modifiedFields env none fields = [] := by
  simp [modifiedFields, storedField]

/-- A field adds to each list what it has for it. -/
theorem add_eq (env : EnrichEnv β γ) (current : Option (AttributesDoc β)) (e : String × β)
    (u : Updates β) :
    u.add env current ⟨e.1, e.2⟩ =
      ⟨u.updates ++ trackedUpdates [e], u.attributeUpdates ++ modifiedFields env current [e],
        u.newFields ++ addedFields current [e]⟩ := by
  unfold Updates.add trackedUpdates modifiedFields addedFields storedField
  cases current with
  | none => by_cases htracked : e.1 ∈ trackedFields <;> simp [htracked]
  | some doc =>
    cases hcv : doc.fields.get? (keyHash e.1) with
    | none => by_cases htracked : e.1 ∈ trackedFields <;> simp [htracked, hcv]
    | some cv =>
      by_cases htracked : e.1 ∈ trackedFields <;>
        by_cases hdiffers : cv.differs env ⟨e.1, e.2⟩ = true <;> simp [htracked, hcv, hdiffers]

theorem modifiedFields_cons (current : Option (AttributesDoc β)) (e : String × β)
    (fields : List (String × β)) : modifiedFields env current (e :: fields) =
      modifiedFields env current [e] ++ modifiedFields env current fields :=
  List.filterMap_append (l := [e])

theorem addedFields_cons (current : Option (AttributesDoc β)) (e : String × β)
    (fields : List (String × β)) : addedFields current (e :: fields) =
      addedFields current [e] ++ addedFields current fields :=
  List.filterMap_append (l := [e])

theorem trackedUpdates_cons (e : String × β) (fields : List (String × β)) :
    trackedUpdates (e :: fields) = trackedUpdates [e] ++ trackedUpdates fields :=
  List.filterMap_append (l := [e])

/-! ### The batches -/

/-- Updates of the target that are made early are not made later. -/
theorem commit_flushUpdates (env : EnrichEnv β γ) (db : EnrichDb β γ) (a h : String)
    (u : Updates β) (updates attributeUpdates : List (String × Stored β)) :
    ∃ db' u', run (EnrichOp.apply env) (flushUpdates env a u) db = (db', u') ∧
      db'.commit env a h (u'.updates ++ updates) (u'.attributeUpdates ++ attributeUpdates) =
        db.commit env a h (u.updates ++ updates) (u.attributeUpdates ++ attributeUpdates) ∧
      u'.newFields = u.newFields ∧ u'.attributeUpdates = u.attributeUpdates ∧
      db'.attributes = db.attributes := by
  unfold flushUpdates
  split
  · next hfull =>
    have hne : u.updates ≠ [] := by
      intro hnil
      have hpos := env.threshold.pos
      rw [hnil, List.length_nil] at hfull
      omega
    refine ⟨_, _, rfl, ?_, rfl, rfl, rfl⟩
    simp only [EnrichDb.commit, List.nil_append, commitTargets_append env u.updates]
    simp [commitTargets, EnrichOp.apply, EnrichDb.target, hne]
  · exact ⟨_, _, rfl, rfl, rfl, rfl, rfl⟩

/-- An update of the attributes that finds the document. -/
theorem setFields_of_docOf (env : EnrichEnv β γ) (h : (db.docOf a h').isSome)
    (stages : List (String × Stored β))
    (upsert : Bool) : db.setFields env a h' stages upsert =
      { db with attributes := commitAttributes env a h' stages db.attributes } := by
  unfold EnrichDb.setFields
  rw [any_isFor_iff, if_pos h]
  rfl

/-- Updates of the attributes that are made early are not made later. -/
theorem commit_flushAttributeUpdates (env : EnrichEnv β γ) (u : Updates β)
    (hdoc : u.attributeUpdates ≠ [] → (db.docOf a h).isSome)
    (updates attributeUpdates : List (String × Stored β)) :
    ∃ db' u', run (EnrichOp.apply env) (flushAttributeUpdates env a h u) db = (db', u') ∧
      db'.commit env a h (u'.updates ++ updates) (u'.attributeUpdates ++ attributeUpdates) =
        db.commit env a h (u.updates ++ updates) (u.attributeUpdates ++ attributeUpdates) ∧
      u'.newFields = u.newFields ∧ (u'.attributeUpdates ≠ [] → u.attributeUpdates ≠ []) ∧
      (db'.docOf a h).isSome = (db.docOf a h).isSome := by
  unfold flushAttributeUpdates
  split
  · next hfull =>
    have hne : u.attributeUpdates ≠ [] := by
      intro hnil
      have hpos := env.threshold.pos
      rw [hnil, List.length_nil] at hfull
      omega
    refine ⟨_, _, rfl, ?_, rfl, fun h => absurd rfl h, ?_⟩
    · show EnrichDb.commit env a h _ _ (db.setFields env a h u.attributeUpdates true) = _
      rw [setFields_of_docOf env (hdoc hne)]
      simp only [EnrichDb.commit, List.nil_append, commitAttributes_append env u.attributeUpdates]
    · show (EnrichDb.docOf (db.setFields env a h u.attributeUpdates true) a h).isSome = _
      rw [setFields_of_docOf env (hdoc hne)]
      unfold EnrichDb.docOf commitAttributes
      rw [find?_updateFirst fun doc hdoc => by rw [isFor_setFields]; exact hdoc, Option.isSome_map]
  · exact ⟨_, _, rfl, rfl, rfl, id, rfl⟩

/-- **The loop over the fields of a group**, with what is left to be updated after it. -/
theorem commit_setAttributeUpdates (env : EnrichEnv β γ) {current : Option (AttributesDoc β)}
    (hcurrent : current.isSome → (db.docOf a h).isSome) (fields : List (String × β)) (u : Updates β)
    (hdoc : u.attributeUpdates ≠ [] → (db.docOf a h).isSome) :
    ∃ db' u', run (EnrichOp.apply env) (setAttributeUpdates env a h current fields u) db =
        (db', u') ∧
      db'.commit env a h u'.updates u'.attributeUpdates =
        db.commit env a h (u.updates ++ trackedUpdates fields)
          (u.attributeUpdates ++ modifiedFields env current fields) ∧
      u'.newFields = u.newFields ++ addedFields current fields := by
  induction fields generalizing db u with
  | nil => exact ⟨db, u, rfl, by simp [trackedUpdates, modifiedFields], by simp [addedFields]⟩
  | cons e fields ih =>
    have hadd := add_eq env current e u
    -- a document is known when something of it is to be updated
    have hdoc₁ : (u.add env current ⟨e.1, e.2⟩).attributeUpdates ≠ [] → (db.docOf a h).isSome := by
      intro hne
      cases current with
      | none =>
        apply hdoc
        rw [hadd, modifiedFields_none, List.append_nil] at hne
        exact hne
      | some doc => exact hcurrent rfl
    obtain ⟨db₁, u₁, hrun₁, hcommit₁, hnew₁, hupdates₁, hattributes₁⟩ :=
      commit_flushUpdates env db a h (u.add env current ⟨e.1, e.2⟩)
        (trackedUpdates fields) (modifiedFields env current fields)
    have hfound₁ : db₁.docOf a h = db.docOf a h := by
      unfold EnrichDb.docOf
      rw [hattributes₁]
    obtain ⟨db₂, u₂, hrun₂, hcommit₂, hnew₂, hupdates₂, hfound₂⟩ :=
      commit_flushAttributeUpdates env u₁ (by rw [hupdates₁, hfound₁]; exact hdoc₁)
        (trackedUpdates fields) (modifiedFields env current fields)
    rw [hfound₁] at hfound₂
    obtain ⟨db₃, u₃, hrun₃, hcommit₃, hnew₃⟩ := @ih db₂
      (by rw [hfound₂]; exact hcurrent) u₂
      (by rw [hfound₂]; intro hne; exact hdoc₁ (by rw [← hupdates₁]; exact hupdates₂ hne))
    refine ⟨db₃, u₃, ?_, ?_, ?_⟩
    · rw [setAttributeUpdates]
      simp only [Program.run_bind, hrun₁, hrun₂]
      exact hrun₃
    · rw [hcommit₃, hcommit₂, hcommit₁, hadd, trackedUpdates_cons e fields,
        modifiedFields_cons current e fields]
      simp only [List.append_assoc]
    · rw [hnew₃, hnew₂, hnew₁, hadd, addedFields_cons current e fields, List.append_assoc]

/-- What is left of the updates is made after the loop. -/
theorem run_updateCollections (u : Updates β) :
    run (EnrichOp.apply env) (updateCollections a h u) db =
      (db.commit env a h u.updates u.attributeUpdates, ()) := by
  have hnone : ∀ db : EnrichDb β γ, db.setFields env a h u.attributeUpdates false =
      { db with attributes := commitAttributes env a h u.attributeUpdates db.attributes } := by
    intro db
    cases hdoc : (db.docOf a h).isSome with
    | true => exact setFields_of_docOf env hdoc _ _
    | false =>
      rw [← any_isFor_iff] at hdoc
      rw [EnrichDb.setFields, hdoc, commitAttributes, updateFirst_of_any hdoc]
      rfl
  unfold updateCollections EnrichDb.commit commitTargets
  by_cases hupdates : u.updates = [] <;> by_cases hattributes : u.attributeUpdates = [] <;>
    simp [hupdates, hattributes, EnrichOp.apply, hnone, EnrichDb.target, commitAttributes,
      updateFirst_id]

/-- The document of a group, if the address is known. -/
def currentDoc (db : EnrichDb β γ) (a h : String) (isAny : Bool) : Option (AttributesDoc β) :=
  if isAny then db.docOf a h else none

/-- The database after a group has been begun. -/
def beginGroup (db : EnrichDb β γ) (a : String) (isAny : Bool) (key : String)
    (group : ResultGroup β γ) : EnrichDb β γ :=
  if (currentDoc db a (keyHash key) isAny).isNone ∧ group.fields.entries ≠ [] then
    db.initialise a (keyHash key) group.indexes key
  else db

/-- **The part of the loop that writes the fields of a group**, without its batches. -/
theorem run_writeGroup (isAny : Bool) (key : String) (group : ResultGroup β γ) :
    run (EnrichOp.apply env) (writeGroup env a isAny key group) db =
      ((beginGroup db a isAny key group).commit env a (keyHash key)
          (trackedUpdates group.fields.entries)
          (modifiedFields env (currentDoc db a (keyHash key) isAny) group.fields.entries),
        currentDoc db a (keyHash key) isAny,
        addedFields (currentDoc db a (keyHash key) isAny) group.fields.entries) := by
  have hfind : run (EnrichOp.apply env) (findCurrent a (keyHash key) isAny) db =
      (db, currentDoc db a (keyHash key) isAny) := by
    unfold findCurrent currentDoc
    cases isAny <;> rfl
  -- the document is there when the group is written, if it was
  have hcurrent : (currentDoc db a (keyHash key) isAny).isSome →
      ((beginGroup db a isAny key group).docOf a (keyHash key)).isSome := by
    intro hsome
    rw [beginGroup, if_neg (by simp [Option.isNone_iff_eq_none, ← Option.isSome_iff_ne_none,
      hsome])]
    unfold currentDoc at hsome
    split at hsome
    · exact hsome
    · cases hsome
  obtain ⟨db', u, hrun, hcommit, hnew⟩ := commit_setAttributeUpdates env hcurrent
    group.fields.entries ⟨[], [], []⟩ (fun h => absurd rfl h)
  simp only [List.nil_append] at hcommit hnew
  unfold writeGroup
  rw [Program.run_bind, hfind]
  by_cases hbegin : (currentDoc db a (keyHash key) isAny).isNone ∧ group.fields.entries ≠ []
  · have hdb : beginGroup db a isAny key group =
        db.initialise a (keyHash key) group.indexes key := if_pos hbegin
    rw [if_pos hbegin]
    simp only [Program.run_bind, Program.run_perform, EnrichOp.apply, Program.pure_eq,
      Program.run_done]
    rw [← hdb, hrun, run_updateCollections, hcommit, hnew]
  · have hdb : beginGroup db a isAny key group = db := if_neg hbegin
    rw [if_neg hbegin]
    simp only [Program.run_bind, Program.pure_eq, Program.run_done]
    rw [hdb] at hrun hcommit ⊢
    rw [hrun, run_updateCollections, hcommit, hnew]

/-! ### The threshold -/

/-- The same setting with another threshold. -/
def EnrichEnv.withThreshold (env : EnrichEnv β γ) (threshold : ℕ+) : EnrichEnv β γ :=
  { env with threshold }

variable (threshold : ℕ+)

theorem apply_withThreshold (op : EnrichOp β γ) :
    op.apply (env.withThreshold threshold) = op.apply env := by
  cases op <;> rfl

theorem run_writeGroup_withThreshold (isAny : Bool) (key : String) (group : ResultGroup β γ) :
    run (EnrichOp.apply (env.withThreshold threshold))
        (writeGroup (env.withThreshold threshold) a isAny key group) db =
      run (EnrichOp.apply env) (writeGroup env a isAny key group) db := by
  rw [run_writeGroup, run_writeGroup]
  rfl

theorem run_enrichGroups_withThreshold (isAny : Bool) (keys : List String) (st : LoopState β γ) :
    run (EnrichOp.apply (env.withThreshold threshold))
        (enrichGroups (env.withThreshold threshold) a isAny keys st) db =
      run (EnrichOp.apply env) (enrichGroups env a isAny keys st) db := by
  induction keys generalizing st db with
  | nil => rfl
  | cons key keys ih =>
    obtain ⟨bulk, result⟩ := st
    unfold enrichGroups
    cases result.get? key with
    | none => exact ih _
    | some group =>
      simp only [Program.run_bind, run_writeGroup_withThreshold]
      obtain ⟨db', current, newFields⟩ :=
        run (EnrichOp.apply env) (writeGroup env a isAny key group) db
      cases current with
      | none => exact ih _
      | some doc =>
        cases hid : doc.id with
        | none => simp [hid]
        | some id =>
          simp only [hid]
          exact ih _

theorem checkRestart_withThreshold (current : Option γ) (groups : List (ResultGroup β γ)) :
    checkRestart (env.withThreshold threshold) current a groups =
      checkRestart env current a groups := by
  induction groups with
  | nil => rfl
  | cons group groups ih =>
    unfold checkRestart
    rw [ih]
    rfl

/-- The parts of a call, one after the other. -/
theorem run_enrich (call : EnrichCall β γ) : run (EnrichOp.apply env) (enrich env call) db =
    match run (EnrichOp.apply env) (checkRestart env
        ((db.targets.get? call.address).bind (·.sysUpTime)) call.address
        (call.result.entries.map Prod.snd)) db with
    | (db₁, .error err) => (db₁, .error err)
    | (db₁, .ok ()) =>
      match run (EnrichOp.apply env) (enrichGroups env call.address
          (db₁.attributes.any fun doc => doc.address = call.address) call.result.keys
          ([], call.result)) db₁ with
      | (db₂, .error err) => (db₂, .error err)
      | (db₂, .ok (bulk, result)) =>
        ((run (EnrichOp.apply env) (bulkWriteAttributes call.address (env.bulkOrder bulk)) db₂).1,
          .ok result) := by
  unfold enrich
  simp only [Program.run_bind, Program.run_perform, EnrichOp.apply]
  obtain ⟨db₁, checked⟩ := run (EnrichOp.apply env) (checkRestart env
    ((db.targets.get? call.address).bind (·.sysUpTime)) call.address
    (call.result.entries.map Prod.snd)) db
  -- the loop and the bulk are reached when the check has not raised
  cases checked with
  | error err => rfl
  | ok u =>
    simp only [Program.run_bind, Program.run_perform, EnrichOp.apply]
    obtain ⟨db₂, looped⟩ := run (EnrichOp.apply env) (enrichGroups env call.address
      (db₁.attributes.any fun doc => doc.address = call.address) call.result.keys
      ([], call.result)) db₁
    cases looped with
    | error err => rfl
    | ok st => simp only [Program.run_bind, Program.pure_eq, Program.run_done]

/-- **The threshold of the batches does not matter.** -/
theorem run_enrich_withThreshold (call : EnrichCall β γ) :
    run (EnrichOp.apply (env.withThreshold threshold))
      (enrich (env.withThreshold threshold) call) db =
      run (EnrichOp.apply env) (enrich env call) db := by
  have happly : EnrichOp.apply (env.withThreshold threshold) = EnrichOp.apply env :=
    funext (apply_withThreshold threshold)
  have hloop : ∀ (db : EnrichDb β γ) (isAny : Bool) (keys : List String) (st : LoopState β γ),
      run (EnrichOp.apply env)
          (enrichGroups (env.withThreshold threshold) call.address isAny keys st) db =
        run (EnrichOp.apply env) (enrichGroups env call.address isAny keys st) db := by
    intro db isAny keys st
    rw [← happly]
    exact (run_enrichGroups_withThreshold threshold isAny keys st).trans (by rw [happly])
  rw [run_enrich, run_enrich]
  simp only [checkRestart_withThreshold, happly, hloop]
  rfl

end Enrich

end Sc4snmp
