import Sc4snmp.Enrich.Batches

/-!
# One call of `enrich` alone

What a call does when no other task acts in between: each group of the result changes one
document, its own, in the loop and once more in the bulk.

## Main definitions

* `writtenDoc`, `finalDoc`, `returnedGroup` — the document of a group after the loop and
  after the bulk, and the group that is returned.
* `Enrichable` — what a call needs of the database.
* `Enriched` — what it makes of it.

## Main results

* `run_enrichGroups` — the loop over the groups.
* `docOf_bulk` — the bulk, in any order.
* `run_checkRestart` — the restart check returns.
* `enriched_enrich` — **a call makes of each document of its groups what it should, and
  leaves all others alone**.
-/

namespace Sc4snmp

namespace Enrich

open Program (run)
open EnrichDb (commitAttributes commitTargets)

variable {β γ : Type} {env : EnrichEnv β γ} {db db' : EnrichDb β γ} {a h a' h' : String}

/-! ### The documents after the loop -/

/-- The document of a group after the loop. -/
def writtenDoc (env : EnrichEnv β γ) (a key : String) (group : ResultGroup β γ) :
    Option (AttributesDoc β) → Option (AttributesDoc β)
  | none =>
    if group.fields.entries = [] then none
    else some ⟨a, keyHash key, some group.indexes, some key, Dict.empty⟩
  | some doc => some (doc.setFields env (modifiedFields env (some doc) group.fields.entries))

/-- The document of a group after the bulk. -/
def finalDoc (env : EnrichEnv β γ) (a key : String) (group : ResultGroup β γ)
    (old : Option (AttributesDoc β)) : Option (AttributesDoc β) :=
  (writtenDoc env a key group old).map fun doc =>
    doc.setFields env (addedFields old group.fields.entries)

/-- What a group of the result becomes. -/
def returnedGroup (group : ResultGroup β γ) : Option (AttributesDoc β) → ResultGroup β γ
  | none => group
  | some doc => enrichMetricWithFieldsFromDb group doc.fields

theorem docOf_commitAttributes (stages : List (String × Stored β))
    (hdb : db'.attributes = commitAttributes env a h stages db.attributes) :
    db'.docOf a' h' =
      if a' = a ∧ h' = h then (db.docOf a h).map fun doc => doc.setFields env stages
      else db.docOf a' h' := by
  unfold EnrichDb.docOf
  rw [hdb, commitAttributes]
  split
  · next heq =>
    obtain ⟨rfl, rfl⟩ := heq
    exact find?_updateFirst fun doc hdoc => by rw [isFor_setFields]; exact hdoc
  · next hne =>
    refine find?_updateFirst_of_disjoint fun doc hdoc => ?_
    rw [isFor_setFields]
    exact ⟨isFor_of_ne hdoc hne, isFor_of_ne hdoc hne⟩

/-- A document is begun where there is none. -/
theorem docOf_initialise (hnone : db.docOf a h = none) (indexes : List IndexValue) (id : String) :
    (db.initialise a h indexes id).docOf a' h' =
      if a' = a ∧ h' = h then some ⟨a, h, some indexes, some id, Dict.empty⟩
      else db.docOf a' h' := by
  have hselects : db.attributes.any (fun doc : AttributesDoc β =>
      doc.isFor a h && doc.indexes = some indexes) = false := by
    rw [List.any_eq_false]
    intro doc hdoc
    have hfor := List.find?_eq_none.mp hnone doc hdoc
    simp [hfor]
  unfold EnrichDb.initialise
  simp only [hselects, Bool.false_eq_true, if_false]
  unfold EnrichDb.docOf at hnone ⊢
  rw [List.find?_append]
  split
  · next heq =>
    obtain ⟨rfl, rfl⟩ := heq
    simp [hnone, AttributesDoc.isFor]
  · next hne =>
    rw [List.find?_singleton, if_neg, Option.or_none]
    rw [isFor_of_ne (a := a) (h := h) (by simp [AttributesDoc.isFor]) hne]
    exact Bool.false_ne_true

/-- A document that is begun where there is none is the only one. -/
theorem uniqueDocs_initialise (hnone : db.docOf a h = none) (indexes : List IndexValue)
    (id : String)
    (hdb : UniqueDocs db) : UniqueDocs (db.initialise a h indexes id) := by
  have hnew : ∀ doc ∈ db.attributes, doc.isFor a h = false := by
    intro doc hdoc
    simpa using List.find?_eq_none.mp hnone doc hdoc
  have hselects : db.attributes.any (fun doc : AttributesDoc β =>
      doc.isFor a h && doc.indexes = some indexes) = false := by
    rw [List.any_eq_false]
    intro doc hdoc
    simp [hnew doc hdoc]
  unfold EnrichDb.initialise UniqueDocs
  simp only [hselects, Bool.false_eq_true, if_false, List.map_append, List.map_cons, List.map_nil]
  refine List.Nodup.append hdb (List.nodup_singleton _) ?_
  rw [List.disjoint_singleton]
  intro hmem
  obtain ⟨doc, hdoc, heq⟩ := List.mem_map.mp hmem
  rw [Prod.mk.injEq] at heq
  have hfor := hnew doc hdoc
  simp [AttributesDoc.isFor, heq.1, heq.2] at hfor

/-- The loop changes the document of a group as it should, and no other. -/
theorem docOf_writeGroup (env : EnrichEnv β γ) (isAny : Bool) (key : String)
    (group : ResultGroup β γ)
    (hknown : isAny = false → db.docOf a (keyHash key) = none) :
    currentDoc db a (keyHash key) isAny = db.docOf a (keyHash key) ∧ ∀ a' h',
      (run (EnrichOp.apply env) (writeGroup env a isAny key group) db).1.docOf a' h' =
        if a' = a ∧ h' = keyHash key then
          writtenDoc env a key group (db.docOf a (keyHash key))
        else db.docOf a' h' := by
  have hcurrent : currentDoc db a (keyHash key) isAny = db.docOf a (keyHash key) := by
    unfold currentDoc
    cases isAny with
    | true => rfl
    | false => exact (hknown rfl).symm
  refine ⟨hcurrent, fun a' h' => ?_⟩
  rw [run_writeGroup, hcurrent, docOf_commitAttributes _ rfl]
  unfold beginGroup
  rw [hcurrent]
  -- a document begins when there is none and the group has fields
  cases hdoc : db.docOf a (keyHash key) with
  | none =>
    by_cases hfields : group.fields.entries = []
    · simp [hfields, writtenDoc, hdoc]
    · simp only [Option.isNone_none, ne_eq, hfields, not_false_eq_true, and_self, if_true,
        docOf_initialise hdoc, modifiedFields_none, Option.map_some, setFields_nil, writtenDoc,
        if_false]
      split <;> rfl
  | some doc => simp [writtenDoc, hdoc]

theorem uniqueDocs_writeGroup (env : EnrichEnv β γ) (isAny : Bool) (key : String)
    (group : ResultGroup β γ)
    (hknown : isAny = false → db.docOf a (keyHash key) = none) (hdb : UniqueDocs db) :
    UniqueDocs (run (EnrichOp.apply env) (writeGroup env a isAny key group) db).1 := by
  rw [run_writeGroup]
  refine uniqueDocs_commitAttributes rfl ?_
  unfold beginGroup
  rw [(docOf_writeGroup env isAny key group hknown).1]
  split
  · next hnew => exact uniqueDocs_initialise (Option.isNone_iff_eq_none.mp hnew.1) _ _ hdb
  · exact hdb

/-! ### The loop -/

/-- The writes of the bulk. -/
def bulkOf (db : EnrichDb β γ) (a : String) (result : Dict String (ResultGroup β γ))
    (keys : List String) : List (String × List (String × Stored β)) :=
  keys.filterMap fun key => (result.get? key).bind fun group =>
    if addedFields (db.docOf a (keyHash key)) group.fields.entries = [] then none
    else some (keyHash key, addedFields (db.docOf a (keyHash key)) group.fields.entries)

/-- The updates of the target. -/
def trackedOf (result : Dict String (ResultGroup β γ)) (keys : List String) :
    List (String × Stored β) :=
  keys.flatMap fun key => (result.get? key).elim [] fun group => trackedUpdates group.fields.entries

/-- What the loop over some keys makes of the database and the result. -/
structure Looped (env : EnrichEnv β γ) (a : String) (keys : List String) (db : EnrichDb β γ)
    (result : Dict String (ResultGroup β γ)) (db' : EnrichDb β γ)
    (result' : Dict String (ResultGroup β γ)) : Prop where
  others : ∀ a' h', (a' = a → h' ∉ keys.map keyHash) → db'.docOf a' h' = db.docOf a' h'
  docs : ∀ key ∈ keys, ∀ group, result.get? key = some group →
    db'.docOf a (keyHash key) = writtenDoc env a key group (db.docOf a (keyHash key))
  targets : db'.targets = commitTargets env a (trackedOf result keys) db.targets
  result : ∀ key, result'.get? key = if key ∈ keys then
    (result.get? key).map fun group => returnedGroup group (db.docOf a (keyHash key))
    else result.get? key
  unique : UniqueDocs db → UniqueDocs db'

/-- The keys of a loop can be told apart, and the documents there are of their groups. -/
structure Loopable (db : EnrichDb β γ) (a : String) (isAny : Bool) (keys : List String) : Prop where
  nodup : (keys.map keyHash).Nodup
  known : ∀ key ∈ keys, isAny = false → db.docOf a (keyHash key) = none
  id : ∀ key ∈ keys, ∀ doc, db.docOf a (keyHash key) = some doc → doc.id = some key

theorem keyHash_ne_of_nodup {key : String} {keys : List String}
    (h : ((key :: keys).map keyHash).Nodup) {key' : String} (hkey' : key' ∈ keys) :
    keyHash key' ≠ keyHash key ∧ key' ≠ key := by
  rw [List.map_cons, List.nodup_cons] at h
  have hne : keyHash key' ≠ keyHash key := fun heq =>
    h.1 (List.mem_map.mpr ⟨key', hkey', heq⟩)
  exact ⟨hne, fun heq => hne (by rw [heq])⟩

theorem trackedOf_cons (result : Dict String (ResultGroup β γ)) (key : String)
    (keys : List String) :
    trackedOf result (key :: keys) = trackedOf result [key] ++ trackedOf result keys := by
  simp [trackedOf]

theorem bulkOf_cons (db : EnrichDb β γ) (a : String) (result : Dict String (ResultGroup β γ))
    (key : String) (keys : List String) :
    bulkOf db a result (key :: keys) = bulkOf db a result [key] ++ bulkOf db a result keys :=
  List.filterMap_append (l := [key])

theorem targets_beginGroup (isAny : Bool) (key : String) (group : ResultGroup β γ) :
    (beginGroup db a isAny key group).targets = db.targets := by
  unfold beginGroup EnrichDb.initialise
  split
  · dsimp only
    split <;> rfl
  · rfl

/-- The bulk of one group. -/
theorem bulkOf_singleton {key : String} {group : ResultGroup β γ}
    {result : Dict String (ResultGroup β γ)} (hgroup : result.get? key = some group) :
    bulkOf db a result [key] =
      if addedFields (db.docOf a (keyHash key)) group.fields.entries = [] then []
      else [(keyHash key, addedFields (db.docOf a (keyHash key)) group.fields.entries)] := by
  simp only [bulkOf, List.filterMap_cons, List.filterMap_nil, hgroup, Option.bind_some]
  split <;> simp_all

/-- The head of the loop.  What becomes of the group does not depend on the rest of the result. -/
theorem run_enrichGroups_head (env : EnrichEnv β γ) {isAny : Bool} {key : String}
    {keys : List String}
    {group : ResultGroup β γ} {result : Dict String (ResultGroup β γ)}
    (h : Loopable db a isAny (key :: keys)) (hgroup : result.get? key = some group)
    (bulk : List (String × List (String × Stored β))) :
    ∃ result', (∀ k, result'.get? k =
        if k = key then some (returnedGroup group (db.docOf a (keyHash key))) else result.get? k) ∧
      run (EnrichOp.apply env) (enrichGroups env a isAny (key :: keys) (bulk, result)) db =
        run (EnrichOp.apply env) (enrichGroups env a isAny keys
          (bulk ++ bulkOf db a result [key], result'))
          (run (EnrichOp.apply env) (writeGroup env a isAny key group) db).1 := by
  have hrun : run (EnrichOp.apply env) (writeGroup env a isAny key group) db = _ :=
    run_writeGroup isAny key group
  rw [(docOf_writeGroup env isAny key group (h.known key List.mem_cons_self)).1] at hrun
  have hbulk : (if addedFields (db.docOf a (keyHash key)) group.fields.entries = [] then bulk
      else bulk ++ [(keyHash key, addedFields (db.docOf a (keyHash key)) group.fields.entries)]) =
      bulk ++ bulkOf db a result [key] := by
    rw [bulkOf_singleton hgroup]
    split <;> simp
  rw [enrichGroups]
  simp only [hgroup, Program.run_bind, hrun, hbulk]
  cases hdoc : db.docOf a (keyHash key) with
  | none =>
    refine ⟨result, fun k => ?_, rfl⟩
    by_cases hk : k = key
    · subst hk
      simp [hgroup, returnedGroup]
    · simp [hk]
  | some doc =>
    refine ⟨addBackFields result key doc.fields, ?_, ?_⟩
    · intro k
      simp [addBackFields, hgroup, returnedGroup]
    · simp only [h.id key List.mem_cons_self doc hdoc]

/-- The loop over one group. -/
theorem run_enrichGroups_cons (env : EnrichEnv β γ) {isAny : Bool} {key : String}
    {keys : List String}
    {group : ResultGroup β γ} {result : Dict String (ResultGroup β γ)}
    (h : Loopable db a isAny (key :: keys)) (hgroup : result.get? key = some group)
    (bulk : List (String × List (String × Stored β))) :
    ∃ db' result', run (EnrichOp.apply env)
      (enrichGroups env a isAny (key :: keys) (bulk, result)) db =
        run (EnrichOp.apply env) (enrichGroups env a isAny keys
          (bulk ++ bulkOf db a result [key], result')) db' ∧
      Looped env a [key] db result db' result' := by
  obtain ⟨result', hresult', hadd⟩ := run_enrichGroups_head env h hgroup bulk
  refine ⟨_, result', hadd, ?_⟩
  have hknown := h.known key List.mem_cons_self
  obtain ⟨hcurrent, hdocs⟩ := docOf_writeGroup env isAny key group hknown
  have hunique := uniqueDocs_writeGroup env isAny key group hknown
  have hrun : run (EnrichOp.apply env) (writeGroup env a isAny key group) db = _ :=
    run_writeGroup isAny key group
  rw [hcurrent] at hrun
  rw [hrun] at hdocs hunique ⊢
  refine {
    others := fun a' h' hother => ?_
    docs := fun key' hmem group' hgroup' => ?_
    targets := ?_
    result := fun key' => ?_
    unique := hunique }
  · rw [hdocs, if_neg]
    intro heq
    exact hother heq.1 (by simp [heq.2])
  · obtain rfl := List.mem_singleton.mp hmem
    rw [hgroup] at hgroup'
    cases hgroup'
    rw [hdocs, if_pos ⟨rfl, rfl⟩]
  · show commitTargets env a (trackedUpdates group.fields.entries)
      (beginGroup db a isAny key group).targets = _
    simp [targets_beginGroup, trackedOf, hgroup]
  · rw [hresult']
    by_cases hkey : key' = key
    · subst hkey
      simp [hgroup]
    · simp [hkey]

/-- One group after the other. -/
theorem Looped.cons {db'' : EnrichDb β γ} {key : String} {keys : List String}
    {result result' result'' : Dict String (ResultGroup β γ)}
    (hnodup : ((key :: keys).map keyHash).Nodup) (hhead : Looped env a [key] db result db' result')
    (htail : Looped env a keys db' result' db'' result'') :
    Looped env a (key :: keys) db result db'' result'' := by
  -- the groups of the tail have their own documents
  have hdoc : ∀ key' ∈ keys, db'.docOf a (keyHash key') = db.docOf a (keyHash key') := by
    intro key' hkey'
    apply hhead.others
    simp [(keyHash_ne_of_nodup hnodup hkey').1]
  have hresult : ∀ key' ∈ keys, result'.get? key' = result.get? key' := by
    intro key' hkey'
    rw [hhead.result, if_neg]
    simp [(keyHash_ne_of_nodup hnodup hkey').2]
  have hkey : keyHash key ∉ keys.map keyHash := by
    rw [List.map_cons, List.nodup_cons] at hnodup
    exact hnodup.1
  have hkey' : key ∉ keys := fun hmem => hkey (List.mem_map_of_mem hmem)
  refine {
    others := fun a' h' hother => ?_
    docs := fun key' hmem group hgroup => ?_
    targets := ?_
    result := fun key' => ?_
    unique := fun hdb => htail.unique (hhead.unique hdb) }
  · rw [htail.others a' h' fun ha => ?_, hhead.others a' h' fun ha => ?_]
    · have hnot := hother ha
      rw [List.map_cons, List.mem_cons, not_or] at hnot
      simpa using hnot.1
    · have hnot := hother ha
      rw [List.map_cons, List.mem_cons, not_or] at hnot
      exact hnot.2
  · rcases List.mem_cons.mp hmem with rfl | hmem
    · rw [htail.others a _ fun _ => hkey, hhead.docs key' List.mem_cons_self group hgroup]
    · rw [htail.docs key' hmem group (by rw [hresult key' hmem]; exact hgroup), hdoc key' hmem]
  · have htracked : trackedOf result' keys = trackedOf result keys := by
      unfold trackedOf
      exact List.flatMap_congr fun key' hmem => by rw [hresult key' hmem]
    rw [htail.targets, hhead.targets, htracked, ← commitTargets_append, ← trackedOf_cons]
  · rw [htail.result]
    by_cases hmem : key' ∈ keys
    · rw [if_pos hmem, if_pos (List.mem_cons_of_mem _ hmem), hresult key' hmem, hdoc key' hmem]
    · rw [if_neg hmem, hhead.result]
      simp [hmem]

/-- **The loop over the groups.** -/
theorem run_enrichGroups (env : EnrichEnv β γ) {db : EnrichDb β γ} {isAny : Bool}
    {keys : List String} (h : Loopable db a isAny keys)
    (bulk : List (String × List (String × Stored β))) (result : Dict String (ResultGroup β γ)) :
    ∃ db' result', run (EnrichOp.apply env) (enrichGroups env a isAny keys (bulk, result)) db =
        (db', .ok (bulk ++ bulkOf db a result keys, result')) ∧
      Looped env a keys db result db' result' := by
  induction keys generalizing db bulk result with
  | nil =>
    refine ⟨db, result, by simp [enrichGroups, bulkOf], ?_⟩
    exact {
      others := fun a' h' _ => rfl
      docs := fun key hkey => absurd hkey List.not_mem_nil
      targets := by simp [trackedOf, commitTargets]
      result := fun key => by simp
      unique := id }
  | cons key keys ih =>
    -- the groups to come are untouched by the group at hand: their hashes differ
    have htail : ∀ db₁ : EnrichDb β γ, (∀ key' ∈ keys, db₁.docOf a (keyHash key') =
        db.docOf a (keyHash key')) → Loopable db₁ a isAny keys := by
      intro db₁ hdb₁
      have hnodup := h.nodup
      rw [List.map_cons, List.nodup_cons] at hnodup
      refine ⟨hnodup.2, ?_, ?_⟩
      · intro key' hmem
        rw [hdb₁ key' hmem]
        exact h.known key' (List.mem_cons_of_mem _ hmem)
      · intro key' hmem
        rw [hdb₁ key' hmem]
        exact h.id key' (List.mem_cons_of_mem _ hmem)
    -- a key that has left the result is passed over
    cases hgroup : result.get? key with
    | none =>
      obtain ⟨db', result', hrun, hlooped⟩ := ih (htail db fun _ _ => rfl) bulk result
      have hbulk : bulkOf db a result [key] = [] := by simp [bulkOf, hgroup]
      have htracked : trackedOf result [key] = [] := by simp [trackedOf, hgroup]
      refine ⟨db', result', ?_, ?_⟩
      · rw [enrichGroups, bulkOf_cons, hbulk, List.nil_append]
        simp only [hgroup]
        exact hrun
      · refine Looped.cons h.nodup ?_ hlooped
        exact {
          others := fun a' h' _ => rfl
          docs := fun key' hmem group hgroup' => by simp_all
          targets := by rw [htracked]; rfl
          result := fun key' => by
            by_cases hkey : key' = key
            · subst hkey
              simp [hgroup]
            · simp [hkey]
          unique := id }
    | some group =>
      obtain ⟨db₁, result₁, hrun, hhead⟩ := run_enrichGroups_cons env h hgroup bulk
      have hdb₁ : ∀ key' ∈ keys, db₁.docOf a (keyHash key') = db.docOf a (keyHash key') := by
        intro key' hmem
        apply hhead.others
        simp [(keyHash_ne_of_nodup h.nodup hmem).1]
      obtain ⟨db', result', hrun', hlooped⟩ := ih (htail db₁ hdb₁)
        (bulk ++ bulkOf db a result [key]) result₁
      have hbulk : bulkOf db₁ a result₁ keys = bulkOf db a result keys := by
        unfold bulkOf
        refine List.filterMap_congr ?_
        intro key' hmem
        rw [hdb₁ key' hmem, hhead.result, if_neg]
        simp [(keyHash_ne_of_nodup h.nodup hmem).2]
      refine ⟨db', result', ?_, hhead.cons h.nodup hlooped⟩
      rw [hrun, hrun', hbulk, List.append_assoc, ← bulkOf_cons]

/-! ### The bulk -/

/-- The bulk adds to each document what it has for it. -/
theorem docOf_bulkWriteAttributes (env : EnrichEnv β γ)
    {writes : List (String × List (String × Stored β))}
    (hnodup : (writes.map Prod.fst).Nodup) (hdocs : ∀ w ∈ writes, (db.docOf a w.1).isSome)
    (a' h' : String) :
    (run (EnrichOp.apply env) (bulkWriteAttributes a writes) db).1.docOf a' h' =
        (if a' = a then match writes.lookup h' with
          | some stages => (db.docOf a h').map fun doc => doc.setFields env stages
          | none => db.docOf a' h'
        else db.docOf a' h') ∧
      (run (EnrichOp.apply env) (bulkWriteAttributes a writes) db).1.targets = db.targets ∧
      (UniqueDocs db →
        UniqueDocs (run (EnrichOp.apply env) (bulkWriteAttributes a writes) db).1) := by
  induction writes generalizing db with
  | nil => simp [bulkWriteAttributes]
  | cons w writes ih =>
    obtain ⟨hash, stages⟩ := w
    rw [List.map_cons, List.nodup_cons] at hnodup
    rw [List.forall_mem_cons] at hdocs
    have hfirst := setFields_of_docOf env hdocs.1 stages true
    have hdoc : ∀ a' h', (db.setFields env a hash stages true).docOf a' h' =
        if a' = a ∧ h' = hash then (db.docOf a hash).map fun doc => doc.setFields env stages
        else db.docOf a' h' :=
      fun a' h' => docOf_commitAttributes stages (by rw [hfirst])
    have hne : ∀ w ∈ writes, w.1 ≠ hash := fun w hw heq =>
      hnodup.1 (List.mem_map.mpr ⟨w, hw, heq⟩)
    obtain ⟨hrest, htargets, hunique⟩ :=
      @ih (db.setFields env a hash stages true) hnodup.2 (fun w hw => by
      rw [hdoc, if_neg (fun h => hne w hw h.2)]
      exact hdocs.2 w hw)
    simp only [bulkWriteAttributes, Program.run_bind, Program.run_perform, EnrichOp.apply]
    rw [hrest, htargets]
    refine ⟨?_, by rw [hfirst], fun hdb => hunique ?_⟩
    swap
    · exact uniqueDocs_commitAttributes (by rw [hfirst]) hdb
    by_cases ha : a' = a
    swap
    · simp [ha, hdoc]
    subst ha
    rw [Dict.lookup_cons_ite]
    by_cases hh : h' = hash
    · subst hh
      have hnone : writes.lookup h' = none := by
        rw [List.lookup_eq_none_iff]
        intro w hw
        simpa using (hne w hw).symm
      simp [hnone, hdoc]
    · simp only [if_true, hh, if_false, hdoc, true_and]

/-! ### The restart check -/

/-- The value of an uptime is a number. -/
def IsUptime (env : EnrichEnv β γ) (metric : γ) : Prop := ∃ n, env.uptime metric = .ok n

/-- The uptimes that are stored are numbers. -/
def UptimesOk (env : EnrichEnv β γ) (db : EnrichDb β γ) : Prop :=
  ∀ address metric, (db.target address).sysUpTime = some metric → IsUptime env metric

/-- The uptimes of some groups are numbers. -/
def GroupsUptimeOk (env : EnrichEnv β γ) (groups : List (ResultGroup β γ)) : Prop :=
  ∀ group ∈ groups, ∀ metric, group.metrics.get? sysUpTimeField = some metric → IsUptime env metric

theorem target_insert (db : EnrichDb β γ) (doc : TargetDoc β γ) (a a' : String) :
    EnrichDb.target { db with targets := db.targets.insert a doc } a' =
      if a' = a then doc else db.target a' := by
  unfold EnrichDb.target Dict.getD
  rw [Dict.get?_insert]
  split <;> rfl

/-- What the restart check leaves alone. -/
structure Checked (env : EnrichEnv β γ) (db db' : EnrichDb β γ) : Prop where
  attributes : db'.attributes = db.attributes
  state : ∀ address, (db'.target address).state = (db.target address).state
  uptimes : UptimesOk env db'

/-- A new uptime, which is a number. -/
theorem checked_setUpTime (hdb : UptimesOk env db) {metric : γ} (hmetric : IsUptime env metric) :
    Checked env db ((EnrichOp.setUpTime a metric).apply env db) := by
  refine ⟨rfl, ?_, ?_⟩
  · intro address
    simp only [EnrichOp.apply, target_insert]
    split
    · next heq => rw [heq]
    · rfl
  · intro address metric'
    simp only [EnrichOp.apply, target_insert]
    split
    · intro h
      cases h
      exact hmetric
    · exact hdb address metric'

theorem Checked.trans {db'' : EnrichDb β γ} (h : Checked env db db') (h' : Checked env db' db'') :
    Checked env db db'' :=
  ⟨h'.attributes.trans h.attributes, fun address => (h'.state address).trans (h.state address),
    h'.uptimes⟩

/-- **The restart check returns** when the uptimes are numbers. -/
theorem run_checkRestart {current : Option γ}
    (hcurrent : ∀ old, current = some old → IsUptime env old)
    {groups : List (ResultGroup β γ)} (hgroups : GroupsUptimeOk env groups)
    (hdb : UptimesOk env db) :
    ∃ db', run (EnrichOp.apply env) (checkRestart env current a groups) db = (db', .ok ()) ∧
      Checked env db db' := by
  induction groups generalizing db with
  | nil => exact ⟨db, rfl, rfl, fun _ => rfl, hdb⟩
  | cons group groups ih =>
    unfold GroupsUptimeOk at hgroups
    rw [List.forall_mem_cons] at hgroups
    unfold checkRestart
    cases hmetric : group.metrics.get? sysUpTimeField with
    | none => exact ih hgroups.2 hdb
    | some metric =>
      have hset := checked_setUpTime (a := a) hdb (hgroups.1 metric hmetric)
      obtain ⟨db₁, hrun₁, hchecked₁⟩ := ih hgroups.2 hset.uptimes
      simp only [Program.run_bind, Program.run_perform]
      cases current with
      | none => exact ⟨db₁, hrun₁, hset.trans hchecked₁⟩
      | some old =>
        obtain ⟨newValue, hnew⟩ := hgroups.1 metric hmetric
        obtain ⟨oldValue, hold⟩ := hcurrent old rfl
        simp only [hnew, hold]
        split
        · -- the call is noted, and nothing else
          have htrigger : Checked env ((EnrichOp.setUpTime a metric).apply env db)
              ((EnrichOp.triggerWalk a).apply env ((EnrichOp.setUpTime a metric).apply env db)) :=
            ⟨rfl, fun _ => rfl, hset.uptimes⟩
          obtain ⟨db₂, hrun₂, hchecked₂⟩ := ih hgroups.2 htrigger.uptimes
          simp only [Program.run_bind, Program.run_perform]
          exact ⟨db₂, hrun₂, (hset.trans htrigger).trans hchecked₂⟩
        · exact ⟨db₁, hrun₁, hset.trans hchecked₁⟩

/-! ### The call -/

/-- The database is as calls leave it for a call: the uptimes are numbers, its groups can be
told apart, and the documents there are of its groups. -/
structure Enrichable (env : EnrichEnv β γ) (db : EnrichDb β γ) (call : EnrichCall β γ) : Prop where
  stored : UptimesOk env db
  uptimes : GroupsUptimeOk env (call.result.entries.map Prod.snd)
  nodup : (call.result.keys.map keyHash).Nodup
  id : ∀ key ∈ call.result.keys, ∀ doc, db.docOf call.address (keyHash key) = some doc →
    doc.id = some key

/-- What a call makes of the database and its result. -/
structure Enriched (env : EnrichEnv β γ) (call : EnrichCall β γ) (db db' : EnrichDb β γ)
    (result : Dict String (ResultGroup β γ)) : Prop where
  others : ∀ a' h', (a' = call.address → h' ∉ call.result.keys.map keyHash) →
    db'.docOf a' h' = db.docOf a' h'
  docs : ∀ key group, call.result.get? key = some group →
    db'.docOf call.address (keyHash key) =
      finalDoc env call.address key group (db.docOf call.address (keyHash key))
  result : ∀ key, result.get? key = (call.result.get? key).map fun group =>
    returnedGroup group (db.docOf call.address (keyHash key))
  target : ∃ doc : TargetDoc β γ, doc.state = (db.target call.address).state ∧
    db'.target call.address = doc.setState env (trackedOf call.result call.result.keys)
  targets : ∀ address, address ≠ call.address →
    (db'.target address).state = (db.target address).state
  uptimes : UptimesOk env db'
  unique : UniqueDocs db → UniqueDocs db'

theorem setState_sysUpTime (doc : TargetDoc β γ) (stages : List (String × Stored β)) :
    (doc.setState env stages).sysUpTime = doc.sysUpTime := by
  induction stages generalizing doc with
  | nil => rfl
  | cons e stages ih => exact ih _

/-- The target after its updates. -/
theorem target_of_commitTargets {stages : List (String × Stored β)}
    (h : db'.targets = commitTargets env a stages db.targets) (address : String) :
    db'.target address =
      if address = a then (db.target a).setState env stages else db.target address := by
  unfold EnrichDb.target
  rw [h, commitTargets]
  by_cases haddress : address = a
  · rw [if_pos haddress, haddress]
    by_cases hstages : stages = []
    · simp [hstages, TargetDoc.setState]
    · simp [hstages, Dict.getD]
  · rw [if_neg haddress]
    by_cases hstages : stages = []
    · simp [hstages]
    · simp [hstages, Dict.getD, haddress]

theorem keys_of_bulkOf (result : Dict String (ResultGroup β γ)) (keys : List String) :
    ((bulkOf db a result keys).map Prod.fst).Sublist (keys.map keyHash) := by
  induction keys with
  | nil => exact List.Sublist.refl _
  | cons key keys ih =>
    unfold bulkOf at ih ⊢
    rw [List.filterMap_cons, List.map_cons]
    split
    · exact ih.cons _
    · next w hw =>
      obtain ⟨group, -, hw⟩ := Option.bind_eq_some_iff.mp hw
      have hfst : w.1 = keyHash key := by
        split at hw
        · cases hw
        · cases hw
          rfl
      rw [List.map_cons, hfst]
      exact ih.cons_cons _

theorem mem_bulkOf {result : Dict String (ResultGroup β γ)} {keys : List String}
    {w : String × List (String × Stored β)} : w ∈ bulkOf db a result keys ↔
      ∃ key ∈ keys, ∃ group, result.get? key = some group ∧
        addedFields (db.docOf a (keyHash key)) group.fields.entries ≠ [] ∧
        w = (keyHash key, addedFields (db.docOf a (keyHash key)) group.fields.entries) := by
  simp only [bulkOf, List.mem_filterMap, Option.bind_eq_some_iff]
  constructor
  · intro h
    obtain ⟨key, hkey, group, hgroup, hw⟩ := h
    split at hw
    · cases hw
    · next hne =>
      cases hw
      exact ⟨key, hkey, group, hgroup, hne, rfl⟩
  · intro h
    obtain ⟨key, hkey, group, hgroup, hne, rfl⟩ := h
    exact ⟨key, hkey, group, hgroup, if_neg hne⟩

/-- A group with new fields has a document after the loop. -/
theorem isSome_writtenDoc {key : String} {group : ResultGroup β γ} {old : Option (AttributesDoc β)}
    (h : addedFields old group.fields.entries ≠ []) : (writtenDoc env a key group old).isSome := by
  cases old with
  | none =>
    have hne : group.fields.entries ≠ [] := by
      intro hnil
      rw [hnil] at h
      exact h rfl
    simp [writtenDoc, hne]
  | some doc => rfl

/-- **The loop and the bulk** make the final documents. -/
theorem docOf_bulk {keys : List String} {result result' : Dict String (ResultGroup β γ)}
    (hnodup : (keys.map keyHash).Nodup) (hlooped : Looped env a keys db result db' result') :
    (run (EnrichOp.apply env) (bulkWriteAttributes a (env.bulkOrder (bulkOf db a result keys)))
        db').1.targets = db'.targets ∧
      (UniqueDocs db → UniqueDocs (run (EnrichOp.apply env)
        (bulkWriteAttributes a (env.bulkOrder (bulkOf db a result keys))) db').1) ∧
      (∀ a' h', (a' = a → h' ∉ keys.map keyHash) →
        (run (EnrichOp.apply env) (bulkWriteAttributes a (env.bulkOrder (bulkOf db a result keys)))
          db').1.docOf a' h' = db'.docOf a' h') ∧
      ∀ key ∈ keys, ∀ group, result.get? key = some group →
        (run (EnrichOp.apply env) (bulkWriteAttributes a (env.bulkOrder (bulkOf db a result keys)))
          db').1.docOf a (keyHash key) = finalDoc env a key group (db.docOf a (keyHash key)) := by
  have hperm := env.bulkOrder_perm (bulkOf db a result keys)
  -- each document is in the bulk at most once, so that its order does not matter
  generalize env.bulkOrder (bulkOf db a result keys) = writes at hperm
  have hnodup' : (writes.map Prod.fst).Nodup :=
    (hperm.map Prod.fst).nodup_iff.mpr (hnodup.sublist (keys_of_bulkOf result keys))
  have hmem : ∀ w, w ∈ writes ↔ w ∈ bulkOf db a result keys := fun w => hperm.mem_iff
  have hdocs : ∀ w ∈ writes, (db'.docOf a w.1).isSome := by
    intro w hw
    obtain ⟨key, hkey, group, hgroup, hne, rfl⟩ := mem_bulkOf.mp ((hmem w).mp hw)
    rw [hlooped.docs key hkey group hgroup]
    exact isSome_writtenDoc hne
  have hbulk := docOf_bulkWriteAttributes env hnodup' hdocs
  refine ⟨(hbulk a a).2.1, fun hdb => (hbulk a a).2.2 (hlooped.unique hdb),
    fun a' h' hother => ?_, fun key hkey group hgroup => ?_⟩
  · rw [(hbulk a' h').1]
    split
    · next ha =>
      have hnone : writes.lookup h' = none := by
        rw [List.lookup_eq_none_iff]
        intro w hw
        obtain ⟨key, hkey, group, -, -, rfl⟩ := mem_bulkOf.mp ((hmem w).mp hw)
        rw [bne_iff_ne]
        intro heq
        exact hother ha (heq ▸ List.mem_map_of_mem hkey)
      rw [hnone]
    · rfl
  · rw [(hbulk a (keyHash key)).1, if_pos rfl, hlooped.docs key hkey group hgroup]
    -- a document is in the bulk when fields are added to it
    by_cases hadded : addedFields (db.docOf a (keyHash key)) group.fields.entries = []
    · have hnone : writes.lookup (keyHash key) = none := by
        rw [List.lookup_eq_none_iff]
        intro w hw
        obtain ⟨key', hkey', group', hgroup', hne, rfl⟩ := mem_bulkOf.mp ((hmem w).mp hw)
        rw [bne_iff_ne]
        intro heq
        obtain rfl := List.inj_on_of_nodup_map hnodup hkey hkey' heq
        rw [hgroup] at hgroup'
        cases hgroup'
        exact hne hadded
      simp [hnone, finalDoc, hadded]
    · have hsome : writes.lookup (keyHash key) =
          some (addedFields (db.docOf a (keyHash key)) group.fields.entries) :=
        (Dict.lookup_eq_some_iff_mem hnodup').mpr
          ((hmem _).mpr (mem_bulkOf.mpr ⟨key, hkey, group, hgroup, hadded, rfl⟩))
      rw [hsome]
      rfl

/-- **A call makes of each document of its groups what it should**, and leaves the others alone. -/
theorem enriched_enrich {call : EnrichCall β γ} (h : Enrichable env db call) :
    ∃ db' result, run (EnrichOp.apply env) (enrich env call) db = (db', .ok result) ∧
      Enriched env call db db' result := by
  have hcurrent : ∀ old, (db.targets.get? call.address).bind (·.sysUpTime) = some old →
      IsUptime env old := by
    intro old hold
    apply h.stored call.address old
    unfold EnrichDb.target Dict.getD
    cases hget : db.targets.get? call.address with
    | none => simp [hget] at hold
    | some doc => simpa [hget] using hold
  obtain ⟨db₁, hrun₁, hchecked⟩ := run_checkRestart (a := call.address) hcurrent h.uptimes h.stored
  have hdocOf₁ : ∀ a' h', db₁.docOf a' h' = db.docOf a' h' := by
    intro a' h'
    unfold EnrichDb.docOf
    rw [hchecked.attributes]
  -- if the address is unknown its groups have no documents
  have hloopable : Loopable db₁ call.address
      (db₁.attributes.any fun doc => doc.address = call.address) call.result.keys := by
    refine ⟨h.nodup, ?_, ?_⟩
    · intro key _ hany
      rw [EnrichDb.docOf, List.find?_eq_none]
      intro doc hdoc hfor
      rw [List.any_eq_false] at hany
      apply hany doc hdoc
      simp only [AttributesDoc.isFor, Bool.and_eq_true, decide_eq_true_eq] at hfor
      simp [hfor.1]
    · intro key hkey
      rw [hdocOf₁]
      exact h.id key hkey
  obtain ⟨db₂, result, hrun₂, hlooped⟩ := run_enrichGroups env hloopable [] call.result
  rw [List.nil_append] at hrun₂
  obtain ⟨htargets, hunique, hothers, hdocs⟩ := docOf_bulk h.nodup hlooped
  have htarget : ∀ address, EnrichDb.target _ address = _ :=
    target_of_commitTargets (htargets.trans hlooped.targets)
  refine ⟨_, result, by rw [run_enrich, hrun₁]; simp only [hrun₂]; rfl, ?_⟩
  refine {
    others := fun a' h' hother => ?_
    docs := fun key group hgroup => ?_
    result := fun key => ?_
    target := ⟨db₁.target call.address, hchecked.state _, ?_⟩
    targets := fun address haddress => ?_
    uptimes := fun address metric hmetric => ?_
    unique := fun hdb => hunique (by rw [UniqueDocs, hchecked.attributes]; exact hdb) }
  · rw [hothers a' h' hother, hlooped.others a' h' hother, hdocOf₁]
  · have hkey : key ∈ call.result.keys := Dict.mem_keys_iff.mpr ⟨group, hgroup⟩
    rw [hdocs key hkey group hgroup, hdocOf₁]
  · rw [hlooped.result, hdocOf₁]
    split
    · rfl
    · next hkey => simp [Dict.get?_eq_none_iff.mpr hkey]
  · rw [htarget, if_pos rfl]
  · rw [htarget, if_neg haddress, hchecked.state]
  · rw [htarget] at hmetric
    split at hmetric
    · rw [setState_sysUpTime] at hmetric
      exact hchecked.uptimes _ metric hmetric
    · exact hchecked.uptimes address metric hmetric

/-! ### What is returned, whatever other tasks do -/

open Program (Performs)

/-- A result still has the groups of another, with their metrics and what their fields hold. -/
def KeepsFields (result result' : Dict String (ResultGroup β γ)) : Prop :=
  ∀ key group, result.get? key = some group → ∃ group', result'.get? key = some group' ∧
    group'.metrics = group.metrics ∧
      ∀ f content, group.fields.get? f = some content → group'.fields.get? f = some content

theorem KeepsFields.rfl {result : Dict String (ResultGroup β γ)} : KeepsFields result result :=
  fun _ group hgroup => ⟨group, hgroup, Eq.refl _, fun _ _ hf => hf⟩

theorem KeepsFields.trans {result result' result'' : Dict String (ResultGroup β γ)}
    (h : KeepsFields result result') (h' : KeepsFields result' result'') :
    KeepsFields result result'' := by
  intro key group hgroup
  obtain ⟨group', hgroup', hmetrics, hfields⟩ := h key group hgroup
  obtain ⟨group'', hgroup'', hmetrics', hfields'⟩ := h' key group' hgroup'
  exact ⟨group'', hgroup'', hmetrics'.trans hmetrics,
    fun f content hf => hfields' f content (hfields f content hf)⟩

/-- The fields that come from the database replace none. -/
theorem get?_enrichMetricWithFieldsFromDb (group : ResultGroup β γ)
    (fields : Dict String (Stored β)) {f : String} {content : β}
    (hf : group.fields.get? f = some content) :
    (enrichMetricWithFieldsFromDb group fields).fields.get? f = some content := by
  unfold enrichMetricWithFieldsFromDb
  split
  · exact hf
  · show Dict.get? (List.foldl _ group.fields _) f = _
    generalize fields.entries.map Prod.snd = persisted
    revert hf
    generalize group.fields = current
    intro hf
    induction persisted generalizing current with
    | nil => exact hf
    | cons cv persisted ih =>
      apply ih
      show Dict.get?
        (if cv.name ∈ current then current else current.insert cv.name cv.content) f = _
      split
      · exact hf
      · next hnew =>
        have hne : f ≠ cv.name := by
          rintro rfl
          exact hnew (Dict.mem_keys_iff.mpr ⟨content, hf⟩)
        rw [Dict.get?_insert, if_neg hne, hf]

theorem metrics_enrichMetricWithFieldsFromDb (group : ResultGroup β γ)
    (fields : Dict String (Stored β)) :
    (enrichMetricWithFieldsFromDb group fields).metrics = group.metrics := by
  unfold enrichMetricWithFieldsFromDb
  split <;> rfl

theorem keepsFields_addBackFields (result : Dict String (ResultGroup β γ)) (id : String)
    (fields : Dict String (Stored β)) : KeepsFields result (addBackFields result id fields) := by
  unfold addBackFields
  split
  · next old hold =>
    intro key group hgroup
    rw [Dict.get?_insert]
    split
    · next hkey =>
      rw [hkey] at hgroup
      cases hold.symm.trans hgroup
      exact ⟨_, rfl, metrics_enrichMetricWithFieldsFromDb old fields,
        fun f content hf => get?_enrichMetricWithFieldsFromDb old fields hf⟩
    · exact ⟨group, hgroup, rfl, fun _ _ hf => hf⟩
  · exact KeepsFields.rfl

theorem keepsFields_enrichGroups (env : EnrichEnv β γ) (a : String) (isAny : Bool)
    (keys : List String) (st : LoopState β γ) :
    Performs (fun _ => True) (fun r => ∀ st', r = .ok st' → KeepsFields st.2 st'.2)
      (enrichGroups env a isAny keys st) := by
  induction keys generalizing st with
  | nil =>
    intro st' hst'
    cases hst'
    exact KeepsFields.rfl
  | cons key keys ih =>
    obtain ⟨bulk, result⟩ := st
    unfold enrichGroups
    split
    · exact ih (bulk, result)
    · apply Performs.bind _ (Program.performs_true _)
      rintro ⟨current, newFields⟩ -
      cases current with
      | none =>
        exact ih (if newFields = [] then bulk else bulk ++ [(keyHash key, newFields)], result)
      | some doc =>
        dsimp only
        cases doc.id with
        -- a document without an id: `enrich` raises
        | none => exact fun _ h => by cases h
        | some id =>
          refine (ih (_, addBackFields result id doc.fields)).imp ?_
          intro r hr st' hst'
          exact (keepsFields_addBackFields result id doc.fields).trans (hr st' hst')

/-- **What the fields of the result hold is returned**, whatever the call finds. -/
theorem keepsFields_enrich (env : EnrichEnv β γ) (call : EnrichCall β γ) :
    Performs (fun _ => True) (fun r => ∀ result, r = .ok result → KeepsFields call.result result)
      (enrich env call) := by
  unfold enrich
  refine Program.performs_perform_bind.mpr ⟨trivial, fun _ => ?_⟩
  apply Performs.bind _ (Program.performs_true _)
  intro checked _
  cases checked with
  | error err => exact fun _ h => by cases h
  | ok =>
    refine Program.performs_perform_bind.mpr ⟨trivial, fun _ => ?_⟩
    apply Performs.bind _ (keepsFields_enrichGroups env _ _ _ _)
    intro looped hlooped
    cases looped with
    | error err => exact fun _ h => by cases h
    | ok st =>
      obtain ⟨bulk, returned⟩ := st
      apply Performs.bind _ (Program.performs_true _)
      intro _ _ result hresult
      cases hresult
      exact hlooped _ rfl

end Enrich

end Sc4snmp
