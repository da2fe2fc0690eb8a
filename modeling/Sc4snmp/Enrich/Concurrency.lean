import Sc4snmp.Enrich.LastWriter

/-!
# Concurrent calls of `enrich`

Any number of calls share the database, and their operations come in any order.  Whatever
the others do, the documents only grow, with one exception: the update that begins a
document takes away the fields of one that is there, which it finds when another call has
begun it in between.

## Main definitions

* `Resets` — the exception.
* `Grows` — what the calls do to the documents otherwise.
* `FieldsKept` — each field a call reports is in the document of its group.

## Main results

* `grows_apply` — every operation that is no exception.
* `ensures_enrich` — what a call sees to among the others.
* `fieldsKept_interleave` — **calls that reset no document lose no field, in any order of
  their operations**.
-/

namespace Sc4snmp

namespace Enrich

open Program (run done perform interleave trace Ensures)

variable {β γ : Type} {env : EnrichEnv β γ} {db db' db'' : EnrichDb β γ} {a h k : String}

/-! ### What grows -/

/-- A document has fields, and an update that begins it would take them away. -/
def Resets (db : EnrichDb β γ) : EnrichOp β γ → Prop
  | .initialise address hash indexes _ => ∃ doc ∈ db.attributes, doc.isFor address hash = true ∧
    doc.indexes = some indexes ∧ doc.fields.entries ≠ []
  | _ => False

instance (db : EnrichDb β γ) (op : EnrichOp β γ) : Decidable (Resets db op) :=
  match op with
  | .initialise address hash indexes _ =>
    inferInstanceAs (Decidable (∃ doc ∈ db.attributes, doc.isFor address hash = true ∧
      doc.indexes = some indexes ∧ doc.fields.entries ≠ []))
  | .findTarget _ | .setUpTime _ _ | .triggerWalk _ | .findAttributes _ | .setFields _ _ _ _
  | .setState _ _ => inferInstanceAs (Decidable False)

/-- The document of a group has a field. -/
def Present (db : EnrichDb β γ) (a h k : String) : Prop :=
  ∃ doc, db.docOf a h = some doc ∧ k ∈ doc.fields

/-- The documents are still there, with their fields. -/
def Grows (db db' : EnrichDb β γ) : Prop :=
  ∀ a h doc, db.docOf a h = some doc →
    ∃ doc', db'.docOf a h = some doc' ∧ ∀ k, k ∈ doc.fields → k ∈ doc'.fields

theorem Grows.rfl : Grows db db := fun _ _ doc hdoc => ⟨doc, hdoc, fun _ hk => hk⟩

theorem Grows.trans (hab : Grows db db') (hbc : Grows db' db'') : Grows db db'' := by
  intro a h doc hdoc
  obtain ⟨doc', hdoc', hfields⟩ := hab a h doc hdoc
  obtain ⟨doc'', hdoc'', hfields'⟩ := hbc a h doc' hdoc'
  exact ⟨doc'', hdoc'', fun k hk => hfields' k (hfields k hk)⟩

theorem Present.grows (hk : Present db a h k) (hgrows : Grows db db') : Present db' a h k := by
  obtain ⟨doc, hdoc, hk⟩ := hk
  obtain ⟨doc', hdoc', hfields⟩ := hgrows a h doc hdoc
  exact ⟨doc', hdoc', hfields k hk⟩

/-! ### The operations -/

/-- An operation that leaves the attributes alone. -/
theorem grows_of_attributes (hattributes : db'.attributes = db.attributes) : Grows db db' := by
  intro a h doc hdoc
  refine ⟨doc, ?_, fun _ hk => hk⟩
  unfold EnrichDb.docOf
  rw [hattributes]
  exact hdoc

theorem mem_setFields (env : EnrichEnv β γ) (doc : AttributesDoc β)
    (stages : List (String × Stored β)) :
    k ∈ (doc.setFields env stages).fields ↔ k ∈ stages.map Prod.fst ∨ k ∈ doc.fields := by
  induction stages generalizing doc with
  | nil => simp
  | cons e stages ih =>
    show k ∈ (AttributesDoc.setFields env
      { doc with fields := doc.fields.insert e.1 (env.evaluate doc e.2) } stages).fields ↔ _
    rw [ih]
    show _ ∨ k ∈ (doc.fields.insert e.1 (env.evaluate doc e.2)).keys ↔ _
    rw [Dict.mem_keys_insert, List.map_cons, List.mem_cons]
    show _ ∨ k = e.1 ∨ k ∈ doc.fields ↔ _
    tauto

/-- Stages add to a document that is there. -/
theorem grows_setFields (hdoc : (db.docOf a h).isSome) (stages : List (String × Stored β))
    (upsert : Bool) :
    Grows db (db.setFields env a h stages upsert) ∧
      ∀ k ∈ stages.map Prod.fst, Present (db.setFields env a h stages upsert) a h k := by
  have hset := setFields_of_docOf env hdoc stages upsert
  have hdocOf : ∀ a' h', (db.setFields env a h stages upsert).docOf a' h' =
      if a' = a ∧ h' = h then (db.docOf a h).map fun doc => doc.setFields env stages
      else db.docOf a' h' :=
    fun a' h' => docOf_commitAttributes stages (by rw [hset])
  constructor
  · intro a' h' doc hdoc'
    rw [hdocOf]
    split
    · next heq =>
      rw [heq.1, heq.2] at hdoc'
      rw [hdoc']
      exact ⟨_, rfl, fun k hk => (mem_setFields env doc stages).mpr (Or.inr hk)⟩
    · exact ⟨doc, hdoc', fun _ hk => hk⟩
  · intro k hk
    obtain ⟨old, hold⟩ := Option.isSome_iff_exists.mp hdoc
    refine ⟨_, by rw [hdocOf, if_pos ⟨rfl, rfl⟩, hold]; rfl, ?_⟩
    exact (mem_setFields env old stages).mpr (Or.inl hk)

/-- A document that goes after the others takes the place of none. -/
theorem docOf_append (doc : AttributesDoc β) (a h : String) :
    EnrichDb.docOf { db with attributes := db.attributes ++ [doc] } a h =
      (db.docOf a h).or (if doc.isFor a h then some doc else none) := by
  unfold EnrichDb.docOf
  rw [List.find?_append, List.find?_singleton]

theorem grows_append (doc : AttributesDoc β) :
    Grows db { db with attributes := db.attributes ++ [doc] } := by
  intro a h old hold
  refine ⟨old, ?_, fun _ hk => hk⟩
  rw [docOf_append, hold]
  rfl

/-- Stages of an upsert are stored, in a new document if there is none. -/
theorem grows_upsert (stages : List (String × Stored β)) :
    Grows db (db.setFields env a h stages true) ∧
      ∀ k ∈ stages.map Prod.fst, Present (db.setFields env a h stages true) a h k := by
  by_cases hdoc : (db.docOf a h).isSome
  · exact grows_setFields hdoc stages true
  · have hany : ¬ db.attributes.any (AttributesDoc.isFor a h) = true := by
      rw [any_isFor_iff]
      exact hdoc
    unfold EnrichDb.setFields
    rw [if_neg hany, if_pos rfl]
    refine ⟨grows_append _, fun k hk => ?_⟩
    obtain ⟨haddress, hhash, -⟩ :=
      setFields_frame env (⟨a, h, none, none, Dict.empty⟩ : AttributesDoc β) stages
    refine ⟨_, ?_, (mem_setFields env ⟨a, h, none, none, Dict.empty⟩ stages).mpr (Or.inl hk)⟩
    rw [docOf_append, Option.not_isSome_iff_eq_none.mp hdoc, Option.none_or, if_pos]
    rw [AttributesDoc.isFor, haddress, hhash]
    simp

/-- A document is begun, and none that has fields is touched. -/
theorem grows_initialise {indexes : List IndexValue} {id : String}
    (hreset : ¬ Resets db (.initialise a h indexes id)) :
    Grows db (db.initialise a h indexes id) := by
  have hfor : ∀ (a' h' : String) (doc : AttributesDoc β),
      ({ doc with id := some id, fields := Dict.empty } : AttributesDoc β).isFor a' h' =
        doc.isFor a' h' := fun _ _ _ => rfl
  unfold EnrichDb.initialise
  dsimp only
  by_cases hany : (db.attributes.any fun doc : AttributesDoc β =>
      doc.isFor a h && doc.indexes = some indexes) = true
  · rw [if_pos hany]
    -- the document that is found is begun again, and had no fields
    have hempty : ∀ doc ∈ db.attributes, (doc.isFor a h && doc.indexes = some indexes) = true →
        doc.fields.entries = [] := by
      intro doc hdoc hselects
      rw [Bool.and_eq_true, decide_eq_true_eq] at hselects
      by_contra hne
      exact hreset ⟨doc, hdoc, hselects.1, hselects.2, hne⟩
    have hfind := fun a' h' => @find?_updateFirst_or _
      (fun doc : AttributesDoc β => doc.isFor a h && doc.indexes = some indexes)
      (AttributesDoc.isFor a' h') (fun doc => { doc with id := some id, fields := Dict.empty })
      db.attributes (hfor a' h')
    intro a' h' doc hdoc
    rcases hfind a' h' with hsame | ⟨found, hfound, hselects, hchanged⟩
    · exact ⟨doc, hsame.trans hdoc, fun _ hk => hk⟩
    · obtain rfl : found = doc := Option.some.inj (hfound.symm.trans hdoc)
      refine ⟨_, hchanged, fun k hk => ?_⟩
      have hmem : k ∈ found.fields.entries.map Prod.fst := hk
      rw [hempty found (List.mem_of_find?_eq_some hdoc) hselects] at hmem
      cases hmem
  · rw [if_neg hany]
    exact grows_append _

/-- **Every operation that resets no document lets the documents grow.** -/
theorem grows_apply {op : EnrichOp β γ} (hop : ¬ Resets db op) : Grows db (op.apply env db) := by
  cases op with
  | findTarget | setUpTime | triggerWalk | findAttributes | setState =>
    exact grows_of_attributes rfl
  | initialise address hash indexes id => exact grows_initialise hop
  | setFields address hash stages upsert =>
    show Grows db (db.setFields env address hash stages upsert)
    by_cases hdoc : (db.docOf address hash).isSome
    · exact (grows_setFields hdoc stages upsert).1
    · cases upsert with
      | true => exact (grows_upsert stages).1
      | false =>
        have hany : ¬ db.attributes.any (AttributesDoc.isFor address hash) = true := by
          rw [any_isFor_iff]
          exact hdoc
        unfold EnrichDb.setFields
        rw [if_neg hany, if_neg Bool.false_ne_true]
        exact Grows.rfl

/-! ### What a call sees to -/

/-- What a program sees to among calls that let the documents grow. -/
abbrev Sees (env : EnrichEnv β γ) {α : Type} (Q : α → EnrichDb β γ → Prop)
    (p : EnrichProgram β γ α) (db : EnrichDb β γ) : Prop :=
  Ensures (EnrichOp.apply env) (fun db op => ¬ Resets db op) Grows Q p db

section Sees

variable {α δ : Type} {Q : α → EnrichDb β γ → Prop}

theorem sees_perform {op : EnrichOp β γ} {f : EnrichDb β γ → EnrichProgram β γ α}
    (hnext : ∀ db', Grows db (op.apply env db') → Sees env Q (f db') (op.apply env db')) :
    Sees env Q (perform op >>= f) db :=
  fun db' hgrows hop => ⟨grows_apply hop, hnext db' (hgrows.trans (grows_apply hop))⟩

/-- What the first part sees to is there for the second, with all that has grown. -/
theorem sees_bind {R : δ → EnrichDb β γ → Prop} {p : EnrichProgram β γ δ}
    {f : δ → EnrichProgram β γ α} (hp : Sees env R p db)
    (hf : ∀ x db', Grows db db' → R x db' → Sees env Q (f x) db') : Sees env Q (p >>= f) db :=
  Program.ensures_bind (fun _ => Grows.rfl)
    ((hp.grown Grows.rfl Grows.trans).imp fun x db' h => hf x db' h.2 h.1)

theorem sees_true (p : EnrichProgram β γ α) : Sees env (fun _ _ => True) p db :=
  Program.ensures_true (fun _ _ hop => grows_apply hop) p db

end Sees

theorem sees_flushUpdates (u : Updates β) :
    Sees env (fun u' _ => u'.newFields = u.newFields) (flushUpdates env a u) db := by
  unfold flushUpdates
  split
  · exact sees_perform fun _ _ _ _ => rfl
  · exact fun _ _ => rfl

theorem sees_flushAttributeUpdates (u : Updates β) :
    Sees env (fun u' _ => u'.newFields = u.newFields) (flushAttributeUpdates env a h u) db := by
  unfold flushAttributeUpdates
  split
  · exact sees_perform fun _ _ _ _ => rfl
  · exact fun _ _ => rfl

/-- The fields the document does not have are left to the bulk. -/
theorem sees_setAttributeUpdates (current : Option (AttributesDoc β)) (fields : List (String × β))
    (u : Updates β) :
    Sees env (fun u' _ => u'.newFields = u.newFields ++ addedFields current fields)
      (setAttributeUpdates env a h current fields u) db := by
  induction fields generalizing u db with
  | nil => exact fun _ _ => (List.append_nil _).symm
  | cons e fields ih =>
    unfold setAttributeUpdates
    apply sees_bind (sees_flushUpdates _)
    intro u₁ db₁ _ hu₁
    apply sees_bind (sees_flushAttributeUpdates u₁)
    intro u₂ db₂ _ hu₂
    apply (ih u₂).imp
    intro u' _ hu'
    rw [hu', hu₂, hu₁, add_eq, List.append_assoc, ← addedFields_cons]

/-- The document that is found is still there, with its fields. -/
theorem sees_findCurrent (isAny : Bool) :
    Sees env (fun current db => ∀ k, (storedField current k).isSome → Present db a h k)
      (findCurrent a h isAny) db := by
  unfold findCurrent
  split
  · apply sees_perform
    intro db₁ _ db₂ hgrows k hk
    cases hdoc : db₁.docOf a h with
    | none =>
      rw [hdoc] at hk
      cases hk
    | some doc =>
      rw [hdoc] at hk
      have hmem : k ∈ doc.fields := Dict.isSome_get?_iff.mp hk
      exact Present.grows ⟨doc, hdoc, hmem⟩ hgrows
  · intro db₁ _ k hk
    cases hk

/-- A field is stored, or a write of the bulk stores it. -/
def Handled (db : EnrichDb β γ) (a : String) (bulk : List (String × List (String × Stored β)))
    (h k : String) : Prop :=
  Present db a h k ∨ ∃ w ∈ bulk, w.1 = h ∧ k ∈ w.2.map Prod.fst

theorem Handled.grows {bulk bulk' : List (String × List (String × Stored β))}
    (hk : Handled db a bulk h k) (hgrows : Grows db db') (hbulk : bulk ⊆ bulk') :
    Handled db' a bulk' h k :=
  hk.imp (fun hk => hk.grows hgrows) fun ⟨w, hw, hk⟩ => ⟨w, hbulk hw, hk⟩

/-- Each field of a group is stored, or left to the bulk. -/
theorem sees_writeGroup (isAny : Bool) (key : String) (group : ResultGroup β γ) :
    Sees env (fun r db => ∀ f ∈ group.fields,
        Handled db a (if r.2 = [] then [] else [(keyHash key, r.2)]) (keyHash key) (keyHash f))
      (writeGroup env a isAny key group) db := by
  unfold writeGroup
  apply sees_bind (sees_findCurrent isAny)
  intro current db₁ _ hcurrent
  have hrest : ∀ db₂, Grows db₁ db₂ →
      Sees env (fun r db => ∀ f ∈ group.fields,
          Handled db a (if r.2 = [] then [] else [(keyHash key, r.2)]) (keyHash key) (keyHash f))
        (do
          let u ← setAttributeUpdates env a (keyHash key) current group.fields.entries ⟨[], [], []⟩
          updateCollections a (keyHash key) u
          return (current, u.newFields)) db₂ := by
    intro db₂ hgrows
    apply sees_bind (sees_setAttributeUpdates current group.fields.entries ⟨[], [], []⟩)
    intro u db₃ hgrows₃ hu
    apply sees_bind (sees_true _)
    intro _ db₄ hgrows₄ _ db₅ hgrows₅ f hf
    obtain ⟨e, he, rfl⟩ := List.mem_map.mp hf
    cases hstored : storedField current (keyHash e.1) with
    | some cv =>
      have hpresent := hcurrent (keyHash e.1) (by rw [hstored]; rfl)
      exact Or.inl (hpresent.grows
        (hgrows.trans (hgrows₃.trans (hgrows₄.trans hgrows₅))))
    | none =>
      have hmem : (keyHash e.1, ⟨e.1, e.2⟩) ∈ u.newFields := by
        rw [hu, List.nil_append]
        exact List.mem_filterMap.mpr ⟨e, he, by rw [hstored]; rfl⟩
      refine Or.inr ⟨(keyHash key, u.newFields), ?_, rfl, List.mem_map.mpr ⟨_, hmem, rfl⟩⟩
      rw [if_neg (List.ne_nil_of_mem hmem)]
      exact List.mem_singleton_self _
  -- a document may be begun before the rest
  dsimp only
  split
  · exact sees_perform fun db₂ hgrows => hrest _ hgrows
  · exact hrest db₁ Grows.rfl

/-- A result still has the groups of another, with their fields. -/
def Carries (result result' : Dict String (ResultGroup β γ)) : Prop :=
  ∀ key group, result.get? key = some group →
    ∃ group', result'.get? key = some group' ∧ ∀ f ∈ group.fields, f ∈ group'.fields

theorem Carries.rfl {result : Dict String (ResultGroup β γ)} : Carries result result :=
  fun _ group hgroup => ⟨group, hgroup, fun _ hf => hf⟩

theorem KeepsFields.carries {result result' : Dict String (ResultGroup β γ)}
    (h : KeepsFields result result') : Carries result result' := by
  intro key group hgroup
  obtain ⟨group', hgroup', -, hfields⟩ := h key group hgroup
  refine ⟨group', hgroup', fun f hf => ?_⟩
  obtain ⟨content, hcontent⟩ := Dict.mem_keys_iff.mp hf
  exact Dict.mem_keys_iff.mpr ⟨content, hfields f content hcontent⟩

/-- The fields of the groups are stored, or left to the bulk. -/
theorem sees_enrichGroups (isAny : Bool) (keys : List String) (st : LoopState β γ) :
    Sees env (fun r db => ∀ st', r = .ok st' → st.1 ⊆ st'.1 ∧
        ∀ key ∈ keys, ∀ group, st.2.get? key = some group → ∀ f ∈ group.fields,
          Handled db a st'.1 (keyHash key) (keyHash f))
      (enrichGroups env a isAny keys st) db := by
  induction keys generalizing st db with
  | nil =>
    intro db' _ st' hst'
    cases hst'
    exact ⟨List.Subset.refl _, fun _ hkey => by cases hkey⟩
  | cons key keys ih =>
    obtain ⟨bulk, result⟩ := st
    unfold enrichGroups
    cases hgroup : result.get? key with
    | none =>
      apply (ih (bulk, result)).imp
      intro r db' hr st' hst'
      refine ⟨(hr st' hst').1, fun key' hkey' group' hgroup' => ?_⟩
      rcases List.mem_cons.mp hkey' with rfl | hkey'
      · cases hgroup.symm.trans hgroup'
      · exact (hr st' hst').2 key' hkey' group' hgroup'
    | some group =>
      apply sees_bind (sees_writeGroup isAny key group)
      rintro ⟨current, newFields⟩ db₁ _ hwritten
      -- the rest of the loop, with a result that carries the groups of this one
      have hrest : ∀ result', Carries result result' →
          Sees env (fun r db => ∀ st', r = .ok st' → bulk ⊆ st'.1 ∧
              ∀ key' ∈ key :: keys, ∀ group, result.get? key' = some group → ∀ f ∈ group.fields,
                Handled db a st'.1 (keyHash key') (keyHash f))
            (enrichGroups env a isAny keys
              (if newFields = [] then bulk else bulk ++ [(keyHash key, newFields)], result'))
                db₁ := by
        intro result' hcarries
        apply ((ih (_, result')).grown Grows.rfl Grows.trans).imp
        rintro r db' ⟨hr, hgrows⟩ st' hst'
        obtain ⟨hbulk, hkeys⟩ := hr st' hst'
        have hsub : bulk ⊆ st'.1 := by
          refine fun w hw => hbulk ?_
          split
          · exact hw
          · exact List.mem_append_left _ hw
        refine ⟨hsub, fun key' hkey' group' hgroup' f hf => ?_⟩
        rcases List.mem_cons.mp hkey' with rfl | hkey'
        · cases hgroup.symm.trans hgroup'
          refine (hwritten f hf).grows hgrows fun w hw => hbulk ?_
          split at hw
          · cases hw
          · next hne =>
            rw [if_neg hne]
            exact List.mem_append_right _ hw
        · obtain ⟨group'', hgroup'', hfields⟩ := hcarries key' group' hgroup'
          exact hkeys key' hkey' group'' hgroup'' f (hfields f hf)
      cases current with
      | none => exact hrest result Carries.rfl
      | some doc =>
        dsimp only
        cases doc.id with
        | none => exact fun _ _ st' hst' => by cases hst'
        | some id => exact hrest _ (keepsFields_addBackFields result id doc.fields).carries

/-- The writes of a bulk are stored. -/
theorem sees_bulkWriteAttributes (writes : List (String × List (String × Stored β))) :
    Sees env (fun _ db => ∀ w ∈ writes, ∀ k ∈ w.2.map Prod.fst, Present db a w.1 k)
      (bulkWriteAttributes a writes) db := by
  induction writes generalizing db with
  | nil => exact fun _ _ _ hw => by cases hw
  | cons write writes ih =>
    obtain ⟨hash, stages⟩ := write
    unfold bulkWriteAttributes
    apply sees_perform
    intro db₁ _
    apply (ih.grown Grows.rfl Grows.trans).imp
    rintro _ db₂ ⟨hwrites, hgrows⟩ w hw k hk
    rcases List.mem_cons.mp hw with rfl | hw
    · exact ((grows_upsert stages).2 k hk).grows hgrows
    · exact hwrites w hw k hk

/-- Each field a call reports is in the document of its group. -/
def FieldsKept (call : EnrichCall β γ) (db : EnrichDb β γ) : Prop :=
  ∀ key group, call.result.get? key = some group → ∀ f ∈ group.fields,
    Present db call.address (keyHash key) (keyHash f)

/-- **A call among the others has its fields stored when it returns.** -/
theorem sees_enrich (call : EnrichCall β γ) :
    Sees env (fun r db => ∀ result, r = .ok result → FieldsKept call db) (enrich env call) db := by
  unfold enrich
  apply sees_perform
  intro db₁ _
  apply sees_bind (sees_true _)
  intro checked db₂ _ _
  cases checked with
  | error err => exact fun _ _ result hresult => by cases hresult
  | ok =>
    dsimp only
    apply sees_perform
    intro db₃ _
    apply sees_bind (sees_enrichGroups _ call.result.keys ([], call.result))
    intro looped db₄ hgrows₄ hlooped
    cases looped with
    | error err => exact fun _ _ result hresult => by cases hresult
    | ok st =>
      obtain ⟨bulk, result⟩ := st
      dsimp only
      apply sees_bind (sees_bulkWriteAttributes (env.bulkOrder bulk))
      intro _ db₅ hgrows₅ hwritten db₆ hgrows₆ result' _ key group hgroup f hf
      have hkey : key ∈ call.result.keys := Dict.isSome_get?_iff.mp (by rw [hgroup]; rfl)
      -- a field was there in the loop, or it is in the bulk for its document
      rcases (hlooped _ rfl).2 key hkey group hgroup f hf with hpresent | ⟨w, hw, hhash, hk⟩
      · exact hpresent.grows (hgrows₅.trans hgrows₆)
      · rw [← hhash]
        exact (hwritten w ((env.bulkOrder_perm bulk).mem_iff.mpr hw) _ hk).grows hgrows₆

/-! ### Calls under a schedule -/

section Schedule

variable {ι : Type} [DecidableEq ι]

/-- **Calls that reset no document lose no field, in any order of their operations**: when a
call has returned, each field it reports is in the document of its group, whatever the
others have done by then. -/
theorem fieldsKept_interleave (env : EnrichEnv β γ) (calls : ι → EnrichCall β γ)
    (db : EnrichDb β γ) (schedule : List ι)
    (hreset : ∀ e ∈ trace (EnrichOp.apply env) (fun i => enrich env (calls i)) db schedule,
      ¬ Resets e.1 e.2) (i : ι) (result : Dict String (ResultGroup β γ))
    (hreturned : (interleave (EnrichOp.apply env) (fun i => enrich env (calls i)) db schedule).1 i =
      done (.ok result)) :
    FieldsKept (calls i)
      (interleave (EnrichOp.apply env) (fun i => enrich env (calls i)) db schedule).2 := by
  have hensures := Program.ensures_interleave (fun _ => Grows.rfl) Grows.trans schedule
    (fun j => @sees_enrich β γ env db (calls j)) hreset i
  rw [hreturned] at hensures
  exact hensures _ Grows.rfl result rfl

/-- A poll of an interface for one of its texts, and for its octets. -/
def textPoll (name text : String) : EnrichCall String ℤ where
  address := "10.0.0.1"
  result := Dict.ofList [("IF-MIB::int=1",
    ⟨Dict.ofList [(name, text)], Dict.ofList [("IF-MIB.ifInOctets", 5)], [.int 1]⟩)]

/-- A walk and a poll of one interface. -/
def twoPolls (walk : Bool) : EnrichCall String ℤ :=
  if walk then textPoll "IF-MIB.ifDescr" "eth0" else textPoll "IF-MIB.ifAlias" "uplink"

/-- Both calls find no document and begin it, and neither has stored a field by then. -/
theorem fieldsKept_interleave_twoPolls :
    FieldsKept (twoPolls true)
      (interleave (EnrichOp.apply literalEnv) (fun i => enrich literalEnv (twoPolls i))
        ⟨Dict.empty, [], []⟩ [true, true, false, false, true, false, true, false]).2 :=
  fieldsKept_interleave literalEnv twoPolls ⟨Dict.empty, [], []⟩
    [true, true, false, false, true, false, true, false] (by decide +kernel) true _ rfl

end Schedule

/-- Each metric a call reports is in the document of its group. -/
def MetricsKept (call : EnrichCall β γ) (db : EnrichDb β γ) : Prop :=
  ∀ key group, call.result.get? key = some group → ∀ m ∈ group.metrics,
    Present db call.address (keyHash key) (keyHash m)

/-- When two calls for one address have returned, both have what they reported in the
documents, whatever the order of their operations. -/
def KeptInEveryOrder (Kept : EnrichCall String ℤ → EnrichDb String ℤ → Prop) : Prop :=
  ∀ (calls : Bool → EnrichCall String ℤ) (db : EnrichDb String ℤ) (schedule : List Bool),
    (calls true).address = (calls false).address →
    (∀ i, ∃ result, (interleave (EnrichOp.apply literalEnv)
      (fun i => enrich literalEnv (calls i)) db schedule).1 i = done (.ok result)) →
    ∀ i, Kept (calls i) (interleave (EnrichOp.apply literalEnv)
      (fun i => enrich literalEnv (calls i)) db schedule).2

/-- The walk has stored its field when the poll, which found no document, begins it again: the
field is lost.  No metric is stored in any order. -/
theorem keptInEveryOrder_fails :
    ¬ KeptInEveryOrder FieldsKept ∧ ¬ KeptInEveryOrder MetricsKept := by
  constructor
  · intro h
    have hkept := h twoPolls ⟨Dict.empty, [], []⟩
      [true, true, false, false, true, true, false, false] rfl
      (fun i => by cases i <;> exact ⟨_, rfl⟩) true
    obtain ⟨doc, hdoc, hfield⟩ := hkept "IF-MIB::int=1" _ rfl "IF-MIB.ifDescr" (by decide)
    cases hdoc.symm.trans (rfl : _ = some _)
    revert hfield
    decide +kernel
  · intro h
    have hkept := h twoPolls ⟨Dict.empty, [], []⟩
      [true, true, true, true, false, false, false, false, false] rfl
      (fun i => by cases i <;> exact ⟨_, rfl⟩) true
    obtain ⟨doc, hdoc, hmetric⟩ := hkept "IF-MIB::int=1" _ rfl "IF-MIB.ifInOctets" (by decide)
    cases hdoc.symm.trans (rfl : _ = some _)
    revert hmetric
    decide +kernel

end Enrich

end Sc4snmp
