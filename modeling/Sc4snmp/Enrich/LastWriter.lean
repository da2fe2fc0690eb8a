import Sc4snmp.Enrich.OneCall

/-!
# Enrichment as a fold over what was reported

Calls of `enrich` one after the other, on a database that begins without attributes.  What
they are for is a table of the contents last reported, by address, group and field: each
call overrides in it what the call reports.

A field that is reported again with a content that compares equal is not written again, so
of the two contents the document keeps the first.

## Main definitions

* `Reports`, `Reports.record` — the table, and what a call does to it.
* `runHistory` — the calls, one after the other.
* `Represents` — **the documents hold exactly the fields of the table**.
* `CallLaw` — what one call returns, and what it leaves alone.

## Main results

* `represents_enrich` — a call keeps the documents in step with the table.
* `enrich_lastWriterWins` — **every history of calls is the fold of its reports, whatever the
  batches**.
-/

namespace Sc4snmp

namespace Enrich

open Program (run)

variable {β γ : Type} {env : EnrichEnv β γ} {db db' : EnrichDb β γ}

/-! ### Reports -/

/-- The contents last reported, by address, group and field. -/
abbrev Reports (β : Type) := String → String → String → Option β

/-- What a call reports of a field. -/
def EnrichCall.reported (call : EnrichCall β γ) (g f : String) : Option β :=
  (call.result.get? g).bind fun group => group.fields.get? f

/-- A call overrides what it reports. -/
def Reports.record (m : Reports β) (call : EnrichCall β γ) : Reports β := fun a g f =>
  if a = call.address then (call.reported g f).or (m a g f) else m a g f

/-- The table after some calls. -/
def lastReports (calls : List (EnrichCall β γ)) : Reports β :=
  calls.foldl Reports.record fun _ _ _ => none

/-- Calls one after the other: the database after them, and what they return. -/
def runHistory (env : EnrichEnv β γ) (db : EnrichDb β γ) :
    List (EnrichCall β γ) → EnrichDb β γ × List (Except PyError (Dict String (ResultGroup β γ)))
  | [] => (db, [])
  | call :: calls =>
    let (db', returned) := run (EnrichOp.apply env) (enrich env call) db
    let (db'', rest) := runHistory env db' calls
    (db'', returned :: rest)

/-- The keys of the groups of some calls. -/
def groupKeys (calls : List (EnrichCall β γ)) : Set String :=
  {g | ∃ call ∈ calls, g ∈ call.result.keys}

/-- The names of the fields of some calls. -/
def fieldNames (calls : List (EnrichCall β γ)) : Set String :=
  {f | ∃ call ∈ calls, ∃ g, (call.reported g f).isSome}

/-- The hashes tell group keys and field names apart. -/
structure HashesDistinct (calls : List (EnrichCall β γ)) : Prop where
  groups : Set.InjOn keyHash (groupKeys calls)
  fields : Set.InjOn keyHash (fieldNames calls)

/-- A pipeline stores what it is given. -/
def StoresLiterally (env : EnrichEnv β γ) : Prop := ∀ doc field, env.evaluate doc field = field

/-! ### The law -/

/-- A stored field has a name and a content, or one that compares equal. -/
def Stored.Agrees (env : EnrichEnv β γ) (cv : Stored β) (f : String) (c : β) : Prop :=
  cv.name = f ∧ (cv.content = c ∨ env.differs cv.content c = false)

/-- What is stored of a field in the document of a group. -/
def EnrichDb.stored (db : EnrichDb β γ) (a g f : String) : Option (Stored β) :=
  storedField (db.docOf a (keyHash g)) (keyHash f)

/-- The documents hold exactly the fields of a table, whose groups and fields have names in
some sets. -/
structure Represents (env : EnrichEnv β γ) (G F : Set String) (db : EnrichDb β γ) (m : Reports β) :
    Prop where
  unique : UniqueDocs db
  named : ∀ a g f, (m a g f).isSome → g ∈ G ∧ f ∈ F
  absent : ∀ a, ∀ g ∈ G, ∀ f ∈ F, m a g f = none → db.stored a g f = none
  present : ∀ a g f c, m a g f = some c → ∃ cv, db.stored a g f = some cv ∧ cv.Agrees env f c
  only : ∀ doc ∈ db.attributes, ∃ g ∈ G, doc.groupKeyHash = keyHash g ∧ doc.id = some g ∧
    ∀ k cv, doc.fields.get? k = some cv → ∃ f ∈ F, k = keyHash f

/-- What one call does, on a database that holds the fields of a table. -/
structure CallLaw (env : EnrichEnv β γ) (m : Reports β) (db : EnrichDb β γ) (call : EnrichCall β γ)
    (db' : EnrichDb β γ) (result : Dict String (ResultGroup β γ)) : Prop where
  /-- The documents of other groups and addresses are as they were. -/
  others : ∀ a h, (a = call.address → h ∉ call.result.keys.map keyHash) →
    db'.docOf a h = db.docOf a h
  /-- The groups are those of the call. -/
  keys : ∀ g, g ∈ result.keys ↔ g ∈ call.result.keys
  /-- A group with metrics has the fields of the table, overridden by its own. -/
  group : ∀ g group, call.result.get? g = some group → ∃ group', result.get? g = some group' ∧
    group'.metrics = group.metrics ∧ group'.indexes = group.indexes ∧
    ∀ f, match group.fields.get? f with
      | some c => group'.fields.get? f = some c
      | none =>
        if group.metrics.entries.isEmpty then group'.fields.get? f = none
        else match m call.address g f with
          | none => group'.fields.get? f = none
          | some c => ∃ cv : Stored β, cv.Agrees env f c ∧ group'.fields.get? f = some cv.content

/-! ### The fields of one document -/

section Fields

variable {fields : List (String × β)} {p : String × β → Bool}

/-- The fields of a group that are selected, as stages. -/
def stagesOf (p : String × β → Bool) (fields : List (String × β)) : List (String × Stored β) :=
  fields.filterMap fun e => if p e then some (keyHash e.1, ⟨e.1, e.2⟩) else none

theorem keys_stagesOf (p : String × β → Bool) (fields : List (String × β)) :
    ((stagesOf p fields).map Prod.fst).Sublist (fields.map fun e => keyHash e.1) := by
  induction fields with
  | nil => exact List.Sublist.refl _
  | cons e fields ih =>
    unfold stagesOf at ih ⊢
    rw [List.filterMap_cons, List.map_cons]
    by_cases he : p e = true
    · simp only [he, if_true, List.map_cons]
      exact ih.cons_cons _
    · simp only [he]
      exact ih.cons _

/-- A field is found under its hash if it is selected. -/
theorem lookup_stagesOf (hnodup : (fields.map fun e => keyHash e.1).Nodup) {e : String × β}
    (he : e ∈ fields) :
    (stagesOf p fields).lookup (keyHash e.1) = if p e then some ⟨e.1, e.2⟩ else none := by
  have hnodup' := hnodup.sublist (keys_stagesOf p fields)
  by_cases hp : p e = true
  · rw [if_pos hp, Dict.lookup_eq_some_iff_mem hnodup']
    exact List.mem_filterMap.mpr ⟨e, he, if_pos hp⟩
  · rw [if_neg hp, List.lookup_eq_none_iff]
    intro w hw
    obtain ⟨e', he', hw⟩ := List.mem_filterMap.mp hw
    split at hw
    · next hp' =>
      cases hw
      rw [bne_iff_ne]
      intro heq
      obtain rfl := List.inj_on_of_nodup_map hnodup he he' heq
      exact hp hp'
    · cases hw

/-- Nothing is found under other keys. -/
theorem lookup_stagesOf_of_ne {k : String} (hk : ∀ e ∈ fields, keyHash e.1 ≠ k) :
    (stagesOf p fields).lookup k = none := by
  rw [List.lookup_eq_none_iff]
  intro w hw
  obtain ⟨e, he, hw⟩ := List.mem_filterMap.mp hw
  split at hw
  · cases hw
    rw [bne_iff_ne]
    exact (hk e he).symm
  · cases hw

end Fields

theorem setFields_of_literal (doc : AttributesDoc β) {stages : List (String × Stored β)}
    (h : ∀ e ∈ stages, ∀ doc, env.evaluate doc e.2 = e.2) :
    doc.setFields env stages = { doc with fields := doc.fields.updateList stages } := by
  induction stages generalizing doc with
  | nil => rfl
  | cons e stages ih =>
    rw [List.forall_mem_cons] at h
    have hfirst : doc.setFields env (e :: stages) =
        AttributesDoc.setFields env { doc with fields := doc.fields.insert e.1 e.2 } stages := by
      show AttributesDoc.setFields env
        { doc with fields := doc.fields.insert e.1 (env.evaluate doc e.2) } stages = _
      rw [h.1]
    rw [hfirst, ih _ h.2, Dict.updateList_cons]

/-- A pipeline stores the fields of a group as it is given them. -/
def GroupLiteral (env : EnrichEnv β γ) (group : ResultGroup β γ) : Prop :=
  ∀ e ∈ group.fields.entries, ∀ doc, env.evaluate doc ⟨e.1, e.2⟩ = ⟨e.1, e.2⟩

theorem StoresLiterally.group (h : StoresLiterally env) (group : ResultGroup β γ) :
    GroupLiteral env group := fun e _ doc => h doc ⟨e.1, e.2⟩

theorem GroupLiteral.stagesOf {group : ResultGroup β γ} (h : GroupLiteral env group)
    (p : String × β → Bool) : ∀ e ∈ stagesOf p group.fields.entries, ∀ doc,
      env.evaluate doc e.2 = e.2 := by
  intro w hw doc
  obtain ⟨e, he, hw⟩ := List.mem_filterMap.mp hw
  split at hw
  · cases hw
    exact h e he doc
  · cases hw

/-- A new content against the one that is stored. -/
def mergeField (env : EnrichEnv β γ) (old : Option (Stored β)) (field : Stored β) : Stored β :=
  match old with
  | none => field
  | some cv => if cv.differs env field then field else cv

theorem agrees_mergeField (env : EnrichEnv β γ) (old : Option (Stored β)) (f : String) (c : β) :
    (mergeField env old ⟨f, c⟩).Agrees env f c := by
  unfold mergeField Stored.Agrees Stored.differs
  cases old with
  | none => exact ⟨rfl, Or.inl rfl⟩
  | some cv =>
    dsimp only
    split
    · exact ⟨rfl, Or.inl rfl⟩
    · next hsame =>
      simp only [Bool.or_eq_true, decide_eq_true_eq, not_or, not_not, Bool.not_eq_true] at hsame
      exact ⟨hsame.1, Or.inr hsame.2⟩

/-- What the document of a group has under a key after a call. -/
theorem storedField_finalDoc_eq (a key : String) {group : ResultGroup β γ}
    (hliteral : GroupLiteral env group)
    (hnodup : (group.fields.entries.map fun e => keyHash e.1).Nodup)
    (old : Option (AttributesDoc β)) (k : String) :
    storedField (finalDoc env a key group old) k =
      ((addedFields old group.fields.entries).lookup k).or
        (((modifiedFields env old group.fields.entries).lookup k).or (storedField old k)) := by
  have hget : ∀ (p : String × β → Bool) (d : Dict String (Stored β)),
      (d.updateList (stagesOf p group.fields.entries)).get? k =
        ((stagesOf p group.fields.entries).lookup k).or (d.get? k) := fun p d =>
    Dict.get?_updateList d _ (hnodup.sublist (keys_stagesOf p _)) k
  have hadded : ∀ (old : Option (AttributesDoc β)) (doc : AttributesDoc β),
      doc.setFields env (addedFields old group.fields.entries) =
        { doc with fields := doc.fields.updateList (addedFields old group.fields.entries) } :=
    fun _ doc => setFields_of_literal doc (hliteral.stagesOf _)
  have hmodified : ∀ (old : Option (AttributesDoc β)) (doc : AttributesDoc β),
      doc.setFields env (modifiedFields env old group.fields.entries) =
        { doc with
          fields := doc.fields.updateList (modifiedFields env old group.fields.entries) } :=
    fun _ doc => setFields_of_literal doc (hliteral.stagesOf _)
  -- the fields added come after the fields modified, and win
  cases old with
  | none =>
    by_cases hfields : group.fields.entries = []
    · simp [finalDoc, writtenDoc, storedField, addedFields, modifiedFields, hfields]
    · rw [modifiedFields_none]
      simp only [finalDoc, writtenDoc, hfields, if_false, storedField, Option.map_some,
        Option.bind_some, hadded]
      exact hget _ _
  | some doc =>
    simp only [finalDoc, writtenDoc, storedField, Option.map_some, Option.bind_some, hadded,
      hmodified]
    refine (hget _ _).trans ?_
    rw [modifiedFields, ← stagesOf, hget]
    rfl

/-- **The document of a group** after a call has each field of the group, and its old fields. -/
theorem storedField_finalDoc (a key : String) {group : ResultGroup β γ}
    (hliteral : GroupLiteral env group)
    (hnodup : (group.fields.entries.map fun e => keyHash e.1).Nodup)
    (old : Option (AttributesDoc β)) :
    (∀ e ∈ group.fields.entries, storedField (finalDoc env a key group old) (keyHash e.1) =
      some (mergeField env (storedField old (keyHash e.1)) ⟨e.1, e.2⟩)) ∧
    ∀ k, (∀ e ∈ group.fields.entries, keyHash e.1 ≠ k) →
      storedField (finalDoc env a key group old) k = storedField old k := by
  refine ⟨?_, ?_⟩
  · intro e he
    have hadded : (addedFields old group.fields.entries).lookup (keyHash e.1) = _ :=
      lookup_stagesOf hnodup he
    have hmodified : (modifiedFields env old group.fields.entries).lookup (keyHash e.1) = _ :=
      lookup_stagesOf hnodup he
    rw [storedField_finalDoc_eq a key hliteral hnodup, hadded, hmodified]
    cases hold : storedField old (keyHash e.1) with
    | none => simp [mergeField]
    | some cv =>
      simp only [Option.isNone_some, Bool.false_eq_true, if_false, Option.none_or, Option.any_some,
        mergeField]
      split <;> rfl
  · intro k hk
    have hadded : (addedFields old group.fields.entries).lookup k = none := lookup_stagesOf_of_ne hk
    have hmodified : (modifiedFields env old group.fields.entries).lookup k = none :=
      lookup_stagesOf_of_ne hk
    rw [storedField_finalDoc_eq a key hliteral hnodup, hadded, hmodified, Option.none_or,
      Option.none_or]

/-! ### What goes back to a group -/

/-- Fields from the database are added unless the group has them. -/
theorem get?_addFields (persisted : List (Stored β)) (fields : Dict String β) (f : String) :
    (persisted.foldl (fun fields persisted =>
      if persisted.name ∈ fields then fields
      else fields.insert persisted.name persisted.content) fields).get? f =
      (fields.get? f).or ((persisted.find? fun cv => cv.name = f).map Stored.content) := by
  induction persisted generalizing fields with
  | nil => simp
  | cons cv persisted ih =>
    rw [List.foldl_cons, ih, List.find?_cons]
    by_cases hin : cv.name ∈ fields
    · rw [if_pos hin]
      by_cases hf : cv.name = f
      · -- the group's own field comes first, whatever is stored
        obtain ⟨c, hc⟩ := Dict.mem_keys_iff.mp hin
        rw [hf] at hc
        simp [hf, hc]
      · simp [hf]
    · rw [if_neg hin]
      by_cases hf : cv.name = f
      · have hnone : fields.get? f = none := Dict.get?_eq_none_iff.mpr (hf ▸ hin)
        simp [hf, hnone]
      · simp [hf, Ne.symm hf]

variable {G F : Set String} {m : Reports β} {call : EnrichCall β γ}

theorem mem_attributes_of_docOf {a h : String} {doc : AttributesDoc β}
    (hdoc : db.docOf a h = some doc) :
    doc ∈ db.attributes ∧ doc.address = a ∧ doc.groupKeyHash = h := by
  refine ⟨List.mem_of_find?_eq_some hdoc, ?_⟩
  have hfor := List.find?_some hdoc
  simpa [AttributesDoc.isFor] using hfor

/-- A stored field is one of the table. -/
theorem Represents.of_stored (h : Represents env G F db m) {a g f : String} (hg : g ∈ G)
    (hf : f ∈ F)
    {cv : Stored β} (hcv : db.stored a g f = some cv) :
      ∃ c, m a g f = some c ∧ cv.Agrees env f c := by
  cases hm : m a g f with
  | none =>
    rw [h.absent a g hg f hf hm] at hcv
    cases hcv
  | some c =>
    obtain ⟨cv', hcv', hagrees⟩ := h.present a g f c hm
    rw [hcv] at hcv'
    cases hcv'
    exact ⟨c, rfl, hagrees⟩

/-- The document of a group has the fields of the table, each under its name. -/
theorem Represents.find? (h : Represents env G F db m) {a g : String} (hg : g ∈ G)
    {doc : AttributesDoc β} (hdoc : db.docOf a (keyHash g) = some doc) (f : String) :
    match m a g f with
    | none => (doc.fields.entries.map Prod.snd).find? (fun cv => cv.name = f) = none
    | some c => ∃ cv, cv.Agrees env f c ∧
        (doc.fields.entries.map Prod.snd).find? (fun cv => cv.name = f) = some cv := by
  have hstored : ∀ f, db.stored a g f = doc.fields.get? (keyHash f) := by
    intro f
    unfold EnrichDb.stored
    rw [hdoc]
    rfl
  -- a field that is found under its name is stored under its hash
  have hfound : ∀ cv ∈ doc.fields.entries.map Prod.snd, cv.name ∈ F ∧
      doc.fields.get? (keyHash cv.name) = some cv := by
    intro cv hcv
    obtain ⟨⟨k, cv'⟩, hentry, rfl⟩ := List.mem_map.mp hcv
    have hget := Dict.mem_entries_iff.mp hentry
    obtain ⟨hmem, -, hhash⟩ := mem_attributes_of_docOf hdoc
    obtain ⟨g', -, -, -, hfields⟩ := h.only doc hmem
    obtain ⟨f', hf', rfl⟩ := hfields k cv' hget
    obtain ⟨c, -, hagrees⟩ := h.of_stored hg hf' ((hstored f').trans hget)
    rw [hagrees.1]
    exact ⟨hf', hget⟩
  cases hm : m a g f with
  | none =>
    dsimp only
    rw [List.find?_eq_none]
    intro cv hcv hname
    obtain ⟨hF, hget⟩ := hfound cv hcv
    rw [of_decide_eq_true hname] at hF hget
    rw [← hstored, h.absent a g hg f hF hm] at hget
    cases hget
  | some c =>
    obtain ⟨cv, hcv, hagrees⟩ := h.present a g f c hm
    rw [hstored] at hcv
    refine ⟨cv, hagrees, ?_⟩
    cases hfind : (doc.fields.entries.map Prod.snd).find? fun cv => cv.name = f with
    | none =>
      have hmem : cv ∈ doc.fields.entries.map Prod.snd :=
        List.mem_map.mpr ⟨_, Dict.mem_entries_iff.mpr hcv, rfl⟩
      have hnot := List.find?_eq_none.mp hfind cv hmem
      exact absurd (decide_eq_true hagrees.1) hnot
    | some cv' =>
      obtain ⟨-, hget⟩ := hfound cv' (List.mem_of_find?_eq_some hfind)
      have hname : cv'.name = f := by simpa using List.find?_some hfind
      rw [hname, hcv] at hget
      exact hget.symm

/-! ### One call -/

/-- The groups and fields of a call have names in some sets, which their hashes tell apart. -/
structure NamesIn (G F : Set String) (call : EnrichCall β γ) : Prop where
  groups : ∀ g ∈ call.result.keys, g ∈ G
  fields : ∀ g f, (call.reported g f).isSome → f ∈ F
  injOn : Set.InjOn keyHash G ∧ Set.InjOn keyHash F

theorem NamesIn.nodup_fields (h : NamesIn G F call) {g : String} {group : ResultGroup β γ}
    (hgroup : call.result.get? g = some group) :
    (group.fields.entries.map fun e => keyHash e.1).Nodup := by
  have hmap : (group.fields.entries.map fun e => keyHash e.1) = group.fields.keys.map keyHash := by
    simp [Dict.keys, Function.comp_def]
  rw [hmap]
  refine List.Nodup.map_on (fun f hf f' hf' heq => h.injOn.2 ?_ ?_ heq) group.fields.nodup_keys
  · obtain ⟨c, hc⟩ := Dict.mem_keys_iff.mp hf
    exact h.fields g f (by simp [EnrichCall.reported, hgroup, hc])
  · obtain ⟨c, hc⟩ := Dict.mem_keys_iff.mp hf'
    exact h.fields g f' (by simp [EnrichCall.reported, hgroup, hc])

/-- The documents of some groups have the keys of their groups. -/
def IdsIn (G : Set String) (db : EnrichDb β γ) : Prop :=
  ∀ a, ∀ g ∈ G, ∀ doc, db.docOf a (keyHash g) = some doc → doc.id = some g

theorem Represents.idsIn (h : Represents env G F db m) (hinj : Set.InjOn keyHash G) :
    IdsIn G db := by
  intro a g hg doc hdoc
  obtain ⟨hmem, -, hhash⟩ := mem_attributes_of_docOf hdoc
  obtain ⟨g', hg', hhash', hid, -⟩ := h.only doc hmem
  rw [hid, hinj hg' hg (hhash'.symm.trans hhash)]

theorem IdsIn.enrichable (h : IdsIn G db) (hcall : NamesIn G F call) (hstored : UptimesOk env db)
    (huptimes : GroupsUptimeOk env (call.result.entries.map Prod.snd)) :
    Enrichable env db call where
  stored := hstored
  uptimes := huptimes
  nodup := List.Nodup.map_on
    (fun g hg g' hg' heq => hcall.injOn.1 (hcall.groups g hg) (hcall.groups g' hg') heq)
    call.result.nodup_keys
  id := fun key hkey doc hdoc => h call.address key (hcall.groups key hkey) doc hdoc

/-- The document of a group that is not in a call is left alone. -/
theorem docOf_of_notMem (hcall : NamesIn G F call) {result : Dict String (ResultGroup β γ)}
    (henriched : Enriched env call db db' result) {a g : String} (hg : g ∈ G)
    (hother : a = call.address → g ∉ call.result.keys) :
    db'.docOf a (keyHash g) = db.docOf a (keyHash g) := by
  apply henriched.others
  intro ha hmem
  obtain ⟨g', hg', heq⟩ := List.mem_map.mp hmem
  have hgg' := hcall.injOn.1 (hcall.groups g' hg') hg heq
  exact hother ha (hgg' ▸ hg')

/-- **A call keeps what is stored in step with the table.** -/
theorem stored_enrich (hliteral : StoresLiterally env) (hcall : NamesIn G F call)
    {result : Dict String (ResultGroup β γ)} (henriched : Enriched env call db db' result)
    {a g f : String} (hg : g ∈ G) (hf : f ∈ F) :
    db'.stored a g f = match (if a = call.address then call.reported g f else none) with
      | some c => some (mergeField env (db.stored a g f) ⟨f, c⟩)
      | none => db.stored a g f := by
  by_cases ha : a = call.address
  swap
  · rw [if_neg ha]
    unfold EnrichDb.stored
    rw [docOf_of_notMem hcall henriched hg fun h => absurd h ha]
  rw [if_pos ha]
  cases hgroup : call.result.get? g with
  | none =>
    have hreported : call.reported g f = none := by simp [EnrichCall.reported, hgroup]
    rw [hreported]
    unfold EnrichDb.stored
    rw [docOf_of_notMem hcall henriched hg fun _ => Dict.get?_eq_none_iff.mp hgroup]
  | some group =>
    have hnodup := hcall.nodup_fields hgroup
    have hreported : call.reported g f = group.fields.get? f := by
      simp [EnrichCall.reported, hgroup]
    have hfinal := storedField_finalDoc a g (hliteral.group group) hnodup (db.docOf a (keyHash g))
    unfold EnrichDb.stored
    rw [hreported, ha, henriched.docs g group hgroup, ← ha]
    cases hc : group.fields.get? f with
    | some c => exact hfinal.1 (f, c) (Dict.mem_entries_iff.mpr hc)
    | none =>
      refine hfinal.2 (keyHash f) ?_
      -- two field names with one hash are the same name
      intro e he heq
      have hget : group.fields.get? e.1 = some e.2 := Dict.mem_entries_iff.mp he
      have hF : e.1 ∈ F := hcall.fields g e.1 (by simp [EnrichCall.reported, hgroup, hget])
      rw [hcall.injOn.2 hF hf heq, hc] at hget
      cases hget

theorem record_eq (m : Reports β) (call : EnrichCall β γ) (a g f : String) :
    m.record call a g f =
      ((if a = call.address then call.reported g f else none).or (m a g f)) := by
  unfold Reports.record
  split <;> simp

/-- The document of a group has the id it was begun with. -/
theorem id_finalDoc {a key : String} {group : ResultGroup β γ} {old : Option (AttributesDoc β)}
    (hold : ∀ doc, old = some doc → doc.id = some key) {doc : AttributesDoc β}
    (hdoc : finalDoc env a key group old = some doc) : doc.id = some key := by
  unfold finalDoc at hdoc
  obtain ⟨written, hwritten, rfl⟩ := Option.map_eq_some_iff.mp hdoc
  rw [(setFields_frame env written _).2.2.2]
  cases old with
  | none =>
    rw [writtenDoc] at hwritten
    split at hwritten
    · cases hwritten
    · cases hwritten
      rfl
  | some doc =>
    cases hwritten
    rw [(setFields_frame env doc _).2.2.2]
    exact hold doc rfl

/-- The document of a group of a call is as it should be afterwards. -/
theorem only_enrich (hliteral : StoresLiterally env) (hcall : NamesIn G F call)
    (h : Represents env G F db m) (henrichable : Enrichable env db call)
    {result : Dict String (ResultGroup β γ)} (henriched : Enriched env call db db' result)
    {doc : AttributesDoc β} (hdoc : doc ∈ db'.attributes) :
    ∃ g ∈ G, doc.groupKeyHash = keyHash g ∧ doc.id = some g ∧
      ∀ k cv, doc.fields.get? k = some cv → ∃ f ∈ F, k = keyHash f := by
  have hfound := (henriched.unique h.unique).docOf hdoc
  by_cases hmem : doc.address = call.address ∧ doc.groupKeyHash ∈ call.result.keys.map keyHash
  swap
  · rw [henriched.others _ _ fun ha hhash => hmem ⟨ha, hhash⟩] at hfound
    exact h.only doc (mem_attributes_of_docOf hfound).1
  obtain ⟨ha, hhash⟩ := hmem
  obtain ⟨g, hg, hhash⟩ := List.mem_map.mp hhash
  obtain ⟨group, hgroup⟩ := Dict.mem_keys_iff.mp hg
  have hG := hcall.groups g hg
  rw [ha, ← hhash, henriched.docs g group hgroup] at hfound
  refine ⟨g, hG, hhash.symm, ?_, ?_⟩
  · exact id_finalDoc (henrichable.id g hg) hfound
  · intro k cv hcv
    have hstored : storedField (finalDoc env call.address g group
        (db.docOf call.address (keyHash g))) k = some cv := by
      rw [hfound]
      exact hcv
    -- the field comes from the call, or was there before
    by_cases hk : ∃ e ∈ group.fields.entries, keyHash e.1 = k
    · obtain ⟨e, he, rfl⟩ := hk
      have hget : group.fields.get? e.1 = some e.2 := Dict.mem_entries_iff.mp he
      exact ⟨e.1, hcall.fields g e.1 (by simp [EnrichCall.reported, hgroup, hget]), rfl⟩
    · rw [(storedField_finalDoc call.address g (hliteral.group group)
      (hcall.nodup_fields hgroup) _).2 k
        fun e he heq => hk ⟨e, he, heq⟩] at hstored
      obtain ⟨old, hold, hget⟩ := Option.bind_eq_some_iff.mp hstored
      obtain ⟨g', -, -, -, hfields⟩ := h.only old (mem_attributes_of_docOf hold).1
      exact hfields k cv hget

/-- **A call keeps the documents in step with the table.** -/
theorem represents_enrich (hliteral : StoresLiterally env) (hcall : NamesIn G F call)
    (h : Represents env G F db m) (henrichable : Enrichable env db call)
    {result : Dict String (ResultGroup β γ)} (henriched : Enriched env call db db' result) :
    Represents env G F db' (m.record call) where
  unique := henriched.unique h.unique
  named := fun a g f hsome => by
    rw [record_eq] at hsome
    split at hsome
    · cases hreported : call.reported g f with
      | some c =>
        obtain ⟨group, hgroup, -⟩ := Option.bind_eq_some_iff.mp hreported
        exact ⟨hcall.groups g (Dict.mem_keys_iff.mpr ⟨group, hgroup⟩),
          hcall.fields g f (by simp [hreported])⟩
      | none =>
        rw [hreported, Option.none_or] at hsome
        exact h.named a g f hsome
    · rw [Option.none_or] at hsome
      exact h.named a g f hsome
  absent := fun a g hg f hf hnone => by
    rw [record_eq, Option.or_eq_none_iff] at hnone
    rw [stored_enrich hliteral hcall henriched hg hf, hnone.1]
    exact h.absent a g hg f hf hnone.2
  present := fun a g f c hsome => by
    rw [record_eq] at hsome
    cases hnew : (if a = call.address then call.reported g f else none) with
    | some c' =>
      rw [hnew, Option.some_or] at hsome
      cases hsome
      split at hnew
      · obtain ⟨group, hgroup, -⟩ := Option.bind_eq_some_iff.mp hnew
        have hg := hcall.groups g (Dict.mem_keys_iff.mpr ⟨group, hgroup⟩)
        have hf := hcall.fields g f (by simp [hnew])
        refine ⟨_, ?_, agrees_mergeField env (db.stored a g f) f c⟩
        rw [stored_enrich hliteral hcall henriched hg hf]
        simp_all
      · cases hnew
    | none =>
      rw [hnew, Option.none_or] at hsome
      obtain ⟨hg, hf⟩ := h.named a g f (by simp [hsome])
      obtain ⟨cv, hcv, hagrees⟩ := h.present a g f c hsome
      refine ⟨cv, ?_, hagrees⟩
      rw [stored_enrich hliteral hcall henriched hg hf, hnew]
      exact hcv
  only := fun doc hdoc => only_enrich hliteral hcall h henrichable henriched hdoc

/-- What a call returns, and what it leaves alone. -/
theorem callLaw_enrich (hcall : NamesIn G F call) (h : Represents env G F db m)
    {result : Dict String (ResultGroup β γ)} (henriched : Enriched env call db db' result) :
    CallLaw env m db call db' result where
  others := henriched.others
  keys := fun g => by
    rw [Dict.mem_keys_iff, Dict.mem_keys_iff, henriched.result]
    simp
  group := fun g group hgroup => by
    have hg := hcall.groups g (Dict.mem_keys_iff.mpr ⟨group, hgroup⟩)
    refine ⟨_, by rw [henriched.result, hgroup]; rfl, ?_⟩
    cases hdoc : db.docOf call.address (keyHash g) with
    | none =>
      refine ⟨rfl, rfl, fun f => ?_⟩
      cases hf : group.fields.get? f with
      | some c => exact hf
      | none =>
        dsimp only
        split
        · exact hf
        · -- nothing is stored for the group
          cases hm : m call.address g f with
          | none => exact hf
          | some c =>
            obtain ⟨cv, hcv, -⟩ := h.present call.address g f c hm
            rw [EnrichDb.stored, hdoc] at hcv
            cases hcv
    | some doc =>
      unfold returnedGroup enrichMetricWithFieldsFromDb
      by_cases hmetrics : group.metrics.entries.isEmpty = true
      · simp only [hmetrics, if_true]
        refine ⟨trivial, trivial, fun f => ?_⟩
        cases hf : group.fields.get? f <;> rfl
      · simp only [hmetrics, Bool.false_eq_true, if_false]
        refine ⟨trivial, trivial, fun f => ?_⟩
        rw [get?_addFields]
        cases hf : group.fields.get? f with
        | some c => rfl
        | none =>
          have hfind := h.find? hg hdoc f
          cases hm : m call.address g f with
          | none =>
            rw [hm] at hfind
            simp only [hfind]
            rfl
          | some c =>
            rw [hm] at hfind
            obtain ⟨cv, hagrees, hfind⟩ := hfind
            exact ⟨cv, hagrees, by rw [hfind]; rfl⟩

/-! ### Every history -/

/-- The calls report uptimes that are numbers. -/
def UptimesReported (env : EnrichEnv β γ) (calls : List (EnrichCall β γ)) : Prop :=
  ∀ call ∈ calls, GroupsUptimeOk env (call.result.entries.map Prod.snd)

theorem runHistory_withThreshold (threshold : ℕ+) (db : EnrichDb β γ)
    (calls : List (EnrichCall β γ)) :
    runHistory (env.withThreshold threshold) db calls = runHistory env db calls := by
  induction calls generalizing db with
  | nil => rfl
  | cons call calls ih =>
    rw [runHistory, runHistory]
    dsimp only
    rw [run_enrich_withThreshold, ih]

/-- The calls of a history keep the documents in step with the table. -/
theorem represents_runHistory (hliteral : StoresLiterally env) {calls : List (EnrichCall β γ)}
    (hcalls : ∀ call ∈ calls, NamesIn G F call) (huptimes : UptimesReported env calls)
    (h : Represents env G F db m) (hstored : UptimesOk env db) :
    Represents env G F (runHistory env db calls).1 (calls.foldl Reports.record m) ∧
      UptimesOk env (runHistory env db calls).1 := by
  induction calls generalizing db m with
  | nil => exact ⟨h, hstored⟩
  | cons call calls ih =>
    unfold UptimesReported at huptimes
    rw [List.forall_mem_cons] at hcalls huptimes
    have henrichable := (h.idsIn hcalls.1.injOn.1).enrichable hcalls.1 hstored huptimes.1
    obtain ⟨db', result, hrun, henriched⟩ := enriched_enrich henrichable
    have hnext := represents_enrich hliteral hcalls.1 h henrichable henriched
    rw [runHistory, hrun, List.foldl_cons]
    exact ih hcalls.2 huptimes.2 hnext henriched.uptimes

theorem represents_empty (hattributes : db.attributes = []) :
    Represents env G F db fun _ _ _ => none where
  unique := by simp [UniqueDocs, hattributes]
  named := fun _ _ _ h => by simp at h
  absent := fun a g _ f _ _ => by
    simp [EnrichDb.stored, storedField, EnrichDb.docOf, hattributes]
  present := fun _ _ _ _ h => by simp at h
  only := fun doc hdoc => by simp [hattributes] at hdoc

/-- The calls of a history have their names among those of the history. -/
theorem namesIn_of_mem {calls : List (EnrichCall β γ)} (hdistinct : HashesDistinct calls)
    (hcall : call ∈ calls) : NamesIn (groupKeys calls) (fieldNames calls) call where
  groups := fun _ hg => ⟨call, hcall, hg⟩
  fields := fun g _ hf => ⟨call, hcall, g, hf⟩
  injOn := ⟨hdistinct.groups, hdistinct.fields⟩

/-- **Every history of calls is the fold of its reports, whatever the batches.** -/
theorem enrich_lastWriterWins (hliteral : StoresLiterally env) (hattributes : db.attributes = [])
    (hstored : UptimesOk env db) {calls : List (EnrichCall β γ)} (hdistinct : HashesDistinct calls)
    (huptimes : UptimesReported env calls) :
    Represents env (groupKeys calls) (fieldNames calls) (runHistory env db calls).1
        (lastReports calls) ∧
      (∀ before call after, calls = before ++ call :: after → ∃ db' result,
        run (EnrichOp.apply env) (enrich env call) (runHistory env db before).1 =
          (db', .ok result) ∧
        CallLaw env (lastReports before) (runHistory env db before).1 call db' result) ∧
      ∀ threshold, runHistory (env.withThreshold threshold) db calls = runHistory env db calls := by
  have hnames : ∀ call ∈ calls, NamesIn (groupKeys calls) (fieldNames calls) call :=
    fun call hcall => namesIn_of_mem hdistinct hcall
  refine ⟨?_, ?_, ?_⟩
  · exact (represents_runHistory hliteral hnames huptimes (represents_empty hattributes) hstored).1
  · intro before call after hcalls
    have hmem : ∀ call' ∈ before, call' ∈ calls := fun call' h => by simp [hcalls, h]
    have hcall : call ∈ calls := by simp [hcalls]
    obtain ⟨hbefore, huptime⟩ := represents_runHistory hliteral
      (fun call' h => hnames call' (hmem call' h)) (fun call' h => huptimes call' (hmem call' h))
      (represents_empty hattributes) hstored
    obtain ⟨db', result, hrun, henriched⟩ := enriched_enrich
      ((hbefore.idsIn (hnames call hcall).injOn.1).enrichable (hnames call hcall) huptime
        (huptimes call hcall))
    exact ⟨db', result, hrun, callLaw_enrich (hnames call hcall) hbefore henriched⟩
  · intro threshold
    exact runHistory_withThreshold threshold db calls

/-- A Mongo that stores literally, with contents that compare as texts. -/
def literalEnv : EnrichEnv String ℤ where
  differs := fun c c' => c ≠ c'
  uptime := .ok
  threshold := ⟨1, Nat.one_pos⟩
  evaluate := fun _ field => field
  evaluateState := fun _ field => field
  bulkOrder := id
  bulkOrder_perm := fun _ => List.Perm.refl _

/-- A poll of one interface. -/
def interfacePoll (descr : String) : EnrichCall String ℤ where
  address := "10.0.0.1"
  result := Dict.ofList [("IF-MIB::int=1",
    ⟨Dict.ofList [("IF-MIB.ifDescr", descr)], Dict.ofList [(sysUpTimeField, 5)], [.int 1]⟩)]

/-- Of two descriptions the later one is stored. -/
theorem enrich_lastWriterWins_twice : ∃ cv,
    (runHistory literalEnv ⟨Dict.empty, [], []⟩
      [interfacePoll "eth0", interfacePoll "eth1"]).1.stored
      "10.0.0.1" "IF-MIB::int=1" "IF-MIB.ifDescr" = some cv ∧ cv.content = "eth1" := by
  have hkeys : ∀ descr, (interfacePoll descr).result.keys = ["IF-MIB::int=1"] := fun _ => rfl
  have hgroups : groupKeys [interfacePoll "eth0", interfacePoll "eth1"] ⊆ {"IF-MIB::int=1"} := by
    intro g hg
    obtain ⟨call, hcall, hg⟩ := hg
    simp only [List.mem_cons, List.not_mem_nil, or_false] at hcall
    rcases hcall with rfl | rfl <;> simpa [hkeys] using hg
  have hfields : fieldNames [interfacePoll "eth0", interfacePoll "eth1"] ⊆ {"IF-MIB.ifDescr"} := by
    intro f hf
    obtain ⟨call, hcall, g, hf⟩ := hf
    obtain ⟨c, hc⟩ := Option.isSome_iff_exists.mp hf
    obtain ⟨group, hgroup, hc⟩ := Option.bind_eq_some_iff.mp hc
    have hgroup := Dict.mem_entries_iff.mpr hgroup
    have hc := Dict.mem_keys_iff.mpr ⟨c, hc⟩
    simp only [List.mem_cons, List.not_mem_nil, or_false] at hcall
    rcases hcall with rfl | rfl <;>
    · obtain ⟨rfl, rfl⟩ := Prod.mk.inj (List.mem_singleton.mp hgroup)
      exact List.mem_singleton.mp hc
  have hlaw := @enrich_lastWriterWins String ℤ literalEnv ⟨Dict.empty, [], []⟩ (fun _ _ => rfl) rfl
    (fun _ metric _ => ⟨metric, rfl⟩) [interfacePoll "eth0", interfacePoll "eth1"]
    ⟨(Set.injOn_singleton _ _).mono hgroups, (Set.injOn_singleton _ _).mono hfields⟩
    (fun _ _ _ _ metric _ => ⟨metric, rfl⟩)
  obtain ⟨cv, hcv, -, hcontent⟩ :=
    hlaw.1.present "10.0.0.1" "IF-MIB::int=1" "IF-MIB.ifDescr" "eth1" rfl
  refine ⟨cv, hcv, ?_⟩
  simpa [literalEnv] using hcontent

end Enrich

end Sc4snmp
