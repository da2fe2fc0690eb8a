import Sc4snmp.Enrich.LastWriter
import Sc4snmp.Enrich.Operations

/-!
# Texts that Mongo evaluates

A stage of a pipeline is an expression: a text in it that begins with a dollar sign is not
stored, but evaluated as a path into the document or as a variable.  The texts of the fields
come from the device, and go into stages as they are.

## Main definitions

* `Evaluates` — what Mongo makes of the texts in a stage.
* `Clean` — no text in the database begins with a dollar sign.
* `HeldLiterally` — after a call, the texts it reports are in the database.

## Main results

* `clean_runHistory` — no call ever brings such a text into the database.
* `heldLiterally_iff` — **a call has its texts stored exactly when none of them begins with
  a dollar sign**.
-/

namespace Sc4snmp

namespace Enrich

open Program (run Performs)

variable {β γ : Type} {env : EnrichEnv β γ} {text : β → Option String} {db db' : EnrichDb β γ}
  {call : EnrichCall β γ} {a h k : String}

/-! ### Expressions -/

/-- A text that is an expression in a stage. -/
def isExpression (s : String) : Bool := Text.startsWith s "$"

/-- A hash begins with a dollar sign if its key does. -/
theorem isExpression_keyHash (key : String) : isExpression (keyHash key) = isExpression key := by
  unfold isExpression keyHash Text.startsWith Text.replaceChar
  simp only [String.toList_ofList]
  cases key.toList with
  | nil => rfl
  | cons c cs =>
    rw [List.map_cons]
    by_cases hc : c = '.'
    · subst hc
      rfl
    · rw [if_neg hc]
      rfl

/-- The texts of some fields. -/
def textsOf (text : β → Option String) (fields : Dict String (Stored β)) : Set String :=
  {t | ∃ k cv, fields.get? k = some cv ∧ text cv.content = some t}

/-- No text in a document begins with a dollar sign. -/
structure AttributesDoc.Clean (text : β → Option String) (doc : AttributesDoc β) : Prop where
  address : isExpression doc.address = false
  hash : isExpression doc.groupKeyHash = false
  id : ∀ id, doc.id = some id → isExpression id = false
  fields : ∀ t ∈ textsOf text doc.fields, isExpression t = false

/-- No text in the database begins with a dollar sign. -/
structure Clean (text : β → Option String) (db : EnrichDb β γ) : Prop where
  docs : ∀ doc ∈ db.attributes, doc.Clean text
  state : ∀ address, ∀ t ∈ textsOf text (db.target address).state, isExpression t = false

/-- How Mongo and the code treat the text of a content. -/
structure Evaluates (env : EnrichEnv β γ) (text : β → Option String) : Prop where
  /-- Other contents are stored as they are. -/
  literal : ∀ doc field, (∀ s, text field.content = some s → isExpression s = false) →
    env.evaluate doc field = field
  literalState : ∀ doc field, (∀ s, text field.content = some s → isExpression s = false) →
    env.evaluateState doc field = field
  /-- A path finds what is in the document, and no variable is a text with a dollar sign. -/
  path : ∀ doc : AttributesDoc β, doc.Clean text → ∀ field s,
    text (env.evaluate doc field).content = some s → isExpression s = false
  pathState : ∀ doc : TargetDoc β γ, (∀ t ∈ textsOf text doc.state, isExpression t = false) →
    ∀ field s, text (env.evaluateState doc field).content = some s → isExpression s = false
  /-- Contents that compare equal have one text. -/
  equal : ∀ c c', env.differs c c' = false → text c = text c'

/-! ### What a call brings into the database -/

theorem textsOf_insert {fields : Dict String (Stored β)} {cv : Stored β} {t : String}
    (ht : t ∈ textsOf text (fields.insert k cv)) :
    text cv.content = some t ∨ t ∈ textsOf text fields := by
  obtain ⟨j, cv', hcv', ht⟩ := ht
  rw [Dict.get?_insert] at hcv'
  split at hcv'
  · cases hcv'
    exact Or.inl ht
  · exact Or.inr ⟨j, cv', hcv', ht⟩

theorem textsOf_empty : textsOf text (Dict.empty : Dict String (Stored β)) = ∅ := by
  ext t
  simp [textsOf]

/-- A document that is begun has no texts but its names. -/
theorem clean_begun {indexes : Option (List IndexValue)} {id : Option String}
    (ha : isExpression a = false) (hh : isExpression h = false)
    (hid : ∀ id', id = some id' → isExpression id' = false) :
    AttributesDoc.Clean text ⟨a, h, indexes, id, Dict.empty⟩ :=
  ⟨ha, hh, hid, fun t ht => by rw [textsOf_empty] at ht; cases ht⟩

/-- Stages bring no text with a dollar sign into a document. -/
theorem clean_setFields (hmongo : Evaluates env text) {doc : AttributesDoc β}
    (hdoc : doc.Clean text)
    (stages : List (String × Stored β)) : (doc.setFields env stages).Clean text := by
  induction stages generalizing doc with
  | nil => exact hdoc
  | cons e stages ih =>
    have hfirst : AttributesDoc.Clean text
        { doc with fields := doc.fields.insert e.1 (env.evaluate doc e.2) } := by
      refine ⟨hdoc.address, hdoc.hash, hdoc.id, fun t ht => ?_⟩
      rcases textsOf_insert ht with ht | ht
      · exact hmongo.path doc hdoc e.2 t ht
      · exact hdoc.fields t ht
    exact ih hfirst

theorem clean_setState (hmongo : Evaluates env text) {doc : TargetDoc β γ}
    (hdoc : ∀ t ∈ textsOf text doc.state, isExpression t = false)
    (stages : List (String × Stored β)) :
    ∀ t ∈ textsOf text (doc.setState env stages).state, isExpression t = false := by
  induction stages generalizing doc with
  | nil => exact hdoc
  | cons e stages ih =>
    have hfirst : ∀ t ∈ textsOf text
        ({ doc with state := doc.state.insert e.1 (env.evaluateState doc e.2) } :
          TargetDoc β γ).state, isExpression t = false := by
      intro t ht
      rcases textsOf_insert ht with ht | ht
      · exact hmongo.pathState doc hdoc e.2 t ht
      · exact hdoc t ht
    exact ih hfirst

theorem clean_updateFirst {p : AttributesDoc β → Bool} {f : AttributesDoc β → AttributesDoc β}
    (hf : ∀ doc, doc.Clean text → (f doc).Clean text) {docs : List (AttributesDoc β)}
    (hdocs : ∀ doc ∈ docs, doc.Clean text) : ∀ doc ∈ updateFirst p f docs, doc.Clean text := by
  induction docs with
  | nil => exact hdocs
  | cons x docs ih =>
    rw [List.forall_mem_cons] at hdocs
    unfold updateFirst
    split
    · exact List.forall_mem_cons.mpr ⟨hf x hdocs.1, hdocs.2⟩
    · exact List.forall_mem_cons.mpr ⟨hdocs.1, ih hdocs.2⟩

/-- The names an operation writes into a document are no expressions. -/
def NamesPlain : EnrichOp β γ → Prop
  | .initialise address hash _ id =>
    isExpression address = false ∧ isExpression hash = false ∧ isExpression id = false
  | .setFields address hash _ _ => isExpression address = false ∧ isExpression hash = false
  | _ => True

/-- **No operation brings a text with a dollar sign into the database.** -/
theorem clean_apply (hmongo : Evaluates env text) (op : EnrichOp β γ) (db : EnrichDb β γ)
    (hop : NamesPlain op) (hdb : Clean text db) : Clean text (op.apply env db) := by
  cases op with
  | findTarget | triggerWalk | findAttributes => exact ⟨hdb.docs, hdb.state⟩
  | setUpTime address metric =>
    refine ⟨hdb.docs, fun a t ht => ?_⟩
    simp only [EnrichOp.apply, target_insert] at ht
    split at ht
    · exact hdb.state address t ht
    · exact hdb.state a t ht
  | setState address stages =>
    refine ⟨hdb.docs, fun a t ht => ?_⟩
    simp only [EnrichOp.apply, target_insert] at ht
    split at ht
    · exact clean_setState hmongo (hdb.state address) stages t ht
    · exact hdb.state a t ht
  -- a document that begins has its keys for texts, and no fields yet
  | initialise address hash indexes id =>
    obtain ⟨haddress, hhash, hid⟩ := hop
    have hid : ∀ id', some id = some id' → isExpression id' = false := by
      intro id' hid'
      cases hid'
      exact hid
    have hstate : (db.initialise address hash indexes id).targets = db.targets := by
      unfold EnrichDb.initialise
      dsimp only
      split <;> rfl
    refine ⟨?_, ?_⟩
    · show ∀ doc ∈ (db.initialise address hash indexes id).attributes, doc.Clean text
      unfold EnrichDb.initialise
      dsimp only
      split
      · exact clean_updateFirst (fun doc hdoc => clean_begun hdoc.address hdoc.hash hid) hdb.docs
      · rw [List.forall_mem_append]
        exact ⟨hdb.docs, List.forall_mem_singleton.mpr (clean_begun haddress hhash hid)⟩
    · intro a
      show ∀ t ∈ textsOf text ((db.initialise address hash indexes id).target a).state, _
      unfold EnrichDb.target
      rw [hstate]
      exact hdb.state a
  | setFields address hash stages upsert =>
    obtain ⟨haddress, hhash⟩ := hop
    have hstate : (db.setFields env address hash stages upsert).targets = db.targets := by
      unfold EnrichDb.setFields
      split
      · rfl
      · split <;> rfl
    refine ⟨?_, ?_⟩
    · show ∀ doc ∈ (db.setFields env address hash stages upsert).attributes, doc.Clean text
      unfold EnrichDb.setFields
      split
      · exact clean_updateFirst (fun doc hdoc => clean_setFields hmongo hdoc stages) hdb.docs
      · split
        · rw [List.forall_mem_append]
          exact ⟨hdb.docs, List.forall_mem_singleton.mpr (clean_setFields hmongo
            (clean_begun haddress hhash fun _ h => by cases h) stages)⟩
        · exact hdb.docs
    · intro a
      show ∀ t ∈ textsOf text ((db.setFields env address hash stages upsert).target a).state, _
      unfold EnrichDb.target
      rw [hstate]
      exact hdb.state a

/-! ### The operations of a call -/

/-- The address and the group keys of a call are no expressions. -/
structure CallNamesPlain (call : EnrichCall β γ) : Prop where
  address : isExpression call.address = false
  keys : ∀ key ∈ call.result.keys, isExpression key = false

/-- The names a call writes into documents are no expressions. -/
theorem admits_namesPlain (hcall : CallNamesPlain call) :
    Admits (NamesPlain : EnrichOp β γ → Prop) call.address {key | key ∈ call.result.keys} where
  findAttributes := trivial
  setState _ := trivial
  initialise key hkey _ :=
    ⟨hcall.address, (isExpression_keyHash key).trans (hcall.keys key hkey), hcall.keys key hkey⟩
  setFields key hkey _ _ :=
    ⟨hcall.address, (isExpression_keyHash key).trans (hcall.keys key hkey)⟩

theorem performs_enrich (env : EnrichEnv β γ) (hcall : CallNamesPlain call) :
    Performs NamesPlain (fun _ => True) (enrich env call) := by
  rw [enrich_eq]
  refine Program.performs_perform_bind.mpr ⟨trivial, fun _ => ?_⟩
  apply Performs.bind _ (performs_checkRestart env (fun _ => trivial) trivial _ _)
  intro checked _
  cases checked with
  | error err => trivial
  | ok => exact performs_afterCheck env call (admits_namesPlain hcall)

theorem clean_enrich (hmongo : Evaluates env text) (hcall : CallNamesPlain call)
    (hdb : Clean text db) : Clean text (run (EnrichOp.apply env) (enrich env call) db).1 :=
  ((performs_enrich env hcall).preserves (clean_apply hmongo) hdb).1

/-- **No call ever brings a text with a dollar sign into the database.** -/
theorem clean_runHistory (hmongo : Evaluates env text) {calls : List (EnrichCall β γ)}
    (hcalls : ∀ call ∈ calls, CallNamesPlain call) (hdb : Clean text db) :
    Clean text (runHistory env db calls).1 := by
  induction calls generalizing db with
  | nil => exact hdb
  | cons call calls ih =>
    rw [List.forall_mem_cons] at hcalls
    exact ih hcalls.2 (clean_enrich hmongo hcalls.1 hdb)

/-! ### The documents of a history -/

variable {G F : Set String}

theorem idsIn_enrich (h : IdsIn G db) (hcall : NamesIn G F call)
    {result : Dict String (ResultGroup β γ)} (henriched : Enriched env call db db' result) :
    IdsIn G db' := by
  intro a g hg doc hdoc
  by_cases hmem : a = call.address ∧ g ∈ call.result.keys
  · obtain ⟨rfl, hkey⟩ := hmem
    obtain ⟨group, hgroup⟩ := Dict.mem_keys_iff.mp hkey
    rw [henriched.docs g group hgroup] at hdoc
    exact id_finalDoc (h call.address g hg) hdoc
  · rw [docOf_of_notMem hcall henriched hg fun ha hkey => hmem ⟨ha, hkey⟩] at hdoc
    exact h a g hg doc hdoc

theorem idsIn_runHistory {calls : List (EnrichCall β γ)} (hcalls : ∀ call ∈ calls, NamesIn G F call)
    (huptimes : UptimesReported env calls) (h : IdsIn G db) (hstored : UptimesOk env db) :
    IdsIn G (runHistory env db calls).1 ∧ UptimesOk env (runHistory env db calls).1 := by
  induction calls generalizing db with
  | nil => exact ⟨h, hstored⟩
  | cons call calls ih =>
    unfold UptimesReported at huptimes
    rw [List.forall_mem_cons] at hcalls huptimes
    obtain ⟨db', result, hrun, henriched⟩ :=
      enriched_enrich (h.enrichable hcalls.1 hstored huptimes.1)
    rw [runHistory, hrun]
    exact ih hcalls.2 huptimes.2 (idsIn_enrich h hcalls.1 henriched) henriched.uptimes

/-! ### The texts of a call -/

/-- Something is stored with a text. -/
def HasText (text : β → Option String) (cv : Option (Stored β)) (s : String) : Prop :=
  ∃ cv', cv = some cv' ∧ text cv'.content = some s

/-- A call reports a text for a field of a group. -/
def EnrichCall.ReportsText (text : β → Option String) (call : EnrichCall β γ) (g f s : String) :
    Prop :=
  ∃ c, call.reported g f = some c ∧ text c = some s

/-- After a call the texts it reports are in the documents of their groups, and those of the
tracked fields in the document of the target. -/
def HeldLiterally (text : β → Option String) (call : EnrichCall β γ) (db : EnrichDb β γ) : Prop :=
  ∀ g f s, call.ReportsText text g f s → HasText text (db.stored call.address g f) s ∧
    (f ∈ trackedFields → HasText text ((db.target call.address).state.get? (keyHash f)) s)

/-- No text of a call begins with a dollar sign. -/
def PlainTexts (text : β → Option String) (call : EnrichCall β γ) : Prop :=
  ∀ g f s, call.ReportsText text g f s → isExpression s = false

/-- The last content a call reports for a tracked field, whatever the group. -/
def lastTracked (call : EnrichCall β γ) (f : String) : Option (Stored β) :=
  (trackedOf call.result call.result.keys).reverse.lookup (keyHash f)

/-- The groups of a call that report a text for a tracked field leave that text to it. -/
def TrackedOnce (text : β → Option String) (call : EnrichCall β γ) : Prop :=
  ∀ g f s, call.ReportsText text g f s → f ∈ trackedFields → HasText text (lastTracked call f) s

/-- In a database without such texts a text with a dollar sign is not found. -/
theorem not_hasText_of_clean {fields : Dict String (Stored β)}
    (hfields : ∀ t ∈ textsOf text fields, isExpression t = false) {s : String}
    (h : HasText text (fields.get? k) s) : isExpression s = false := by
  obtain ⟨cv, hcv, hs⟩ := h
  exact hfields s ⟨k, cv, hcv, hs⟩

theorem plainTexts_of_heldLiterally (hdb : Clean text db) (h : HeldLiterally text call db) :
    PlainTexts text call := by
  intro g f s hs
  obtain ⟨cv, hcv, hcontent⟩ := (h g f s hs).1
  obtain ⟨doc, hdoc, hget⟩ := Option.bind_eq_some_iff.mp hcv
  exact not_hasText_of_clean (hdb.docs doc (mem_attributes_of_docOf hdoc).1).fields
    ⟨cv, hget, hcontent⟩

/-- The groups of a call without such texts are stored literally. -/
theorem PlainTexts.groupLiteral (hmongo : Evaluates env text) (h : PlainTexts text call)
    {g : String} {group : ResultGroup β γ} (hgroup : call.result.get? g = some group) :
    GroupLiteral env group := by
  intro e he doc
  apply hmongo.literal
  intro s hs
  refine h g e.1 s ⟨e.2, ?_, hs⟩
  unfold EnrichCall.reported
  rw [hgroup]
  exact Dict.mem_entries_iff.mp he

theorem text_mergeField (hmongo : Evaluates env text) (old : Option (Stored β)) (f : String)
    (c : β) :
    text (mergeField env old ⟨f, c⟩).content = text c := by
  obtain ⟨-, hcontent | hcontent⟩ := agrees_mergeField env old f c
  · rw [hcontent]
  · exact hmongo.equal _ _ hcontent

/-- **The document of a group holds the texts of the group.** -/
theorem hasText_stored (hmongo : Evaluates env text) (hplain : PlainTexts text call)
    (hcall : NamesIn G F call) {result : Dict String (ResultGroup β γ)}
    (henriched : Enriched env call db db' result) {g f s : String}
    (hs : call.ReportsText text g f s) : HasText text (db'.stored call.address g f) s := by
  obtain ⟨c, hc, hs⟩ := hs
  obtain ⟨group, hgroup, hget⟩ := Option.bind_eq_some_iff.mp hc
  have hfinal := (storedField_finalDoc call.address g
    (hplain.groupLiteral hmongo hgroup) (hcall.nodup_fields hgroup)
    (db.docOf call.address (keyHash g))).1 (f, c) (Dict.mem_entries_iff.mpr hget)
  refine ⟨mergeField env (db.stored call.address g f) ⟨f, c⟩, ?_,
    (text_mergeField hmongo _ f c).trans hs⟩
  unfold EnrichDb.stored
  rw [henriched.docs g group hgroup]
  exact hfinal

theorem setState_of_literal (doc : TargetDoc β γ) {stages : List (String × Stored β)}
    (h : ∀ e ∈ stages, ∀ doc, env.evaluateState doc e.2 = e.2) :
    doc.setState env stages = { doc with state := doc.state.updateList stages } := by
  induction stages generalizing doc with
  | nil => rfl
  | cons e stages ih =>
    rw [List.forall_mem_cons] at h
    have hfirst : doc.setState env (e :: stages) =
        TargetDoc.setState env { doc with state := doc.state.insert e.1 e.2 } stages := by
      show TargetDoc.setState env
        { doc with state := doc.state.insert e.1 (env.evaluateState doc e.2) } stages = _
      rw [h.1]
    rw [hfirst, ih _ h.2, Dict.updateList_cons]

/-- The updates of the target are the tracked fields of the groups. -/
theorem mem_trackedOf {w : String × Stored β} :
    w ∈ trackedOf call.result call.result.keys ↔
      ∃ g f c, call.reported g f = some c ∧ f ∈ trackedFields ∧ w = (keyHash f, ⟨f, c⟩) := by
  unfold trackedOf
  rw [List.mem_flatMap]
  constructor
  · rintro ⟨g, -, hw⟩
    cases hgroup : call.result.get? g with
    | none =>
      rw [hgroup] at hw
      cases hw
    | some group =>
      rw [hgroup] at hw
      obtain ⟨e, he, hw⟩ := List.mem_filterMap.mp hw
      split at hw
      · next htracked =>
        cases hw
        refine ⟨g, e.1, e.2, ?_, htracked, rfl⟩
        unfold EnrichCall.reported
        rw [hgroup]
        exact Dict.mem_entries_iff.mp he
      · cases hw
  · rintro ⟨g, f, c, hc, htracked, rfl⟩
    obtain ⟨group, hgroup, hget⟩ := Option.bind_eq_some_iff.mp hc
    refine ⟨g, Dict.mem_keys_iff.mpr ⟨group, hgroup⟩, ?_⟩
    rw [hgroup]
    exact List.mem_filterMap.mpr ⟨(f, c), Dict.mem_entries_iff.mpr hget, if_pos htracked⟩

/-- **The document of the target holds what was reported last.** -/
theorem state_eq_lastTracked (hmongo : Evaluates env text) (hplain : PlainTexts text call)
    {result : Dict String (ResultGroup β γ)} (henriched : Enriched env call db db' result)
    {g f s : String} (hs : call.ReportsText text g f s) (htracked : f ∈ trackedFields) :
    (db'.target call.address).state.get? (keyHash f) = lastTracked call f := by
  obtain ⟨c, hc, -⟩ := hs
  obtain ⟨doc, -, htarget⟩ := henriched.target
  have hliteral : ∀ w ∈ trackedOf call.result call.result.keys, ∀ doc,
      env.evaluateState doc w.2 = w.2 := by
    intro w hw doc
    obtain ⟨g', f', c', hc', -, rfl⟩ := mem_trackedOf.mp hw
    exact hmongo.literalState doc _ fun t ht => hplain g' f' t ⟨c', hc', ht⟩
  rw [htarget, setState_of_literal doc hliteral]
  show (doc.state.updateList _).get? _ = _
  rw [Dict.get?_updateList_eq_last]
  -- the field itself is among the updates
  have hmem := mem_trackedOf.mpr ⟨g, f, c, hc, htracked, rfl⟩
  cases hlast : lastTracked call f with
  | some cv =>
    unfold lastTracked at hlast
    rw [hlast]
    rfl
  | none =>
    have hne := List.lookup_eq_none_iff.mp hlast _ (List.mem_reverse.mpr hmem)
    simp at hne

/-- **A call has its texts stored exactly when none of them begins with a dollar sign**, and a
tracked field is left with each text reported for it.  Whatever the names, a call whose texts
are all stored has none with a dollar sign. -/
theorem heldLiterally_iff (hmongo : Evaluates env text) (hattributes : db.attributes = [])
    (hclean : Clean text db) (hstored : UptimesOk env db) (before : List (EnrichCall β γ))
    (call : EnrichCall β γ) (hnames : ∀ c ∈ before ++ [call], CallNamesPlain c) :
    (HeldLiterally text call
        (run (EnrichOp.apply env) (enrich env call) (runHistory env db before).1).1 →
      PlainTexts text call) ∧
    (HashesDistinct (before ++ [call]) → UptimesReported env (before ++ [call]) →
      (HeldLiterally text call
          (run (EnrichOp.apply env) (enrich env call) (runHistory env db before).1).1 ↔
        PlainTexts text call ∧ TrackedOnce text call)) := by
  have hcall : call ∈ before ++ [call] := by simp
  have hbefore : ∀ c ∈ before, c ∈ before ++ [call] := fun c hc => List.mem_append_left _ hc
  have hclean' := clean_enrich hmongo (hnames call hcall)
    (clean_runHistory hmongo (fun c hc => hnames c (hbefore c hc)) hclean)
  refine ⟨plainTexts_of_heldLiterally hclean', fun hdistinct huptimes => ?_⟩
  have hin : ∀ c ∈ before ++ [call], NamesIn (groupKeys (before ++ [call]))
      (fieldNames (before ++ [call])) c := fun c hc => namesIn_of_mem hdistinct hc
  have hids : IdsIn (groupKeys (before ++ [call])) db := by
    intro a g _ doc hdoc
    simp [EnrichDb.docOf, hattributes] at hdoc
  obtain ⟨hids, huptime⟩ := idsIn_runHistory (fun c hc => hin c (hbefore c hc))
    (fun c hc => huptimes c (hbefore c hc)) hids hstored
  obtain ⟨db', result, hrun, henriched⟩ :=
    enriched_enrich (hids.enrichable (hin call hcall) huptime (huptimes call hcall))
  rw [hrun] at hclean' ⊢
  -- the first part needs no assumption on the hashes
  constructor
  · intro hheld
    have hplain := plainTexts_of_heldLiterally hclean' hheld
    refine ⟨hplain, fun g f s hs htracked => ?_⟩
    rw [← state_eq_lastTracked hmongo hplain henriched hs htracked]
    exact (hheld g f s hs).2 htracked
  · rintro ⟨hplain, hlast⟩ g f s hs
    refine ⟨hasText_stored hmongo hplain (hin call hcall) henriched hs, fun htracked => ?_⟩
    rw [state_eq_lastTracked hmongo hplain henriched hs htracked]
    exact hlast g f s hs htracked

/-! ### Paths into a document -/

/-- What a path finds in a document; a path that finds nothing leaves no value. -/
def pathValue (doc : AttributesDoc (Option String)) (path : String) : Option String :=
  if path = "$address" then some doc.address
  else if path = "$group_key_hash" then some doc.groupKeyHash
  else if path = "$id" then doc.id
  else (doc.fields.entries.find? fun e => path = "$fields." ++ e.1 ++ ".value").bind (·.2.content)

/-- What a path finds in a document of the targets. -/
def statePathValue (doc : TargetDoc (Option String) ℤ) (path : String) : Option String :=
  (doc.state.entries.find? fun e => path = "$state." ++ e.1 ++ ".value").bind (·.2.content)

/-- A content with the text of an expression replaced by its value. -/
def evaluateText (value : String → Option String) (field : Stored (Option String)) :
    Stored (Option String) :=
  match field.content with
  | some s => if isExpression s then { field with content := value s } else field
  | none => field

/-- A Mongo that looks paths up. -/
def pathEnv : EnrichEnv (Option String) ℤ where
  differs := fun c c' => c ≠ c'
  uptime := .ok
  threshold := ⟨1, Nat.one_pos⟩
  evaluate := fun doc => evaluateText (pathValue doc)
  evaluateState := fun doc => evaluateText (statePathValue doc)
  bulkOrder := id
  bulkOrder_perm := fun _ => List.Perm.refl _

theorem evaluateText_of_literal {value : String → Option String} {field : Stored (Option String)}
    (h : ∀ s, field.content = some s → isExpression s = false) :
      evaluateText value field = field := by
  unfold evaluateText
  split
  · next s hs => rw [h s hs]; rfl
  · rfl

theorem evaluateText_plain {value : String → Option String}
    (hvalue : ∀ path t, value path = some t → isExpression t = false)
    (field : Stored (Option String)) {t : String}
    (ht : (evaluateText value field).content = some t) : isExpression t = false := by
  unfold evaluateText at ht
  split at ht
  · next s hs =>
    split at ht
    · exact hvalue s t ht
    · next hplain =>
      rw [hs] at ht
      cases ht
      exact Bool.not_eq_true _ ▸ hplain
  · next hnone =>
    rw [hnone] at ht
    cases ht

theorem textOf_find? {fields : Dict String (Stored (Option String))}
    {p : String × Stored (Option String) → Bool} {t : String}
    (ht : (fields.entries.find? p).bind (·.2.content) = some t) : t ∈ textsOf id fields := by
  obtain ⟨e, he, hcontent⟩ := Option.bind_eq_some_iff.mp ht
  exact ⟨e.1, e.2, Dict.mem_entries_iff.mp (List.mem_of_find?_eq_some he), hcontent⟩

theorem evaluates_pathEnv : Evaluates pathEnv id where
  literal := fun _ _ h => evaluateText_of_literal h
  literalState := fun _ _ h => evaluateText_of_literal h
  path := fun doc hdoc field s hs => by
    refine evaluateText_plain (fun path t ht => ?_) field hs
    unfold pathValue at ht
    split at ht
    · cases ht
      exact hdoc.address
    split at ht
    · cases ht
      exact hdoc.hash
    split at ht
    · exact hdoc.id t ht
    · exact hdoc.fields t (textOf_find? ht)
  pathState := fun doc hdoc field s hs =>
    evaluateText_plain (fun _ t ht => hdoc t (textOf_find? ht)) field hs
  equal := fun c c' h => by simpa [pathEnv] using h

/-- A poll of the location of a system. -/
def locationPoll (location : String) : EnrichCall (Option String) ℤ where
  address := "10.0.0.1"
  result := Dict.ofList [("SNMPv2-MIB::tuple=int=0",
    ⟨Dict.ofList [("SNMPv2-MIB.sysLocation", some location)], Dict.empty, [.int 0]⟩)]

theorem reported_locationPoll {location g f : String} {c : Option String}
    (h : (locationPoll location).reported g f = some c) :
    g = "SNMPv2-MIB::tuple=int=0" ∧ f = "SNMPv2-MIB.sysLocation" ∧ c = some location := by
  obtain ⟨group, hgroup, hget⟩ := Option.bind_eq_some_iff.mp h
  obtain ⟨rfl, rfl⟩ := Prod.mk.inj (List.mem_singleton.mp (Dict.mem_entries_iff.mpr hgroup))
  obtain ⟨rfl, rfl⟩ := Prod.mk.inj (List.mem_singleton.mp (Dict.mem_entries_iff.mpr hget))
  exact ⟨rfl, rfl, rfl⟩

/-- A location without a dollar sign is stored. -/
theorem heldLiterally_iff_locationPoll : HeldLiterally id (locationPoll "Room 5")
    (run (EnrichOp.apply pathEnv) (enrich pathEnv (locationPoll "Room 5"))
      ⟨Dict.empty, [], []⟩).1 := by
  have hgroups : groupKeys [locationPoll "Room 5"] ⊆ {"SNMPv2-MIB::tuple=int=0"} := by
    rintro g ⟨call, hcall, hg⟩
    rw [List.mem_singleton.mp hcall] at hg
    exact List.mem_singleton.mp hg
  have hfields : fieldNames [locationPoll "Room 5"] ⊆ {"SNMPv2-MIB.sysLocation"} := by
    rintro f ⟨call, hcall, g, hf⟩
    rw [List.mem_singleton.mp hcall] at hf
    obtain ⟨c, hc⟩ := Option.isSome_iff_exists.mp hf
    exact (reported_locationPoll hc).2.1
  have hclean : Clean id (⟨Dict.empty, [], []⟩ : EnrichDb (Option String) ℤ) := by
    refine ⟨fun _ h => (List.not_mem_nil h).elim, fun a t ht => ?_⟩
    have hempty : t ∈ textsOf id (Dict.empty : Dict String (Stored (Option String))) := ht
    rw [textsOf_empty] at hempty
    cases hempty
  have hiff := (heldLiterally_iff evaluates_pathEnv rfl hclean (fun _ metric _ => ⟨metric, rfl⟩) []
    (locationPoll "Room 5") fun call hcall => by
      rw [List.mem_singleton.mp hcall]
      exact ⟨by decide, by decide⟩).2
    ⟨(Set.injOn_singleton _ _).mono hgroups, (Set.injOn_singleton _ _).mono hfields⟩
    fun _ _ _ _ metric _ => ⟨metric, rfl⟩
  refine hiff.mpr ⟨?_, ?_⟩
  · intro g f s hs
    obtain ⟨c, hc, hs⟩ := hs
    obtain ⟨-, -, rfl⟩ := reported_locationPoll hc
    cases hs
    decide
  · intro g f s hs _
    obtain ⟨c, hc, hs⟩ := hs
    obtain ⟨-, rfl, rfl⟩ := reported_locationPoll hc
    cases hs
    exact ⟨_, rfl, rfl⟩

/-- A location that begins with a dollar sign is a path that finds nothing, and the value of the
field is gone. -/
theorem heldLiterally_fails : ¬ ∀ call : EnrichCall (Option String) ℤ, HeldLiterally id call
    (run (EnrichOp.apply pathEnv) (enrich pathEnv call) ⟨Dict.empty, [], []⟩).1 := by
  intro h
  obtain ⟨cv, hcv, hcontent⟩ := (h (locationPoll "$HQ") "SNMPv2-MIB::tuple=int=0"
    "SNMPv2-MIB.sysLocation" "$HQ" ⟨some "$HQ", rfl, rfl⟩).1
  cases hcv.symm.trans (rfl : _ = some _)
  revert hcontent
  decide +kernel

end Enrich

end Sc4snmp
