import Sc4snmp.Enrich.Concurrency
import Sc4snmp.Enrich.Literal

/-!
# What a history of calls leaves in the collections

The calls of `enrich` one after the other, on a database that begins empty, of which no
call reports a text that Mongo evaluates.  The documents of the attributes hold what was
reported last, each with the indexes of its group, and there is one for each group of which
a field was ever reported; the state of a target holds the tracked fields reported last.

## Main definitions

* `EnrichEnv.literal` — the same Mongo, if it stored all fields as they are.
* `lastState` — the tracked fields reported last.
* `Recordable` — the calls that leave their reports.
* `HistoryRecorded` — what they leave.

## Main results

* `Enriched.literal` — a call without such texts does the same in both.
* `recorded_enrich` — what a call adds.
* `recorded_runHistory` — **what a history leaves**.
-/

namespace Sc4snmp

namespace Enrich

open Program (run)

variable {β γ : Type} {env : EnrichEnv β γ} {text : β → Option String} {db db' : EnrichDb β γ}
  {call : EnrichCall β γ} {result : Dict String (ResultGroup β γ)}

/-! ### Calls that Mongo evaluates nothing of -/

/-- The same Mongo, if it stored all fields as they are. -/
def EnrichEnv.literal (env : EnrichEnv β γ) : EnrichEnv β γ :=
  { env with
    evaluate := fun _ field => field
    evaluateState := fun _ field => field }

theorem storesLiterally_literal (env : EnrichEnv β γ) : StoresLiterally env.literal :=
  fun _ _ => rfl

/-- Stages that are stored as they are. -/
theorem setFields_literal (doc : AttributesDoc β) {stages : List (String × Stored β)}
    (h : ∀ e ∈ stages, ∀ doc, env.evaluate doc e.2 = e.2) :
    doc.setFields env stages = doc.setFields env.literal stages := by
  rw [setFields_of_literal doc h, setFields_of_literal doc fun _ _ _ => rfl]

theorem finalDoc_literal {group : ResultGroup β γ} (h : GroupLiteral env group) (a key : String)
    (old : Option (AttributesDoc β)) :
    finalDoc env a key group old = finalDoc env.literal a key group old := by
  have hadded : ∀ doc : AttributesDoc β,
      doc.setFields env (addedFields old group.fields.entries) =
        doc.setFields env.literal (addedFields old group.fields.entries) :=
    fun doc => setFields_literal doc (h.stagesOf _)
  unfold finalDoc
  rw [funext hadded]
  cases old with
  | none => rfl
  | some doc =>
    have hmodified : doc.setFields env (modifiedFields env (some doc) group.fields.entries) =
        doc.setFields env.literal (modifiedFields env (some doc) group.fields.entries) :=
      setFields_literal doc (h.stagesOf _)
    rw [writtenDoc, hmodified]
    rfl

/-- **A call without texts that are evaluated** does what it would if none were. -/
theorem Enriched.literal (hmongo : Evaluates env text) (hplain : PlainTexts text call)
    (h : Enriched env call db db' result) : Enriched env.literal call db db' result where
  others := h.others
  docs key group hgroup := by
    rw [h.docs key group hgroup, finalDoc_literal (hplain.groupLiteral hmongo hgroup)]
  result := h.result
  target := by
    obtain ⟨doc, hstate, htarget⟩ := h.target
    refine ⟨doc, hstate, ?_⟩
    rw [htarget, setState_of_literal doc, setState_of_literal doc fun _ _ _ => rfl]
    intro w hw doc
    obtain ⟨g, f, c, hc, -, rfl⟩ := mem_trackedOf.mp hw
    exact hmongo.literalState doc _ fun t ht => hplain g f t ⟨c, hc, ht⟩
  targets := h.targets
  uptimes := h.uptimes
  unique := h.unique

/-! ### The state of a target -/

/-- The tracked fields the calls reported last for an address. -/
def lastState (calls : List (EnrichCall β γ)) (a f : String) : Option (Stored β) :=
  calls.foldl (fun held call => if a = call.address then (lastTracked call f).or held else held)
    none

theorem lastState_concat (calls : List (EnrichCall β γ)) (call : EnrichCall β γ) (a f : String) :
    lastState (calls ++ [call]) a f =
      if a = call.address then (lastTracked call f).or (lastState calls a f)
      else lastState calls a f := by
  rw [lastState, List.foldl_append]
  rfl

/-- What the state of a target has after a call. -/
theorem state_enrich (henriched : Enriched env.literal call db db' result) (a f : String) :
    (db'.target a).state.get? (keyHash f) =
      if a = call.address then (lastTracked call f).or ((db.target a).state.get? (keyHash f))
      else (db.target a).state.get? (keyHash f) := by
  split
  · next ha =>
    obtain ⟨doc, hstate, htarget⟩ := henriched.target
    rw [ha, htarget, setState_of_literal doc fun _ _ _ => rfl, ← hstate]
    show (doc.state.updateList _).get? _ = _
    rw [Dict.get?_updateList_eq_last]
    rfl
  · next ha => rw [henriched.targets a ha]

/-! ### The documents -/

/-- The document of a group with fields has a field, and so has one that had. -/
theorem filled_finalDoc {a key : String} {group : ResultGroup β γ} {old : Option (AttributesDoc β)}
    (hold : ∀ doc, old = some doc → ∃ k, k ∈ doc.fields) {doc : AttributesDoc β}
    (hdoc : finalDoc env a key group old = some doc) : ∃ k, k ∈ doc.fields := by
  obtain ⟨written, hwritten, rfl⟩ := Option.map_eq_some_iff.mp hdoc
  cases old with
  | none =>
    rw [writtenDoc] at hwritten
    split at hwritten
    · cases hwritten
    · next hfields =>
      obtain ⟨e, he⟩ := List.exists_mem_of_ne_nil _ hfields
      refine ⟨keyHash e.1, (mem_setFields env written _).mpr (Or.inl ?_)⟩
      refine List.mem_map.mpr ⟨(keyHash e.1, ⟨e.1, e.2⟩), List.mem_filterMap.mpr ⟨e, he, ?_⟩, rfl⟩
      rfl
  | some doc =>
    cases hwritten
    obtain ⟨k, hk⟩ := hold doc rfl
    exact ⟨k, (mem_setFields env _ _).mpr (Or.inr ((mem_setFields env doc _).mpr (Or.inr hk)))⟩

/-- The document of a group has the indexes it was begun with. -/
theorem indexes_finalDoc {a key : String} {group : ResultGroup β γ}
    {old : Option (AttributesDoc β)}
    (hold : ∀ doc, old = some doc → doc.indexes = some group.indexes) {doc : AttributesDoc β}
    (hdoc : finalDoc env a key group old = some doc) : doc.indexes = some group.indexes := by
  obtain ⟨written, hwritten, rfl⟩ := Option.map_eq_some_iff.mp hdoc
  rw [(setFields_frame env written _).2.2.1]
  cases old with
  | none =>
    rw [writtenDoc] at hwritten
    split at hwritten
    · cases hwritten
    · cases hwritten
      rfl
  | some doc =>
    cases hwritten
    rw [(setFields_frame env doc _).2.2.1]
    exact hold doc rfl

/-! ### Histories -/

/-- Calls of `enrich` that leave what they report: their hashes tell names apart, no text is
evaluated, uptimes are numbers, and the groups of a key have the indexes of the key. -/
structure Recordable (env : EnrichEnv β γ) (text : β → Option String)
    (indexesOf : String → List IndexValue) (calls : List (EnrichCall β γ)) : Prop where
  distinct : HashesDistinct calls
  plain : ∀ call ∈ calls, PlainTexts text call
  uptimes : UptimesReported env calls
  indexes : ∀ call ∈ calls, ∀ g group, call.result.get? g = some group →
    group.indexes = indexesOf g

/-- What some calls leave in the collections. -/
structure HistoryRecorded (env : EnrichEnv β γ) (G F : Set String)
    (indexesOf : String → List IndexValue) (done : List (EnrichCall β γ)) (db : EnrichDb β γ) :
    Prop where
  represents : Represents env.literal G F db (lastReports done)
  uptimes : UptimesOk env db
  state : ∀ a f, (db.target a).state.get? (keyHash f) = lastState done a f
  /-- A document has a field, and the indexes of its key. -/
  docs : ∀ doc ∈ db.attributes, (∃ k, k ∈ doc.fields) ∧
    ∀ g, doc.id = some g → doc.indexes = some (indexesOf g)

variable {G F : Set String} {indexesOf : String → List IndexValue} {done : List (EnrichCall β γ)}

/-- Nothing is left by no call. -/
theorem recorded_empty (htargets : db.targets = Dict.empty) (hattributes : db.attributes = []) :
    HistoryRecorded env G F indexesOf [] db where
  represents := represents_empty hattributes
  uptimes := fun a metric hmetric => by
    rw [EnrichDb.target, htargets] at hmetric
    cases hmetric
  state := fun a f => by
    rw [EnrichDb.target, htargets]
    rfl
  docs := fun doc hdoc => by
    rw [hattributes] at hdoc
    cases hdoc

/-- **What a call adds** to what is left. -/
theorem recorded_enrich (hmongo : Evaluates env text) (hplain : PlainTexts text call)
    (hcall : NamesIn G F call)
    (hindexes : ∀ g group, call.result.get? g = some group → group.indexes = indexesOf g)
    (h : HistoryRecorded env G F indexesOf done db) (henrichable : Enrichable env db call)
    (henriched : Enriched env call db db' result) :
    HistoryRecorded env G F indexesOf (done ++ [call]) db' := by
  have hliteral := henriched.literal hmongo hplain
  have hrepresents : Represents env.literal G F db' (lastReports (done ++ [call])) := by
    rw [lastReports, List.foldl_append]
    exact represents_enrich (storesLiterally_literal env) hcall h.represents
      ⟨henrichable.stored, henrichable.uptimes, henrichable.nodup, henrichable.id⟩ hliteral
  refine ⟨hrepresents, henriched.uptimes, fun a f => ?_, fun doc hdoc => ?_⟩
  · rw [state_enrich hliteral, lastState_concat, h.state]
  · have hfound := (henriched.unique h.represents.unique).docOf hdoc
    by_cases hmem : doc.address = call.address ∧ doc.groupKeyHash ∈ call.result.keys.map keyHash
    swap
    · -- the document was there before
      rw [henriched.others _ _ fun ha hhash => hmem ⟨ha, hhash⟩] at hfound
      exact h.docs doc (mem_attributes_of_docOf hfound).1
    · obtain ⟨ha, hhash⟩ := hmem
      obtain ⟨g, hg, hhash⟩ := List.mem_map.mp hhash
      obtain ⟨group, hgroup⟩ := Dict.mem_keys_iff.mp hg
      rw [ha, ← hhash, henriched.docs g group hgroup] at hfound
      have hid : ∀ old, db.docOf call.address (keyHash g) = some old → old.id = some g :=
        henrichable.id g hg
      refine ⟨filled_finalDoc (fun old hold => ?_) hfound, fun g' hg' => ?_⟩
      · exact (h.docs old (mem_attributes_of_docOf hold).1).1
      · rw [id_finalDoc hid hfound] at hg'
        cases hg'
        rw [indexes_finalDoc (fun old hold => ?_) hfound, hindexes g group hgroup]
        rw [(h.docs old (mem_attributes_of_docOf hold).1).2 g (hid old hold),
          hindexes g group hgroup]

/-- The calls of a history, each of which adds what it reports. -/
theorem recorded_calls (hmongo : Evaluates env text) {calls : List (EnrichCall β γ)}
    (hplain : ∀ call ∈ calls, PlainTexts text call) (hcalls : ∀ call ∈ calls, NamesIn G F call)
    (huptimes : UptimesReported env calls)
    (hindexes : ∀ call ∈ calls, ∀ g group, call.result.get? g = some group →
      group.indexes = indexesOf g)
    (h : HistoryRecorded env G F indexesOf done db) :
    HistoryRecorded env G F indexesOf (done ++ calls) (runHistory env db calls).1 := by
  induction calls generalizing db done with
  | nil => rwa [List.append_nil]
  | cons call calls ih =>
    unfold UptimesReported at huptimes
    rw [List.forall_mem_cons] at hplain hcalls huptimes hindexes
    have henrichable : Enrichable env db call :=
      (h.represents.idsIn hcalls.1.injOn.1).enrichable hcalls.1 h.uptimes huptimes.1
    obtain ⟨db₁, result, hrun, henriched⟩ := enriched_enrich henrichable
    have hfirst := recorded_enrich hmongo hplain.1 hcalls.1 hindexes.1 h henrichable henriched
    rw [runHistory, hrun, ← List.singleton_append, ← List.append_assoc]
    exact ih hplain.2 hcalls.2 huptimes.2 hindexes.2 hfirst

/-- **What a history leaves**, on a database that begins empty. -/
theorem recorded_runHistory (hmongo : Evaluates env text) {calls : List (EnrichCall β γ)}
    (hcalls : Recordable env text indexesOf calls) (htargets : db.targets = Dict.empty)
    (hattributes : db.attributes = []) :
    HistoryRecorded env (groupKeys calls) (fieldNames calls) indexesOf calls
      (runHistory env db calls).1 :=
  recorded_calls hmongo hcalls.plain (fun _ hcall => namesIn_of_mem hcalls.distinct hcall)
    hcalls.uptimes hcalls.indexes (recorded_empty htargets hattributes)

/-! ### The documents of a history -/

/-- **A group has a document** exactly if one of its fields was reported. -/
theorem HistoryRecorded.docOf_isSome_iff (h : HistoryRecorded env G F indexesOf done db)
    (hinj : Set.InjOn keyHash G) {a g : String} (hg : g ∈ G) :
    (db.docOf a (keyHash g)).isSome ↔ ∃ f, (lastReports done a g f).isSome := by
  constructor
  · intro hsome
    obtain ⟨doc, hdoc⟩ := Option.isSome_iff_exists.mp hsome
    obtain ⟨hmem, -, hhash⟩ := mem_attributes_of_docOf hdoc
    obtain ⟨⟨k, hk⟩, -⟩ := h.docs doc hmem
    obtain ⟨cv, hcv⟩ := Dict.mem_keys_iff.mp hk
    obtain ⟨g', hg', hhash', -, hfields⟩ := h.represents.only doc hmem
    obtain rfl := hinj hg' hg (hhash'.symm.trans hhash)
    obtain ⟨f, hf, rfl⟩ := hfields k cv hcv
    have hstored : db.stored a g' f = some cv := by
      rw [EnrichDb.stored, hdoc]
      exact hcv
    obtain ⟨c, hc, -⟩ := h.represents.of_stored hg hf hstored
    exact ⟨f, by rw [hc]; rfl⟩
  · rintro ⟨f, hf⟩
    obtain ⟨c, hc⟩ := Option.isSome_iff_exists.mp hf
    obtain ⟨cv, hcv, -⟩ := h.represents.present a g f c hc
    obtain ⟨doc, hdoc, -⟩ := Option.bind_eq_some_iff.mp hcv
    rw [hdoc]
    rfl

/-- **The document of a group has what was reported last** of a field whose hash is its own. -/
theorem HistoryRecorded.field_eq {ε : Type} {v : β → ε}
    (hv : ∀ c c', env.differs c c' = false → v c = v c')
    (h : HistoryRecorded env G F indexesOf done db) {a g f : String} (hg : g ∈ G)
    {doc : AttributesDoc β} (hdoc : db.docOf a (keyHash g) = some doc)
    (hown : ∀ f' ∈ F, keyHash f' = keyHash f → f' = f) :
    ((doc.fields.get? (keyHash f)).map fun cv => v cv.content) =
      (lastReports done a g f).map v := by
  have hstored : db.stored a g f = doc.fields.get? (keyHash f) := by
    rw [EnrichDb.stored, hdoc]
    rfl
  cases hc : lastReports done a g f with
  | some c =>
    obtain ⟨cv, hcv, -, hcontent⟩ := h.represents.present a g f c hc
    rw [← hstored, hcv]
    rcases hcontent with hcontent | hcontent
    · rw [Option.map_some, Option.map_some, hcontent]
    · exact congrArg some (hv _ _ hcontent)
  | none =>
    -- what is stored under the hash would have been reported
    cases hcv : doc.fields.get? (keyHash f) with
    | none => rfl
    | some cv =>
      obtain ⟨-, -, -, -, hfields⟩ := h.represents.only doc (mem_attributes_of_docOf hdoc).1
      obtain ⟨f', hf', hhash⟩ := hfields (keyHash f) cv hcv
      obtain rfl := hown f' hf' hhash.symm
      rw [hcv] at hstored
      rw [h.represents.absent a g hg f' hf' hc] at hstored
      cases hstored

end Enrich

end Sc4snmp
