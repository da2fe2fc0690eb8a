import Sc4snmp.Lib.Program
import Sc4snmp.Lib.Run
import Sc4snmp.Snmp.Auth

/-!
# The files of the secrets

`manage_secrets.py` runs whenever a container starts: it writes a directory of files for each
secret of a JSON file, and removes the directories of others.  A container that is stopped in the
middle keeps what is there, and so does one that is started again.

A secret has a name that is one component of a path, and its details are scalars.  A file is
emptied when it is opened, before its text is written.

## Main definitions

* `SecretStore`, `SecretOp` — the files, and the operations on them.
* `createSecretFiles`, `deleteSecretFiles`, `manageSecrets` — the source.
* `SecretView.after` — what a run makes of what can be read.

## Main results

* `always_manageSecrets` — what a run keeps at every operation, and what it ends with.
* `restarts_view` — **however often runs are interrupted and repeated**, a file has the text that
  was written last since its secret was without a directory.
* `secrets_asConfigured_iff` — when the files are those of the present configuration.
-/

namespace Sc4snmp

namespace Secrets

open Program (Always done forEach interrupted perform)

/-! ### The files -/

/-- The directories below `BASE_DIR`, each with the texts of its files. -/
abbrev SecretStore := Dict String (Dict String String)

/-- The text of a file. -/
def SecretStore.content (store : SecretStore) (secretDir fileName : String) : Option String :=
  (store.get? secretDir).bind fun files => files.get? fileName

/-- The files of a directory are changed, if it is there. -/
def SecretStore.modify (store : SecretStore) (secretDir : String)
    (f : Dict String String → Dict String String) : SecretStore :=
  match store.get? secretDir with
  | some files => store.insert secretDir (f files)
  | none => store

/-- A directory is made, if it is not there. -/
def SecretStore.makedirs (store : SecretStore) (secretDir : String) : SecretStore :=
  if secretDir ∈ store then store else store.insert secretDir Dict.empty

/-- An operation on the files. -/
inductive SecretOp
  | makedirs (secretDir : String)
  /-- `open` for writing. -/
  | openFile (secretDir fileName : String)
  | write (secretDir fileName text : String)
  | listdir
  /-- The steps of `rmtree`. -/
  | unlink (secretDir fileName : String)
  | rmdir (secretDir : String)

def SecretOp.apply : SecretOp → SecretStore → SecretStore
  | makedirs secretDir, store => store.makedirs secretDir
  | openFile secretDir fileName, store =>
    store.modify secretDir fun files => files.insert fileName ""
  | write secretDir fileName text, store =>
    store.modify secretDir fun files => files.insert fileName text
  | listdir, store => store
  | unlink secretDir fileName, store => store.modify secretDir fun files => files.erase fileName
  | rmdir secretDir, store => store.erase secretDir

abbrev SecretProgram (α : Type) := Program SecretOp SecretStore α

/-! ### The source -/

/-- The details of a secret. -/
abbrev SecretDetails := Dict String PyVal

/-- `OPTIONAL_FIELDS`. -/
def optionalFields : List String := ["contextengineid", "privkey", "privprotocol"]

/-- `file_map.get(key.lower())`. -/
def fileMap (key : String) : Option String :=
  List.lookup (Text.lower key) [("username", "userName"), ("authkey", "authKey"),
    ("authprotocol", "authProtocol"), ("privkey", "privKey"), ("privprotocol", "privProtocol"),
    ("contextengineid", "contextEngineId")]

/-- The file of a detail, and its text, if it is written. -/
def writtenFile (detail : String × PyVal) : Option (String × String) :=
  if detail.2.truthy then (fileMap detail.1).map fun fileName => (fileName, detail.2.format)
  else none

/-- The secret is not skipped. -/
def SecretDetails.isAccepted (details : SecretDetails) : Bool :=
  details.entries.all fun (key, value) => Text.lower key ∈ optionalFields || value.truthy

/-- One detail of `create_secret_files`. -/
def writeDetail (secretDir : String) (detail : String × PyVal) : SecretProgram Unit :=
  match writtenFile detail with
  | none => done ()
  | some (fileName, text) => do
    let _ ← perform (.openFile secretDir fileName)
    let _ ← perform (.write secretDir fileName text)

/-- One secret of `create_secret_files`. -/
def createSecretFile (secret : String × SecretDetails) : SecretProgram Unit :=
  if secret.2.isAccepted then do
    let _ ← perform (.makedirs secret.1)
    forEach (writeDetail secret.1) secret.2.entries
  else done ()

/-- `create_secret_files`, without the names it returns. -/
def createSecretFiles (secrets : Dict String SecretDetails) : SecretProgram Unit :=
  forEach createSecretFile secrets.entries

/-- The names `create_secret_files` returns. -/
def secretNames (secrets : Dict String SecretDetails) : List String :=
  (secrets.entries.filter fun secret => secret.2.isAccepted).map Prod.fst

/-- `shutil.rmtree`. -/
def rmtree (secretDir : String) : SecretProgram Unit := do
  let store ← perform .listdir
  forEach (fun fileName => do let _ ← perform (.unlink secretDir fileName))
    (store.getD secretDir Dict.empty).keys
  let _ ← perform (.rmdir secretDir)

/-- The order of a set of names. -/
structure SetOrder where
  order : List String → List String
  perm : ∀ names, (order names).Perm names

/-- `delete_secret_files`. -/
def deleteSecretFiles (setOrder : SetOrder) (names : List String) : SecretProgram Unit := do
  let store ← perform .listdir
  forEach rmtree (setOrder.order (store.keys.filter (· ∉ names)))

/-- The script, with the JSON file if it is there. -/
def manageSecrets (setOrder : SetOrder) : Option (Dict String SecretDetails) → SecretProgram Unit
  | none => done ()
  | some secrets => do
    createSecretFiles secrets
    deleteSecretFiles setOrder (secretNames secrets)

/-! ### What can be read -/

/-- The directories, and the texts of their files. -/
abbrev SecretView := String → Option (String → Option String)

def view (store : SecretStore) : SecretView :=
  fun secretDir => (store.get? secretDir).map Dict.get?

theorem bind_view (store : SecretStore) (secretDir fileName : String) :
    (view store secretDir).bind (· fileName) = store.content secretDir fileName := by
  rw [SecretStore.content, view, Option.bind_map]
  rfl

/-- The files a secret is written to; of two details for one file the last one counts. -/
def SecretDetails.files (details : SecretDetails) : Dict String String :=
  Dict.ofList (details.entries.filterMap writtenFile)

/-- What a run makes of what can be read. -/
def SecretView.after (v : SecretView) : Option (Dict String SecretDetails) → SecretView
  | none => v
  | some secrets => fun secretDir =>
    match secrets.get? secretDir with
    | none => none
    | some details =>
      if details.isAccepted then
        some fun fileName => (details.files.get? fileName).or ((v secretDir).bind (· fileName))
      else none

/-! ### The operations -/

section Operations

variable {store : SecretStore} {d d' f f' text : String}

theorem get?_modify (store : SecretStore) (d d' : String)
    (g : Dict String String → Dict String String) :
    (store.modify d g).get? d' = if d' = d then (store.get? d).map g else store.get? d' := by
  unfold SecretStore.modify
  split
  · next files hd => rw [hd, Dict.get?_insert, Option.map_some]
  · next hd =>
    rw [hd]
    split
    · next heq => rw [heq, hd, Option.map_none]
    · rfl

theorem content_insert (store : SecretStore) (d d' f f' text : String) :
    (store.modify d fun files => files.insert f text).content d' f' =
      if d' = d ∧ f' = f ∧ d ∈ store then some text else store.content d' f' := by
  unfold SecretStore.content
  rw [get?_modify]
  by_cases hd : d' = d
  · subst hd
    rw [if_pos rfl]
    cases hfiles : store.get? d' with
    | none =>
      have hnot : d' ∉ store := Dict.get?_eq_none_iff.mp hfiles
      simp [hnot]
    | some files =>
      have hmem : d' ∈ store := Dict.mem_keys_iff.mpr ⟨files, hfiles⟩
      simp [hmem, Dict.get?_insert]
  · simp [hd]

theorem mem_modify {g : Dict String String → Dict String String} :
    d' ∈ store.modify d g ↔ d' ∈ store := by
  show d' ∈ Dict.keys _ ↔ d' ∈ Dict.keys _
  rw [Dict.mem_keys_iff, Dict.mem_keys_iff, get?_modify]
  split
  · next heq => simp [heq]
  · rfl

/-- A new directory has no files. -/
theorem content_makedirs (store : SecretStore) (d d' f' : String) :
    (store.makedirs d).content d' f' = store.content d' f' := by
  unfold SecretStore.makedirs
  split
  · rfl
  · next hnot =>
    unfold SecretStore.content
    rw [Dict.get?_insert]
    split
    · next heq =>
      rw [heq, Dict.get?_eq_none_iff.mpr hnot]
      rfl
    · rfl

theorem mem_makedirs : d' ∈ store.makedirs d ↔ d' = d ∨ d' ∈ store := by
  unfold SecretStore.makedirs
  split
  · next hmem => exact ⟨Or.inr, fun h => h.elim (fun heq => heq ▸ hmem) id⟩
  · exact Dict.mem_keys_insert

/-- The steps of `rmtree` leave the other directories. -/
theorem get?_unlink (h : d' ≠ d) : (SecretOp.apply (.unlink d f) store).get? d' = store.get? d' :=
  (get?_modify store d d' _).trans (if_neg h)

theorem get?_rmdir (h : d' ≠ d) : (SecretOp.apply (.rmdir d) store).get? d' = store.get? d' :=
  (Dict.get?_erase store d d').trans (if_neg h)

end Operations

/-! ### One run -/

/-- The files that are not written have the texts they had. -/
def KeepsOthers (secrets : Dict String SecretDetails) (v : SecretView) (store : SecretStore) :
    Prop :=
  ∀ d details, secrets.get? d = some details → details.isAccepted = true → ∀ f,
    details.files.get? f = none → store.content d f = (v d).bind (· f)

/-- The directory of a secret is there, and has what is written. -/
structure Written (secret : String × SecretDetails) (store : SecretStore) : Prop where
  made : secret.1 ∈ store
  files : ∀ f text, secret.2.files.get? f = some text → store.content secret.1 f = some text

section Run

variable {secrets : Dict String SecretDetails} {v : SecretView} {store : SecretStore}

theorem get?_filesOf_append (before : List (String × PyVal)) (detail : String × PyVal)
    (f : String) :
    (Dict.ofList ((before ++ [detail]).filterMap writtenFile)).get? f =
      match writtenFile detail with
      | none => (Dict.ofList (before.filterMap writtenFile)).get? f
      | some (f', text) =>
        if f = f' then some text else (Dict.ofList (before.filterMap writtenFile)).get? f := by
  rw [List.filterMap_append, Dict.ofList, Dict.updateList_append]
  cases hwritten : writtenFile detail with
  | none => simp [hwritten, Dict.ofList]
  | some file => simp [hwritten, Dict.ofList, Dict.get?_insert]

/-- A detail is written to a file of its secret. -/
theorem files_of_writtenFile {details : SecretDetails} {detail : String × PyVal} {f text : String}
    (hdetail : detail ∈ details.entries) (hwritten : writtenFile detail = some (f, text)) :
    details.files.get? f ≠ none := by
  intro hnone
  refine Dict.get?_eq_none_iff.mp hnone ?_
  refine Dict.mem_keys_updateList.mpr (Or.inl ?_)
  exact List.mem_map.mpr ⟨(f, text), List.mem_filterMap.mpr ⟨detail, hdetail, hwritten⟩, rfl⟩

/-- What is written to a file of one secret leaves the other secrets, and the files that are not
written. -/
theorem KeepsOthers.insert (h : KeepsOthers secrets v store) {d f : String} (text : String)
    {details : SecretDetails} (hget : secrets.get? d = some details)
    (hf : details.files.get? f ≠ none) :
    KeepsOthers secrets v (store.modify d fun files => files.insert f text) := by
  intro d' details' hget' haccepted f' hnone
  rw [content_insert, if_neg]
  · exact h d' details' hget' haccepted f' hnone
  · rintro ⟨rfl, rfl, -⟩
    cases hget.symm.trans hget'
    exact hf hnone

theorem Written.insert {secret : String × SecretDetails} (h : Written secret store) {d : String}
    (hne : secret.1 ≠ d) (f text : String) :
    Written secret (store.modify d fun files => files.insert f text) := by
  refine ⟨mem_modify.mpr h.made, fun f' text' hfile => ?_⟩
  rw [content_insert, if_neg fun heq => hne heq.1]
  exact h.files f' text' hfile

/-- The secrets of a list are written, as far as they are not skipped. -/
structure WrittenAll (secrets : Dict String SecretDetails) (v : SecretView)
    (before : List (String × SecretDetails)) (store : SecretStore) : Prop where
  keeps : KeepsOthers secrets v store
  written : ∀ secret ∈ before, secret.2.isAccepted = true → Written secret store

/-- One detail, after others of its secret. -/
theorem always_writeDetail {before : List (String × SecretDetails)} {d : String}
    {details : SecretDetails} (hget : secrets.get? d = some details)
    (hnew : ∀ secret ∈ before, secret.1 ≠ d) {detail : String × PyVal}
    (hdetail : detail ∈ details.entries) (h : WrittenAll secrets v before store) (hd : d ∈ store) :
    Always SecretOp.apply (KeepsOthers secrets v)
      (fun _ s => WrittenAll secrets v before s ∧ d ∈ s ∧ ∀ f, s.content d f =
        match writtenFile detail with
        | none => store.content d f
        | some (f', text) => if f = f' then some text else store.content d f)
      (writeDetail d detail) store := by
  unfold writeDetail
  cases hwritten : writtenFile detail with
  | none => exact ⟨h.keeps, h, hd, fun _ => rfl⟩
  | some file =>
    obtain ⟨f, text⟩ := file
    have hf := files_of_writtenFile hdetail hwritten
    have hinsert : ∀ {s : SecretStore} (text : String), WrittenAll secrets v before s →
        WrittenAll secrets v before (s.modify d fun files => files.insert f text) :=
      fun text hs => ⟨hs.keeps.insert text hget hf, fun secret hsecret haccepted =>
        (hs.written secret hsecret haccepted).insert (hnew secret hsecret) f text⟩
    have hopened := hinsert "" h
    have hwrote := hinsert text hopened
    refine ⟨h.keeps, hopened.keeps, hwrote.keeps, hwrote, ?_, fun f' => ?_⟩
    · exact mem_modify.mpr (mem_modify.mpr hd)
    · show SecretStore.content (SecretStore.modify (SecretStore.modify store d _) d _) d f' = _
      rw [content_insert, content_insert]
      have hd' : d ∈ store.modify d fun files => files.insert f "" := mem_modify.mpr hd
      by_cases heq : f' = f <;> simp [heq, hd, hd']

/-- One secret, after others. -/
theorem always_createSecretFile {before : List (String × SecretDetails)}
    {secret : String × SecretDetails} (hbefore : before ++ [secret] <+: secrets.entries)
    (h : WrittenAll secrets v before store) :
    Always SecretOp.apply (KeepsOthers secrets v)
      (fun _ => WrittenAll secrets v (before ++ [secret])) (createSecretFile secret) store := by
  obtain ⟨d, details⟩ := secret
  have hget : secrets.get? d = some details :=
    Dict.mem_entries_iff.mp (hbefore.subset (by simp))
  have hnew : ∀ secret ∈ before, secret.1 ≠ d := by
    have hnodup := secrets.nodupKeys.sublist (hbefore.sublist.map Prod.fst)
    rw [List.map_append, List.nodup_append] at hnodup
    exact fun secret hsecret => hnodup.2.2 _ (List.mem_map_of_mem hsecret) _ (by simp)
  unfold createSecretFile
  split
  · next haccepted =>
    have hmade : WrittenAll secrets v before (store.makedirs d) := by
      refine ⟨fun d' details' hget' haccepted' f hnone => ?_, fun secret hsecret hacc => ?_⟩
      · rw [content_makedirs]
        exact h.keeps d' details' hget' haccepted' f hnone
      · obtain ⟨hmade, hfiles⟩ := h.written secret hsecret hacc
        refine ⟨mem_makedirs.mpr (Or.inr hmade), fun f text hfile => ?_⟩
        rw [content_makedirs]
        exact hfiles f text hfile
    refine Program.always_perform_bind.mpr ⟨h.keeps, ?_⟩
    let written : List (String × PyVal) → SecretStore → Prop := fun before' s =>
      WrittenAll secrets v before s ∧ d ∈ s ∧ ∀ f text,
        (Dict.ofList (before'.filterMap writtenFile)).get? f = some text → s.content d f = some text
    have hloop : Always SecretOp.apply (KeepsOthers secrets v) (fun _ => written details.entries)
        (forEach (writeDetail d) details.entries) (store.makedirs d) := by
      refine Program.always_forEach (fun _ _ _ hs => hs.1.keeps) ?_
        ⟨hmade, mem_makedirs.mpr (Or.inl rfl), fun f text hfile => by cases hfile⟩
      rintro before' detail s hbefore' ⟨hs, hd, hfiles⟩
      refine (always_writeDetail hget hnew (hbefore'.subset (by simp)) hs hd).imp ?_
      rintro - s' - ⟨hs', hd', hcontent⟩
      refine ⟨hs', hd', fun f text hfile => ?_⟩
      rw [get?_filesOf_append] at hfile
      rw [hcontent]
      cases hwritten : writtenFile detail with
      | none =>
        rw [hwritten] at hfile
        exact hfiles f text hfile
      | some file =>
        rw [hwritten] at hfile
        dsimp only at hfile ⊢
        split at hfile
        · next heq => rw [if_pos heq, hfile]
        · next hne => rw [if_neg hne, hfiles f text hfile]
    refine hloop.imp ?_
    rintro - s - ⟨hs, hd, hfiles⟩
    refine ⟨hs.keeps, fun secret hsecret hacc => ?_⟩
    rcases List.mem_append.mp hsecret with hsecret | hsecret
    · exact hs.written secret hsecret hacc
    · obtain rfl := List.mem_singleton.mp hsecret
      exact ⟨hd, hfiles⟩
  · next hskipped =>
    refine ⟨h.keeps, h.keeps, fun secret hsecret hacc => ?_⟩
    rcases List.mem_append.mp hsecret with hsecret | hsecret
    · exact h.written secret hsecret hacc
    · obtain rfl := List.mem_singleton.mp hsecret
      exact absurd hacc hskipped

/-! ### The directories that are removed -/

theorem mem_secretNames {d : String} : d ∈ secretNames secrets ↔
    ∃ details, secrets.get? d = some details ∧ details.isAccepted = true := by
  simp [secretNames, ← Dict.mem_entries_iff]

/-- The directories of other names do not matter. -/
theorem WrittenAll.of_other (h : WrittenAll secrets v secrets.entries store) {d : String}
    (hd : d ∉ secretNames secrets) {store' : SecretStore}
    (hsame : ∀ d', d' ≠ d → store'.get? d' = store.get? d') :
    WrittenAll secrets v secrets.entries store' := by
  have hother : ∀ d' details, secrets.get? d' = some details → details.isAccepted = true →
      store'.get? d' = store.get? d' := by
    intro d' details hget haccepted
    refine hsame d' ?_
    rintro rfl
    exact hd (mem_secretNames.mpr ⟨details, hget, haccepted⟩)
  refine ⟨fun d' details hget haccepted f hnone => ?_, fun secret hsecret haccepted => ?_⟩
  · rw [SecretStore.content, hother d' details hget haccepted]
    exact h.keeps d' details hget haccepted f hnone
  · have hget := hother secret.1 secret.2 (Dict.mem_entries_iff.mp hsecret) haccepted
    obtain ⟨hmade, hfiles⟩ := h.written secret hsecret haccepted
    refine ⟨?_, fun f text hfile => ?_⟩
    · obtain ⟨files, hmade⟩ := Dict.mem_keys_iff.mp hmade
      exact Dict.mem_keys_iff.mpr ⟨files, hget.trans hmade⟩
    · rw [SecretStore.content, hget]
      exact hfiles f text hfile

theorem always_rmtree (h : WrittenAll secrets v secrets.entries store) {d : String}
    (hd : d ∉ secretNames secrets) :
    Always SecretOp.apply (KeepsOthers secrets v)
      (fun _ s => WrittenAll secrets v secrets.entries s ∧ d ∉ s ∧ ∀ d' ∈ s, d' ∈ store)
      (rmtree d) store := by
  unfold rmtree
  refine Program.always_perform_bind.mpr ⟨h.keeps, ?_⟩
  have hloop : ∀ fileNames : List String, Always SecretOp.apply (KeepsOthers secrets v)
      (fun _ s => WrittenAll secrets v secrets.entries s ∧ ∀ d' ∈ s, d' ∈ store)
      (forEach (fun fileName => do let _ ← perform (.unlink d fileName)) fileNames) store := by
    intro fileNames
    refine Program.always_forEach (J := fun _ s => WrittenAll secrets v secrets.entries s ∧
      ∀ d' ∈ s, d' ∈ store) (fun _ _ _ hs => hs.1.keeps) ?_ ⟨h, fun _ hd' => hd'⟩
    rintro - f s - ⟨hs, hsub⟩
    have hs' := hs.of_other hd fun d' hne => get?_unlink (f := f) hne
    exact ⟨hs.keeps, hs'.keeps, hs', fun d' hd' => hsub d' (mem_modify.mp hd')⟩
  refine (hloop _).bind ?_
  rintro - s - ⟨hs, hsub⟩
  have hs' := hs.of_other hd fun d' hne => get?_rmdir hne
  have hmem : ∀ d', d' ∈ SecretOp.apply (.rmdir d) s → d' ≠ d ∧ d' ∈ s := by
    intro d' hd'
    obtain ⟨files, hfiles⟩ := Dict.mem_keys_iff.mp hd'
    rw [SecretOp.apply, Dict.get?_erase] at hfiles
    split at hfiles
    · cases hfiles
    · next hne => exact ⟨hne, Dict.mem_keys_iff.mpr ⟨files, hfiles⟩⟩
  exact ⟨hs.keeps, hs'.keeps, hs', fun hd' => (hmem d hd').1 rfl,
    fun d' hd' => hsub d' (hmem d' hd').2⟩

theorem always_deleteSecretFiles (setOrder : SetOrder)
    (h : WrittenAll secrets v secrets.entries store) :
    Always SecretOp.apply (KeepsOthers secrets v)
      (fun _ s => WrittenAll secrets v secrets.entries s ∧ ∀ d ∈ s, d ∈ secretNames secrets)
      (deleteSecretFiles setOrder (secretNames secrets)) store := by
  unfold deleteSecretFiles
  refine Program.always_perform_bind.mpr ⟨h.keeps, ?_⟩
  have hmem : ∀ d, d ∈ setOrder.order (store.keys.filter (· ∉ secretNames secrets)) ↔
      d ∈ store ∧ d ∉ secretNames secrets := by
    intro d
    rw [(setOrder.perm _).mem_iff, List.mem_filter, decide_eq_true_eq]
    rfl
  generalize setOrder.order (store.keys.filter (· ∉ secretNames secrets)) = names at hmem ⊢
  have hloop : Always SecretOp.apply (KeepsOthers secrets v)
      (fun _ s => WrittenAll secrets v secrets.entries s ∧ (∀ d ∈ s, d ∈ store) ∧
        ∀ d ∈ names, d ∉ s) (forEach rmtree names) store := by
    refine Program.always_forEach (J := fun before s => WrittenAll secrets v secrets.entries s ∧
      (∀ d ∈ s, d ∈ store) ∧ ∀ d ∈ before, d ∉ s) (fun _ _ _ hs => hs.1.keeps) ?_
      ⟨h, fun _ hd => hd, by simp⟩
    rintro before d s hbefore ⟨hs, hsub, hremoved⟩
    have hd := ((hmem d).mp (hbefore.subset (by simp))).2
    refine (always_rmtree hs hd).imp ?_
    rintro - s' - ⟨hs', hgone, hsub'⟩
    refine ⟨hs', fun d' hd' => hsub d' (hsub' d' hd'), fun d' hd' => ?_⟩
    rcases List.mem_append.mp hd' with hd' | hd'
    · exact fun hin => hremoved d' hd' (hsub' d' hin)
    · obtain rfl := List.mem_singleton.mp hd'
      exact hgone
  refine hloop.imp ?_
  rintro - s - ⟨hs, hsub, hremoved⟩
  refine ⟨hs, fun d hd => ?_⟩
  by_contra hnot
  exact hremoved d ((hmem d).mpr ⟨hsub d hd, hnot⟩) hd

/-! ### What a run ends with -/

/-- When everything is written and nothing else is there. -/
theorem view_of_writtenAll (h : WrittenAll secrets v secrets.entries store)
    (hnames : ∀ d ∈ store, d ∈ secretNames secrets) : view store = v.after (some secrets) := by
  have hgone : ∀ d, d ∉ secretNames secrets → view store d = none := by
    intro d hd
    rw [view, Dict.get?_eq_none_iff.mpr fun hin => hd (hnames d hin), Option.map_none]
  funext d
  unfold SecretView.after
  dsimp only
  cases hget : secrets.get? d with
  | none =>
    refine hgone d fun hin => ?_
    obtain ⟨details, hget', -⟩ := mem_secretNames.mp hin
    cases hget.symm.trans hget'
  | some details =>
    dsimp only
    split
    · next haccepted =>
      obtain ⟨hmade, hfiles⟩ := h.written (d, details) (Dict.mem_entries_iff.mpr hget) haccepted
      obtain ⟨files, hstored⟩ := Dict.mem_keys_iff.mp hmade
      have hcontent : ∀ f, store.content d f = files.get? f := fun f => by
        rw [SecretStore.content, hstored, Option.bind_some]
      rw [view, hstored, Option.map_some]
      congr 1
      funext f
      cases hfile : details.files.get? f with
      | some text => rw [Option.some_or, ← hcontent, hfiles f text hfile]
      | none => rw [Option.none_or, ← hcontent, h.keeps d details hget haccepted f hfile]
    · next hskipped =>
      refine hgone d fun hin => ?_
      obtain ⟨details', hget', haccepted⟩ := mem_secretNames.mp hin
      cases hget.symm.trans hget'
      exact hskipped haccepted

/-- **What a run keeps at every operation, and what it ends with.** -/
theorem always_manageSecrets (setOrder : SetOrder) (h : KeepsOthers secrets v store) :
    Always SecretOp.apply (KeepsOthers secrets v) (fun _ s => view s = v.after (some secrets))
      (manageSecrets setOrder (some secrets)) store := by
  have hcreate : Always SecretOp.apply (KeepsOthers secrets v)
      (fun _ => WrittenAll secrets v secrets.entries) (createSecretFiles secrets) store :=
    Program.always_forEach (fun _ _ _ hs => hs.keeps)
      (fun _ _ _ hbefore hs => always_createSecretFile hbefore hs) ⟨h, by simp⟩
  refine hcreate.bind fun _ s _ hs => (always_deleteSecretFiles setOrder hs).imp ?_
  rintro - s' - ⟨hs', hnames⟩
  exact view_of_writtenAll hs' hnames

end Run

/-! ### Every history of a container -/

/-- A JSON file with which the container is started until a run gets to its end, and where the
runs before are interrupted. -/
structure Restart where
  secrets : Option (Dict String SecretDetails)
  cuts : List ℕ

/-- The files after the run that gets to its end. -/
def restart (setOrder : SetOrder) (store : SecretStore) (r : Restart) : SecretStore :=
  (Program.run SecretOp.apply (manageSecrets setOrder r.secrets)
    (interrupted SecretOp.apply (manageSecrets setOrder r.secrets) store r.cuts)).1

theorem view_restart (setOrder : SetOrder) (store : SecretStore) (r : Restart) :
    view (restart setOrder store r) = (view store).after r.secrets := by
  obtain ⟨secrets, cuts⟩ := r
  cases secrets with
  | none =>
    have hnothing : ∀ s, view s = view store → Always SecretOp.apply (fun s => view s = view store)
        (fun _ s => view s = view store) (manageSecrets setOrder none) s := fun s hs => ⟨hs, hs⟩
    exact (Always.resume hnothing rfl cuts).2
  | some secrets =>
    refine (Always.resume (fun s hs => always_manageSecrets setOrder hs) ?_ cuts).2
    exact fun d _ _ _ f _ => (bind_view store d f).symm

/-- **However often runs are interrupted and repeated**, a file has the text that was written last
since its secret was without a directory, and there are no other directories than those of the
secrets that are not skipped. -/
theorem restarts_view (setOrder : SetOrder) (store : SecretStore) (history : List Restart) :
    view (Run.final (restart setOrder) store history) =
      (history.map Restart.secrets).foldl SecretView.after (view store) := by
  induction history generalizing store with
  | nil => rfl
  | cons r history ih => rw [Run.final_cons, ih, view_restart, List.map_cons, List.foldl_cons]

/-! ### The present configuration -/

/-- The files are those a run makes of the configuration in a new container. -/
def AsConfigured (secrets : Dict String SecretDetails) (store : SecretStore) : Prop :=
  view store = SecretView.after (fun _ => none) (some secrets)

theorem after_eq_iff (v : SecretView) (secrets : Dict String SecretDetails) :
    v.after (some secrets) = SecretView.after (fun _ => none) (some secrets) ↔
      ∀ d details, secrets.get? d = some details → details.isAccepted = true → ∀ f,
        details.files.get? f = none → (v d).bind (· f) = none := by
  rw [funext_iff]
  refine forall_congr' fun d => ?_
  unfold SecretView.after
  dsimp only
  cases secrets.get? d with
  | none => simp
  | some details =>
    dsimp only
    split
    · next haccepted =>
      rw [Option.some_inj, funext_iff]
      constructor
      · rintro h details' hget - f hnone
        cases hget
        simpa [hnone] using h f
      · intro h f
        cases hfile : details.files.get? f with
        | some text => rfl
        | none => simpa using h details rfl haccepted f hfile
    · next hskipped =>
      refine iff_of_true rfl fun details' hget haccepted => ?_
      cases hget
      exact absurd haccepted hskipped

/-- **When the files are those of the present configuration**: if of the files it leaves out none
was there before. -/
theorem secrets_asConfigured_iff (setOrder : SetOrder) (store : SecretStore)
    (history : List Restart) (secrets : Dict String SecretDetails) (cuts : List ℕ) :
    AsConfigured secrets
        (Run.final (restart setOrder) store (history ++ [⟨some secrets, cuts⟩])) ↔
      ∀ d details, secrets.get? d = some details → details.isAccepted = true → ∀ f,
        details.files.get? f = none →
          (Run.final (restart setOrder) store history).content d f = none := by
  rw [AsConfigured, Run.final_append, Run.final_cons, Run.final_nil, view_restart, after_eq_iff]
  simp only [bind_view]

/-- What `get_auth_v3` reads of a secret depends on the texts of its files. -/
theorem readSecret_congr {η : Type} (env : AuthEnv η) {files files' : Dict String String}
    (h : files.Same files') : readSecret env files = readSecret env files' := by
  have hvalue : getSecretValue files = getSecretValue files' := by
    funext key default required
    rw [getSecretValue, getSecretValue, h key]
  unfold readSecret
  rw [hvalue]

/-- With the files of the configuration a worker reads what is configured. -/
theorem readSecret_asConfigured {η : Type} (env : AuthEnv η) {secrets : Dict String SecretDetails}
    {store : SecretStore} (h : AsConfigured secrets store) {d : String} {details : SecretDetails}
    (hget : secrets.get? d = some details) (haccepted : details.isAccepted = true) :
    ∃ files, store.get? d = some files ∧ readSecret env files = readSecret env details.files := by
  have hview : (store.get? d).map Dict.get? = some details.files.get? := by
    refine (congrFun h d).trans ?_
    unfold SecretView.after
    dsimp only
    rw [hget]
    simp [haccepted]
  obtain ⟨files, hfiles, hsame⟩ := Option.map_eq_some_iff.mp hview
  exact ⟨files, hfiles, readSecret_congr env (congrFun hsame)⟩

/-- A secret whose privacy is configured, or left blank. -/
def adminSecret (privKey : String) : Dict String SecretDetails :=
  Dict.ofList [("admin", Dict.ofList [("userName", .str "admin"), ("authKey", .str "authentic"),
    ("privKey", .str privKey)])]

-- The key of a secret is still there when it has been blanked.
example : (Run.final (restart ⟨id, fun _ => .refl _⟩) Dict.empty
    [⟨some (adminSecret "private"), []⟩, ⟨some (adminSecret ""), [2]⟩]).content
      "admin" "privKey" = some "private" := by decide

end Secrets

end Sc4snmp
