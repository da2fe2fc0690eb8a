import Sc4snmp.Lib.Json
import Sc4snmp.Lib.Program
import Sc4snmp.Snmp.Trap

/-!
# The trap receivers

`traps.py` and the `EngineIdManager` of `common/collection_manager.py`.  A receiver saves the
engine ids of its configuration and then those of the traps it gets, one trap at a time;
several receivers share the database.  An engine id is looked for in a cache of the process,
then in the collection, and is inserted when it is in neither.  The collection has a unique
index, over which a second insert raises.

Decoding is pysnmp's: a trap comes with the engine id that was read from it.

## Main definitions

* `EngineIdDb`, `EngineIdOp` — what the receivers share, and their operations.
* `saveEngineId`, `cbFun`, `receiver` — the programs.
* `InsertsApart` — nobody is about to insert an engine id that is just being missed.

## Main results

* `missedApart_step` — receivers whose lookups are apart insert no record that is there.
* `seesTo_receiver` — what a receiver sees to among the others.
* `engineIds_saved` — **apart, no call raises, every engine id has one record and every trap
  is queued**.
-/

namespace Sc4snmp

/-! ### What the receivers share -/

/-- A document of `engine_id_records`. -/
structure EngineIdRecord where
  host : String
  securityEngineId : String
  deriving DecidableEq

/-- The collection under its unique index, and the queue of the traps. -/
structure EngineIdDb where
  records : List EngineIdRecord
  queue : List TrapWork
  unique : (records.map EngineIdRecord.securityEngineId).Nodup

/-- The operations of the receivers. -/
inductive EngineIdOp
  | distinct
  | findOne (securityEngineId : String)
  | insertOne (record : EngineIdRecord)
  | applyAsync (work : TrapWork)

namespace EngineIdDb

/-- The engine ids there are records of. -/
def ids (db : EngineIdDb) : List String := db.records.map EngineIdRecord.securityEngineId

/-- What an operation does to the database.  A second insert raises, and leaves it as it is. -/
def apply : EngineIdOp → EngineIdDb → EngineIdDb
  | .distinct, db => db
  | .findOne _, db => db
  | .insertOne record, db =>
    if h : record.securityEngineId ∈ db.ids then db
    else
      { db with
        records := db.records ++ [record]
        unique := by
          rw [List.map_append, List.map_singleton, ← List.concat_eq_append]
          exact List.nodup_concat _ _ |>.mpr ⟨h, db.unique⟩ }
  | .applyAsync work, db => { db with queue := db.queue ++ [work] }

/-- An operation that raises: an insert of an engine id that has a record. -/
def Raises (db : EngineIdDb) : EngineIdOp → Prop
  | .insertOne record => record.securityEngineId ∈ db.ids
  | _ => False

end EngineIdDb

/-- A program of a receiver. -/
abbrev Receiving := Program EngineIdOp EngineIdDb

open Program (perform)

/-! ### The manager -/

/-- The pattern of `engine_id_record_schema`: the end is also in front of a last newline. -/
def isValidEngineId (securityEngineId : String) : Bool :=
  let digits := securityEngineId.toList.takeWhile Json.isHex
  let rest := securityEngineId.toList.dropWhile Json.isHex
  !digits.isEmpty && (rest.isEmpty || rest = [Char.ofNat 10])

/-- `save_engine_id`, with the cache of the process. -/
def saveEngineId (cache : List String) (host securityEngineId : String) :
    Receiving (Except PyError (List String)) :=
  if securityEngineId ∈ cache then .done (.ok cache)
  else if isValidEngineId securityEngineId then do
    let db ← perform (.findOne securityEngineId)
    if securityEngineId ∈ db.ids then return .ok (securityEngineId :: cache)
    else do
      let db ← perform (.insertOne ⟨host, securityEngineId⟩)
      return if securityEngineId ∈ db.ids then .error .other else .ok (securityEngineId :: cache)
  else .done (.ok cache)

/-! ### The receiver -/

/-- The setting of a receiver. -/
structure ReceiverEnv where
  /-- `MAX_TRAP_VARBINDS_TO_DECODE`. -/
  maxTrapVarbindsToDecode : ℕ
  /-- `INCLUDE_SECURITY_CONTEXT_ID`. -/
  includeSecurityContextId : Bool

/-- A trap as pysnmp hands it over, with the engine id `decode_security_context` reads. -/
structure ReceivedTrap where
  deviceIp : String
  varbinds : List TrapPair
  engineId : Option String

/-- The engine id of a trap, unless it is empty. -/
def ReceivedTrap.decodedEngineId (t : ReceivedTrap) : Option String := t.engineId.filter (· ≠ "")

/-- The work of a trap. -/
def ReceivedTrap.work (env : ReceiverEnv) (t : ReceivedTrap) : TrapWork where
  data := limitTrapVarbindPairs env.maxTrapVarbindsToDecode t.varbinds
  host := t.deviceIp
  fields :=
    if env.includeSecurityContextId then
      t.decodedEngineId.map fun id => Dict.ofList [("context_engine_id", id)]
    else none

/-- `cb_fun`. -/
def cbFun (env : ReceiverEnv) (cache : List String) (t : ReceivedTrap) :
    Receiving (Except PyError (List String)) :=
  (match t.decodedEngineId with
    | some id => saveEngineId cache t.deviceIp id
    | none => .done (.ok cache)).andThen fun cache => do
      let _ ← perform (.applyAsync (t.work env))
      return .ok cache

/-- The traps of a receiver, one after the other.  One that raises is lost. -/
def receiveTraps (env : ReceiverEnv) (cache : List String) : List ReceivedTrap → Receiving Unit
  | [] => .done ()
  | t :: ts => do
    match ← cbFun env cache t with
    | .ok cache' => receiveTraps env cache' ts
    | .error _ => receiveTraps env cache ts

/-- The loop of `_sync_engine_ids_with_mongo` over the configured engine ids. -/
def syncEngineIds (cache : List String) : List String → Receiving (Except PyError (List String))
  | [] => .done (.ok cache)
  | id :: ids => (saveEngineId cache "config" id).andThen fun cache => syncEngineIds cache ids

/-- A receiver: its configured engine ids, in the order of their set, and its traps. -/
structure TrapReceiver where
  configured : List String
  traps : List ReceivedTrap

/-- A receiver from its start on. -/
def receiver (env : ReceiverEnv) (r : TrapReceiver) : Receiving (Except PyError Unit) := do
  let db ← perform .distinct
  (syncEngineIds db.ids r.configured).andThen fun cache => do
    receiveTraps env cache r.traps
    return .ok ()

/-! ### Inserts after lookups -/

/-- The engine id an operation has looked for and not found. -/
def EngineIdOp.missed (db : EngineIdDb) : EngineIdOp → Option String
  | .findOne id => if id ∈ db.ids then none else some id
  | _ => none

/-- A program inserts an engine id only right after it has missed it; it may just have missed
one. -/
def InsertsMissed {α : Type} : Receiving α → Option String → Prop
  | .done _, missed => missed = none
  | .step op next, some id => (∃ record, op = .insertOne record ∧ record.securityEngineId = id) ∧
      ∀ db, InsertsMissed (next db) none
  | .step op next, none => (∀ record, op ≠ .insertOne record) ∧
      ∀ db, InsertsMissed (next db) (op.missed db)

section InsertsMissed

variable {α β : Type}

theorem InsertsMissed.bind {p : Receiving α} {missed : Option String} {f : α → Receiving β}
    (h : InsertsMissed p missed) (hf : ∀ a, InsertsMissed (f a) none) :
    InsertsMissed (p >>= f) missed := by
  induction p generalizing missed with
  | done a =>
    cases h
    exact hf a
  | step op next ih =>
    cases missed with
    | none => exact ⟨h.1, fun db => ih db (h.2 db)⟩
    | some id => exact ⟨h.1, fun db => ih db (h.2 db)⟩

theorem InsertsMissed.andThen {p : Receiving (Except PyError α)} {missed : Option String}
    {f : α → Receiving (Except PyError β)} (h : InsertsMissed p missed)
    (hf : ∀ a, InsertsMissed (f a) none) : InsertsMissed (p.andThen f) missed := by
  refine h.bind ?_
  rintro (err | a)
  · rfl
  · exact hf a

theorem insertsMissed_saveEngineId (cache : List String) (host id : String) :
    InsertsMissed (saveEngineId cache host id) none := by
  unfold saveEngineId
  split
  · rfl
  · split
    · refine ⟨nofun, fun db => ?_⟩
      change InsertsMissed (if id ∈ db.ids then _ else _) (if id ∈ db.ids then none else some id)
      split
      · rfl
      · exact ⟨⟨_, rfl, rfl⟩, fun db => rfl⟩
    · rfl

theorem insertsMissed_cbFun (env : ReceiverEnv) (cache : List String) (t : ReceivedTrap) :
    InsertsMissed (cbFun env cache t) none := by
  unfold cbFun
  refine InsertsMissed.andThen ?_ fun cache' => ⟨nofun, fun db => rfl⟩
  split
  · exact insertsMissed_saveEngineId _ _ _
  · rfl

theorem insertsMissed_receiveTraps (env : ReceiverEnv) (cache : List String)
    (ts : List ReceivedTrap) : InsertsMissed (receiveTraps env cache ts) none := by
  induction ts generalizing cache with
  | nil => rfl
  | cons t ts ih =>
    unfold receiveTraps
    refine (insertsMissed_cbFun env cache t).bind ?_
    rintro (err | cache')
    · exact ih cache
    · exact ih cache'

theorem insertsMissed_syncEngineIds (cache ids : List String) :
    InsertsMissed (syncEngineIds cache ids) none := by
  induction ids generalizing cache with
  | nil => rfl
  | cons id ids ih => exact (insertsMissed_saveEngineId cache "config" id).andThen ih

theorem insertsMissed_receiver (env : ReceiverEnv) (r : TrapReceiver) :
    InsertsMissed (receiver env r) none := by
  refine ⟨nofun, fun db => ?_⟩
  refine (insertsMissed_syncEngineIds db.ids r.configured).andThen ?_
  intro cache
  exact (insertsMissed_receiveTraps env cache r.traps).bind fun _ => rfl

end InsertsMissed

/-! ### Apart from each other -/

section Apart

variable {ι α : Type} [DecidableEq ι]

/-- The next operation of a program inserts an engine id. -/
def AboutToInsert (p : Receiving α) (id : String) : Prop :=
  ∃ record next, p = .step (.insertOne record) next ∧ record.securityEngineId = id

/-- When a receiver misses an engine id, no other one is about to insert it. -/
def InsertsApart (ps : ι → Receiving α) (db : EngineIdDb) (i : ι) : Prop :=
  ∀ id next, ps i = .step (.findOne id) next → id ∉ db.ids →
    ∀ j, j ≠ i → ¬ AboutToInsert (ps j) id

/-- **The invariant**: each receiver has missed at most one engine id, which nobody has saved
and no other receiver has missed. -/
def MissedApart (ps : ι → Receiving α) (db : EngineIdDb) : Prop :=
  ∃ missed : ι → Option String, (∀ i, InsertsMissed (ps i) (missed i)) ∧
    (∀ i id, missed i = some id → id ∉ db.ids) ∧
      ∀ i j id, missed i = some id → missed j = some id → i = j

theorem InsertsMissed.aboutToInsert {p : Receiving α} {id : String}
    (h : InsertsMissed p (some id)) : AboutToInsert p id := by
  cases p with
  | done a => cases h
  | step op next =>
    obtain ⟨⟨record, rfl, hid⟩, -⟩ := h
    exact ⟨record, next, rfl, hid⟩

theorem mem_ids_apply {db : EngineIdDb} {op : EngineIdOp} {id : String}
    (h : id ∈ (EngineIdDb.apply op db).ids) :
    id ∈ db.ids ∨ ∃ record, op = .insertOne record ∧ record.securityEngineId = id := by
  cases op with
  | insertOne record =>
    rw [EngineIdDb.apply] at h
    split at h
    · exact Or.inl h
    · rw [EngineIdDb.ids, List.map_append, List.mem_append, List.map_singleton,
        List.mem_singleton] at h
      exact h.imp_right fun hid => ⟨record, rfl, hid.symm⟩
  | _ => exact Or.inl h

theorem missed_eq_some {db : EngineIdDb} {op : EngineIdOp} {id : String}
    (h : op.missed db = some id) : op = .findOne id ∧ id ∉ db.ids := by
  cases op with
  | findOne id' =>
    rw [EngineIdOp.missed] at h
    split at h
    · cases h
    · next hnot =>
      cases h
      exact ⟨rfl, hnot⟩
  | _ => cases h

/-- What a program inserts it has missed. -/
theorem InsertsMissed.step {op : EngineIdOp} {next : EngineIdDb → Receiving α}
    {missed : Option String} (h : InsertsMissed (.step op next) missed) :
    (∀ db, InsertsMissed (next db) (op.missed db)) ∧
      ∀ record, op = .insertOne record → missed = some record.securityEngineId := by
  cases missed with
  | none => exact ⟨h.2, fun record hop => absurd hop (h.1 record)⟩
  | some id =>
    obtain ⟨⟨record, rfl, rfl⟩, hnext⟩ := h
    refine ⟨hnext, fun record' hop => ?_⟩
    cases hop
    rfl

/-- A turn of receivers that are apart. -/
theorem missedApart_step {ps : ι → Receiving α} {db : EngineIdDb} {i : ι} {op : EngineIdOp}
    {next : EngineIdDb → Receiving α} (h : MissedApart ps db) (hapart : InsertsApart ps db i)
    (hi : ps i = .step op next) : ¬ db.Raises op ∧
      MissedApart (Function.update ps i (next db)) (EngineIdDb.apply op db) := by
  obtain ⟨missed, hinserts, hfresh, hdistinct⟩ := h
  have hstep := hinserts i
  rw [hi] at hstep
  obtain ⟨hnext, hinsert⟩ := hstep.step
  refine ⟨?_, Function.update missed i (op.missed db), ?_, ?_, ?_⟩
  · cases op with
    | insertOne record => exact hfresh i _ (hinsert record rfl)
    | _ => exact not_false
  · intro j
    by_cases hj : j = i
    · subst hj
      rw [Function.update_self, Function.update_self]
      exact hnext db
    · rw [Function.update_of_ne hj, Function.update_of_ne hj]
      exact hinserts j
  · intro j id hid hmem
    by_cases hj : j = i
    · subst hj
      rw [Function.update_self] at hid
      obtain ⟨rfl, hnot⟩ := missed_eq_some hid
      exact hnot hmem
    · rw [Function.update_of_ne hj] at hid
      rcases mem_ids_apply hmem with hmem | ⟨record, hop, rfl⟩
      · exact hfresh j id hid hmem
      · exact hj (hdistinct j i _ hid (hinsert record hop))
  · -- what the receiver has just missed nobody else is about to insert
    have hother : ∀ j id, j ≠ i → op.missed db = some id → missed j ≠ some id := by
      intro j id hj hid hmissed
      obtain ⟨rfl, hnot⟩ := missed_eq_some hid
      have habout := hinserts j
      rw [hmissed] at habout
      exact hapart _ next hi hnot j hj habout.aboutToInsert
    intro j k id hj hk
    by_cases hji : j = i
    · by_cases hki : k = i
      · exact hji.trans hki.symm
      · rw [hji, Function.update_self] at hj
        rw [Function.update_of_ne hki] at hk
        exact absurd hk (hother k id hki hj)
    · rw [Function.update_of_ne hji] at hj
      by_cases hki : k = i
      · rw [hki, Function.update_self] at hk
        exact absurd hj (hother j id hji hk)
      · rw [Function.update_of_ne hki] at hk
        exact hdistinct j k id hj hk

end Apart

/-! ### What a receiver sees to -/

/-- Records and queue have grown at their ends. -/
def EngineIdDb.Extends (db db' : EngineIdDb) : Prop :=
  db.records <+: db'.records ∧ db.queue <+: db'.queue

namespace EngineIdDb

variable {db db' db'' : EngineIdDb}

theorem Extends.rfl : db.Extends db := ⟨List.prefix_refl _, List.prefix_refl _⟩

theorem Extends.trans (h : db.Extends db') (h' : db'.Extends db'') : db.Extends db'' :=
  ⟨h.1.trans h'.1, h.2.trans h'.2⟩

theorem Extends.ids (h : db.Extends db') {id : String} (hid : id ∈ db.ids) : id ∈ db'.ids :=
  (h.1.map _).subset hid

theorem extends_apply (op : EngineIdOp) : db.Extends (apply op db) := by
  cases op with
  | insertOne record =>
    rw [apply]
    split
    · exact Extends.rfl
    · exact ⟨List.prefix_append _ _, List.prefix_refl _⟩
  | applyAsync work => exact ⟨List.prefix_refl _, List.prefix_append _ _⟩
  | _ => exact Extends.rfl

end EngineIdDb

/-- What a receiver sees to among others, as long as no insert raises. -/
def SeesTo {α : Type} (Q : α → EngineIdDb → Prop) (p : Receiving α) (db : EngineIdDb) : Prop :=
  Program.Ensures EngineIdDb.apply (fun db op => ¬ db.Raises op) EngineIdDb.Extends Q p db

/-- The engine ids of the cache are saved. -/
def CacheSaved (cache : List String) (db : EngineIdDb) : Prop := ∀ id ∈ cache, id ∈ db.ids

/-- The valid ones among some engine ids are saved. -/
def ValidSaved (ids : List String) (db : EngineIdDb) : Prop :=
  ∀ id ∈ ids, isValidEngineId id = true → id ∈ db.ids

/-- Traps are queued, in their order, and their valid engine ids are saved. -/
def TrapsHandled (env : ReceiverEnv) (ts : List ReceivedTrap) (db : EngineIdDb) : Prop :=
  List.Sublist (ts.map (ReceivedTrap.work env)) db.queue ∧
    ValidSaved (ts.filterMap ReceivedTrap.decodedEngineId) db

section SeesTo

variable {db db' : EngineIdDb} {env : ReceiverEnv} {cache : List String}

theorem CacheSaved.mono (h : CacheSaved cache db) (hdb : db.Extends db') : CacheSaved cache db' :=
  fun id hid => hdb.ids (h id hid)

theorem ValidSaved.mono {ids : List String} (h : ValidSaved ids db) (hdb : db.Extends db') :
    ValidSaved ids db' := fun id hid hvalid => hdb.ids (h id hid hvalid)

theorem TrapsHandled.mono {ts : List ReceivedTrap} (h : TrapsHandled env ts db)
    (hdb : db.Extends db') : TrapsHandled env ts db' :=
  ⟨h.1.trans hdb.2.sublist, h.2.mono hdb⟩

/-- **`save_engine_id`** among others. -/
theorem seesTo_saveEngineId (host id : String) (h : CacheSaved cache db) :
    SeesTo (fun r db' => ∃ cache', r = .ok cache' ∧ CacheSaved cache' db' ∧ ValidSaved [id] db' ∧
      db.Extends db') (saveEngineId cache host id) db := by
  have hsaved : ∀ {db'}, db.Extends db' → id ∈ db'.ids → ∃ cache',
      (.ok (id :: cache) : Except PyError (List String)) = .ok cache' ∧ CacheSaved cache' db' ∧
        ValidSaved [id] db' ∧ db.Extends db' := by
    intro db' hdb hid
    refine ⟨_, rfl, List.forall_mem_cons.mpr ⟨hid, h.mono hdb⟩, ?_, hdb⟩
    exact List.forall_mem_singleton.mpr fun _ => hid
  unfold saveEngineId
  split
  · next hcached =>
    -- an id of the cache is in the database, whatever others have done since
    intro db' hdb
    exact ⟨cache, rfl, h.mono hdb,
      List.forall_mem_singleton.mpr fun _ => h.mono hdb id hcached, hdb⟩
  · split
    · refine Program.ensures_perform_bind.mpr fun db₁ hdb₁ _ => ⟨EngineIdDb.Extends.rfl, ?_⟩
      split
      · next hfound => exact fun db₂ hdb₂ => hsaved (hdb₁.trans hdb₂) (hdb₂.ids hfound)
      · refine Program.ensures_perform_bind.mpr ?_
        intro db₂ hdb₂ hraises
        -- the insert does not raise, so that nobody has inserted the id since the find
        have hmissing : id ∉ db₂.ids := hraises
        have hinserted : id ∈ (EngineIdDb.apply (.insertOne ⟨host, id⟩) db₂).ids := by
          rw [EngineIdDb.apply, dif_neg hmissing]
          simp [EngineIdDb.ids]
        refine ⟨EngineIdDb.extends_apply _, fun db₃ hdb₃ => ?_⟩
        rw [if_neg hmissing]
        have hdb : db.Extends db₃ :=
          hdb₁.trans (hdb₂.trans ((EngineIdDb.extends_apply _).trans hdb₃))
        exact hsaved hdb (hdb₃.ids hinserted)
    · next hinvalid =>
      intro db' hdb
      exact ⟨cache, rfl, h.mono hdb, List.forall_mem_singleton.mpr fun h => absurd h hinvalid, hdb⟩

/-- **`cb_fun`** among others: the trap is queued after the ones before it. -/
theorem seesTo_cbFun {before : List ReceivedTrap} (t : ReceivedTrap) (h : CacheSaved cache db)
    (hbefore : TrapsHandled env before db) :
    SeesTo (fun r db' => ∃ cache', r = .ok cache' ∧ CacheSaved cache' db' ∧
      TrapsHandled env (before ++ [t]) db') (cbFun env cache t) db := by
  have hid : SeesTo (fun r db' => ∃ cache', r = .ok cache' ∧ CacheSaved cache' db' ∧
      ValidSaved t.decodedEngineId.toList db' ∧ db.Extends db')
      (match t.decodedEngineId with
        | some id => saveEngineId cache t.deviceIp id
        | none => .done (.ok cache)) db := by
    cases t.decodedEngineId with
    | some id => exact seesTo_saveEngineId t.deviceIp id h
    | none => exact fun db' hdb => ⟨cache, rfl, h.mono hdb, List.forall_mem_nil _, hdb⟩
  refine Program.ensures_andThen (fun _ => EngineIdDb.Extends.rfl) (hid.imp ?_)
  rintro _ db₁ ⟨cache', rfl, hcache, hvalid, hdb₁⟩
  refine ⟨cache', rfl, Program.ensures_perform_bind.mpr fun db₂ hdb₂ _ => ?_⟩
  refine ⟨EngineIdDb.extends_apply _, fun db₃ hdb₃ => ⟨cache', rfl, ?_, ?_, ?_⟩⟩
  · exact hcache.mono (hdb₂.trans ((EngineIdDb.extends_apply _).trans hdb₃))
  · -- the queue of the works before it has grown, and then by this one
    have hqueue := hbefore.1.trans (hdb₁.trans hdb₂).2.sublist
    rw [List.map_append, List.map_singleton]
    exact (hqueue.append_right [t.work env]).trans hdb₃.2.sublist
  · have hdb : db₁.Extends db₃ := hdb₂.trans ((EngineIdDb.extends_apply _).trans hdb₃)
    rw [List.filterMap_append]
    intro id hmem
    rcases List.mem_append.mp hmem with hmem | hmem
    · exact (hbefore.2.mono (hdb₁.trans hdb)) id hmem
    · refine (hvalid.mono hdb) id ?_
      cases ht : t.decodedEngineId <;> simp_all

/-- The traps of a receiver. -/
theorem seesTo_receiveTraps {before : List ReceivedTrap} (ts : List ReceivedTrap)
    (h : CacheSaved cache db) (hbefore : TrapsHandled env before db) :
    SeesTo (fun _ db' => TrapsHandled env (before ++ ts) db') (receiveTraps env cache ts) db := by
  induction ts generalizing cache before db with
  | nil =>
    intro db' hdb
    rw [List.append_nil]
    exact hbefore.mono hdb
  | cons t ts ih =>
    refine Program.ensures_bind (fun _ => EngineIdDb.Extends.rfl) ?_
    refine (seesTo_cbFun t h hbefore).imp ?_
    rintro _ db₁ ⟨cache', rfl, hcache, hhandled⟩
    have hrest := ih hcache hhandled
    rw [List.append_assoc] at hrest
    exact hrest

/-- The configured engine ids. -/
theorem seesTo_syncEngineIds {before : List String} (ids : List String) (h : CacheSaved cache db)
    (hbefore : ValidSaved before db) :
    SeesTo (fun r db' => ∃ cache', r = .ok cache' ∧ CacheSaved cache' db' ∧
      ValidSaved (before ++ ids) db') (syncEngineIds cache ids) db := by
  induction ids generalizing cache before db with
  | nil =>
    intro db' hdb
    rw [List.append_nil]
    exact ⟨cache, rfl, h.mono hdb, hbefore.mono hdb⟩
  | cons id ids ih =>
    refine Program.ensures_andThen (fun _ => EngineIdDb.Extends.rfl) ?_
    refine (seesTo_saveEngineId "config" id h).imp ?_
    rintro _ db₁ ⟨cache', rfl, hcache, hvalid, hdb₁⟩
    have hboth : ValidSaved (before ++ [id]) db₁ := by
      intro id' hmem
      rcases List.mem_append.mp hmem with hmem | hmem
      · exact (hbefore.mono hdb₁) id' hmem
      · exact hvalid id' hmem
    have hrest := ih hcache hboth
    rw [List.append_assoc] at hrest
    exact ⟨cache', rfl, hrest⟩

/-- **A receiver** among others. -/
theorem seesTo_receiver (env : ReceiverEnv) (r : TrapReceiver) (db : EngineIdDb) :
    SeesTo (fun result db' => result = .ok () ∧ ValidSaved r.configured db' ∧
      TrapsHandled env r.traps db') (receiver env r) db := by
  refine Program.ensures_perform_bind.mpr fun db₁ _ _ => ⟨EngineIdDb.Extends.rfl, ?_⟩
  refine Program.ensures_andThen (fun _ => EngineIdDb.Extends.rfl) ?_
  have hcached : CacheSaved db₁.ids db₁ := fun _ hid => hid
  have hnone : ValidSaved [] db₁ := List.forall_mem_nil _
  have hsync := seesTo_syncEngineIds r.configured hcached hnone
  refine hsync.imp ?_
  rintro _ db₂ ⟨cache, rfl, hcache, hconfigured⟩
  refine ⟨cache, rfl, Program.ensures_bind (fun _ => EngineIdDb.Extends.rfl) ?_⟩
  have hnone : TrapsHandled env [] db₂ := ⟨List.nil_sublist _, List.forall_mem_nil _⟩
  have htraps := seesTo_receiveTraps r.traps hcache hnone
  refine (htraps.grown EngineIdDb.Extends.rfl EngineIdDb.Extends.trans).imp ?_
  rintro _ db₃ ⟨hhandled, hdb₃⟩ db₄ hdb₄
  exact ⟨rfl, hconfigured.mono (hdb₃.trans hdb₄), hhandled.mono hdb₄⟩

end SeesTo

/-! ### Any interleaving -/

/-- The receivers at their start. -/
def receivers {ι : Type} (env : ReceiverEnv) (rs : ι → TrapReceiver) :
    ι → Receiving (Except PyError Unit) :=
  fun i => receiver env (rs i)

/-- **Receivers whose lookups are apart save their engine ids**: in every order of their
operations no insert raises, and where a receiver has ended, each of its valid engine ids has
one record and its traps are queued. -/
theorem engineIds_saved {ι : Type} [DecidableEq ι] (env : ReceiverEnv) (rs : ι → TrapReceiver)
    (db : EngineIdDb) (schedule : List ι)
    (hapart : Program.Throughout EngineIdDb.apply InsertsApart (receivers env rs) db schedule) :
    (∀ e ∈ Program.trace EngineIdDb.apply (receivers env rs) db schedule, ¬ e.1.Raises e.2) ∧
    ∀ i result, (Program.interleave EngineIdDb.apply (receivers env rs) db schedule).1 i =
      .done result → result = .ok () ∧
        (∀ id ∈ (rs i).configured ++ (rs i).traps.filterMap ReceivedTrap.decodedEngineId,
          isValidEngineId id = true →
            (Program.interleave EngineIdDb.apply (receivers env rs) db schedule).2.ids.count id =
              1) ∧
        List.Sublist ((rs i).traps.map (ReceivedTrap.work env))
          (Program.interleave EngineIdDb.apply (receivers env rs) db schedule).2.queue := by
  have hstart : MissedApart (receivers env rs) db :=
    ⟨fun _ => none, fun i => insertsMissed_receiver env (rs i), nofun, nofun⟩
  have hharmless := Program.harmless_of_throughout EngineIdDb.apply
    (fun db op => ¬ db.Raises op)
    (fun _ _ _ _ _ h hC hi => missedApart_step h hC hi) hstart schedule hapart
  refine ⟨hharmless, fun i result hdone => ?_⟩
  -- each receiver sees to its ids and traps among steps that only add to the database
  have hsees := Program.ensures_interleave (fun _ => EngineIdDb.Extends.rfl)
    EngineIdDb.Extends.trans schedule (fun i => seesTo_receiver env (rs i) db) hharmless i
  change Program.Ensures _ _ _ _
    ((Program.interleave EngineIdDb.apply (receivers env rs) db schedule).1 i) _ at hsees
  rw [hdone] at hsees
  obtain ⟨hresult, hconfigured, hqueue, htraps⟩ := hsees _ EngineIdDb.Extends.rfl
  refine ⟨hresult, fun id hid hvalid => ?_, hqueue⟩
  have hmem := (List.mem_append.mp hid).elim (fun h => hconfigured id h hvalid)
    fun h => htraps id h hvalid
  exact List.count_eq_one_of_mem (EngineIdDb.unique _) hmem

/-- A receiver of one trap from the engine `80003a8c04`. -/
def oneTrap (deviceIp : String) : TrapReceiver :=
  ⟨[], [⟨deviceIp, [], some "80003a8c04"⟩]⟩

/-- Two receivers. -/
def twoReceivers (second : Bool) : TrapReceiver :=
  oneTrap (if second then "10.0.0.2" else "10.0.0.1")

/-- A database without records. -/
def emptyEngineIdDb : EngineIdDb := ⟨[], [], List.nodup_nil⟩

/-- The second receiver comes after the first: both traps are queued. -/
theorem engineIds_saved_serial :
    List.Sublist ((twoReceivers true).traps.map (ReceivedTrap.work ⟨0, false⟩))
      (Program.interleave EngineIdDb.apply (receivers ⟨0, false⟩ twoReceivers) emptyEngineIdDb
        [false, false, false, false, true, true, true]).2.queue := by
  refine ((engineIds_saved ⟨0, false⟩ twoReceivers emptyEngineIdDb
    [false, false, false, false, true, true, true] ?_).2 true (.ok ()) rfl).2.2
  refine And.intro nofun (And.intro ?_ (And.intro nofun (And.intro nofun (And.intro nofun
    (And.intro nofun (And.intro nofun trivial))))))
  -- when the first receiver misses the engine id, the second has not begun
  rintro id next - - j hj ⟨record, next', hnext, -⟩
  cases j with
  | false => exact hj rfl
  | true => cases hnext

/-- Both receivers miss the engine id before one of them has inserted it. -/
theorem engineIds_saved_fails : ¬ ∀ (env : ReceiverEnv) (rs : Bool → TrapReceiver)
    (db : EngineIdDb) (schedule : List Bool),
    ∀ e ∈ Program.trace EngineIdDb.apply (receivers env rs) db schedule, ¬ e.1.Raises e.2 := by
  intro h
  refine h ⟨0, false⟩ twoReceivers emptyEngineIdDb [false, true, false, true, false, true]
    (EngineIdDb.apply (.insertOne ⟨"10.0.0.1", "80003a8c04"⟩) emptyEngineIdDb,
      .insertOne ⟨"10.0.0.2", "80003a8c04"⟩) ?_ ?_
  · exact List.mem_of_getElem? (i := 5) rfl
  · exact List.mem_singleton_self _

end Sc4snmp
