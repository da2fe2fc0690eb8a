import Mathlib.Data.List.Basic
import Mathlib.Data.List.Infix
import Sc4snmp.Lib.Dict
import Sc4snmp.Lib.Program
import Sc4snmp.Lib.PyVal

/-!
# Authentication of requests

`snmp/auth.py` builds what a request authenticates with.  The engine id of an SNMPv3 target that
is not configured is found with a probe: an observer is registered on an engine, a request is
sent, and the observer keeps the engine id of the last message that the engine has taken.  An
observer sees the messages of every target which its engine has sent a request to.

The checks of a discovery run at the same time and share one engine.  `get_discovery_auth` keeps
the probe off that engine: it fills in the engine's own id while the secret is read, and takes it
out again, or replaces it with what a probe finds on an engine of its own.

A coroutine is a program, with an operation where others may take their turn.  An engine takes
messages only from targets that it has sent a request to.  What pysnmp, the sockets and Unicode
decide is a parameter.

## Main definitions

* `getSecretValue`, `getAuthV3`, `getAuth`, `getSecurityEngineId`, `getDiscoveryAuth` — the
  source.
* `checkDevice` — what a check of a discovery does with engines.
* `OwnEngineId` — the engine id of the data is configured, absent, or that of the target.

## Main results

* `discovery_auth_own` — **no check of a discovery has the engine id of another target**, whatever
  the schedule and the messages.
-/

namespace Sc4snmp

open Program (perform)

/-! ### Secrets -/

/-- Names of `AuthProtocolMap`. -/
inductive AuthProtocol
  | md5 | sha | sha224 | sha256 | sha384 | sha512 | none
  deriving DecidableEq, Repr

/-- Values of `PrivProtocolMap`. -/
inductive PrivProtocol
  | des | des3 | aes128 | aes192 | aes192Blumenthal | aes256 | aes256Blumenthal | none
  deriving DecidableEq, Repr

/-- `AuthProtocolMap.get`, with its default. -/
def authProtocolOf (name : String) : AuthProtocol :=
  (List.lookup name [("MD5", .md5), ("SHA", .sha), ("SHA224", .sha224), ("SHA256", .sha256),
    ("SHA384", .sha384), ("SHA512", .sha512), ("NONE", .none)]).getD .none

/-- `PrivProtocolMap.get`, with its default. -/
def privProtocolOf (name : String) : PrivProtocol :=
  (List.lookup name [("DES", .des), ("3DES", .des3), ("AES", .aes128), ("AES128", .aes128),
    ("AES192", .aes192), ("AES192BLMT", .aes192Blumenthal), ("AES256", .aes256),
    ("AES256BLMT", .aes256Blumenthal), ("NONE", .none)]).getD .none

/-- The value of `security_engine`: a text, or a `_ConfiguredSecurityEngineId`. -/
inductive SecurityEngine
  | text (s : String)
  | configured (s : String)
  deriving DecidableEq

def SecurityEngine.value : SecurityEngine → String
  | text s => s
  | configured s => s

/-- What these functions read of a record. -/
structure AuthRecord where
  version : Option String
  address : String
  community : Option String
  secret : Option String
  securityEngine : Option SecurityEngine

/-- `UsmUserData`. -/
structure UsmUserData (η : Type) where
  userName : String
  authenticationKey : Option String
  privacyKey : Option String
  authProtocol : AuthProtocol
  privProtocol : PrivProtocol
  securityEngineId : Option η
  authKeyType : ℤ
  privKeyType : ℤ

/-- What a request authenticates with. -/
inductive AuthData (η : Type)
  | usm (user : UsmUserData η)
  /-- `CommunityData`. -/
  | community (name : Option String) (mpModel : ℕ)

/-- What the functions depend on; `η` are the engine ids. -/
structure AuthEnv (η : Type) where
  /-- The texts of the files of the secret with the name, if it has a directory. -/
  secretFiles : String → Option (Dict String String)
  upper : String → String
  isdigit : String → Bool
  /-- `OctetString(hexValue=...)`. -/
  ofHex : String → Except PyError η
  hex : η → String
  /-- `setup_transport_target`. -/
  setupTransportTarget : AuthRecord → Except PyError Unit
  /-- Whether `get_cmd` of a probe raises. -/
  probeRaises : AuthRecord → Option PyError
  /-- `USM_KEY_TYPE_LOCALIZED`. -/
  usmKeyTypeLocalized : ℤ

variable {η : Type}

/-- `get_secret_value`. -/
def getSecretValue (files : Dict String String) (key : String) (default : String)
    (required : Bool) : Except PyError String :=
  match files.get? key with
  | some content => .ok (String.ofList (content.toList.filter (· ≠ Char.ofNat 10)))
  | none => if required then .error .other else .ok default

/-- `isdigit` of a security engine; that of a `_ConfiguredSecurityEngineId` is false. -/
def SecurityEngine.isdigit (env : AuthEnv η) : SecurityEngine → Bool
  | text s => env.isdigit s
  | configured _ => false

/-- The security engine that counts as configured. -/
def AuthRecord.configuredEngine (env : AuthEnv η) (rt : AuthRecord) : Option SecurityEngine :=
  rt.securityEngine.filter fun e => e.value ≠ "" && !e.isdigit env

/-- What `get_auth_v3` reads of a secret; the engine id is still to come. -/
def readSecret (env : AuthEnv η) (files : Dict String String) :
    Except PyError (UsmUserData η) := do
  let username ← getSecretValue files "userName" "" true
  let authKey ← getSecretValue files "authKey" "" false
  let privKey ← getSecretValue files "privKey" "" false
  let authProtocol ← getSecretValue files "authProtocol" "" false
  let privProtocol ← getSecretValue files "privProtocol" "NONE" false
  let authKeyType ← getSecretValue files "authKeyType" "0" false
  let authKeyType ← (PyVal.str authKeyType).toInt
  let privKeyType ← getSecretValue files "privKeyType" "0" false
  let privKeyType ← (PyVal.str privKeyType).toInt
  return {
    userName := username
    authenticationKey := if authKey = "" then none else some authKey
    privacyKey := if privKey = "" then none else some privKey
    authProtocol := authProtocolOf (env.upper authProtocol)
    privProtocol := privProtocolOf (env.upper privProtocol)
    securityEngineId := none
    authKeyType
    privKeyType }

/-! ### Engines -/

/-- An observer of an engine, and what `capture_security_engine_id` has kept for it. -/
structure Observer (η : Type) where
  engine : ℕ
  registered : Bool
  context : Option η

/-- The engines of a process. -/
structure AuthWorld (η : Type) where
  /-- The target an engine has been made for; the engine of a task is for none. -/
  engines : List (Option String)
  observers : List (Observer η)
  /-- The targets that an engine has sent requests to. -/
  contacted : List (ℕ × String)
  /-- The messages that engines have taken, with their source and its engine id. -/
  messages : List (ℕ × String × η)

inductive AuthOp (η : Type)
  | newEngine (target : String)
  | registerObserver (engine : ℕ)
  | unregisterObserver (observer : ℕ)
  /-- `get_cmd` sends its request. -/
  | request (engine : ℕ) (target : String)
  /-- A coroutine goes on. -/
  | resume
  | message (engine : ℕ) (source : String) (securityEngineId : η)
  | closeDispatcher (engine : ℕ)

namespace AuthWorld

/-- A message reaches the observers that are registered. -/
def deliver (engine : ℕ) (id : η) (o : Observer η) : Observer η :=
  if o.engine = engine ∧ o.registered then { o with context := some id } else o

def apply : AuthOp η → AuthWorld η → AuthWorld η
  | .newEngine target, w => { w with engines := w.engines ++ [some target] }
  | .registerObserver engine, w => { w with observers := w.observers ++ [⟨engine, true, none⟩] }
  | .unregisterObserver observer, w =>
    { w with observers := w.observers.modify observer fun o => { o with registered := false } }
  | .request engine target, w => { w with contacted := (engine, target) :: w.contacted }
  | .resume, w => w
  | .message engine source id, w =>
    if (engine, source) ∈ w.contacted then
      { w with
        observers := w.observers.map (deliver engine id)
        messages := (engine, source, id) :: w.messages }
    else w
  | .closeDispatcher engine, w =>
    { w with contacted := w.contacted.filter fun e => e.1 ≠ engine }

/-- A task with its engine. -/
def start : AuthWorld η := ⟨[none], [], [], []⟩

/-- What an observer has kept. -/
def contextOf (w : AuthWorld η) (observer : ℕ) : Option η :=
  (w.observers[observer]?).bind Observer.context

end AuthWorld

/-- A coroutine. -/
abbrev Authenticating (η : Type) := Program (AuthOp η) (AuthWorld η)

/-! ### The source -/

/-- `get_security_engine_id`. -/
def getSecurityEngineId (env : AuthEnv η) (rt : AuthRecord) (snmpEngine : ℕ) :
    Authenticating η (Except PyError η) :=
  match env.setupTransportTarget rt with
  | .error err => .done (.error err)
  | .ok () => do
    let w ← perform (.registerObserver snmpEngine)
    let observer := w.observers.length
    let _ ← perform (.request snmpEngine rt.address)
    let w ← perform .resume
    let result : Except PyError η :=
      match env.probeRaises rt with
      | some err => .error err
      -- `fetch_security_engine_id`
      | none =>
        match w.contextOf observer with
        | some id => .ok id
        | none => .error .other
    let _ ← perform (.unregisterObserver observer)
    return result

/-- `get_auth_v3`. -/
def getAuthV3 (env : AuthEnv η) (rt : AuthRecord) (snmpEngine : ℕ) :
    Authenticating η (Except PyError (UsmUserData η)) :=
  match rt.secret with
  | none => .done (.error .typeError)
  | some secret =>
    match env.secretFiles secret with
    | none => .done (.error .other)
    | some files =>
      match readSecret env files with
      | .error err => .done (.error err)
      | .ok user =>
        match rt.configuredEngine env with
        | some e =>
          .done ((env.ofHex e.value).map fun id => { user with securityEngineId := some id })
        | none => (getSecurityEngineId env rt snmpEngine).andThen fun id =>
          .done (.ok { user with securityEngineId := some id })

/-- `get_auth`. -/
def getAuth (env : AuthEnv η) (rt : AuthRecord) (snmpEngine : ℕ) :
    Authenticating η (Except PyError (AuthData η)) :=
  if rt.version = some "1" then .done (.ok (.community rt.community 0))
  else if rt.version = some "2c" then .done (.ok (.community rt.community 1))
  else if rt.version = some "3" then
    (getAuthV3 env rt snmpEngine).andThen fun user => .done (.ok (.usm user))
  else .done (.error .other)

/-- The keys depend on an engine id. -/
def UsmUserData.usesLocalizedKey (env : AuthEnv η) (user : UsmUserData η) : Bool :=
  user.authenticationKey.isSome && user.authKeyType = env.usmKeyTypeLocalized ||
    user.privacyKey.isSome && user.privKeyType = env.usmKeyTypeLocalized

/-- The end of `get_discovery_auth`: the temporary engine id is taken out or replaced. -/
def settleEngineId (env : AuthEnv η) (rt : AuthRecord) :
    AuthData η → Authenticating η (Except PyError (AuthData η))
  | .community _ _ => .done (.error .attributeError)
  | .usm user =>
    if user.usesLocalizedKey env then do
      let w ← perform (.newEngine rt.address)
      let probeEngine := w.engines.length
      let id ← getSecurityEngineId env rt probeEngine
      let _ ← perform (.closeDispatcher probeEngine)
      return id.map fun id => .usm { user with securityEngineId := some id }
    else .done (.ok (.usm { user with securityEngineId := none }))

/-- `get_discovery_auth`, on an engine with the id `localId`. -/
def getDiscoveryAuth (env : AuthEnv η) (localId : η) (rt : AuthRecord) (snmpEngine : ℕ) :
    Authenticating η (Except PyError (AuthData η)) :=
  if rt.version ≠ some "3" ∨ (rt.configuredEngine env).isSome then getAuth env rt snmpEngine
  else
    let authRecord := { rt with securityEngine := some (.configured (env.hex localId)) }
    (getAuth env authRecord snmpEngine).andThen (settleEngineId env rt)

/-- What `check_snmp_device` does with engines: it authenticates and sends its request. -/
def checkDevice (env : AuthEnv η) (localId : η) (rt : AuthRecord) (snmpEngine : ℕ) :
    Authenticating η (Except PyError (AuthData η)) :=
  match env.setupTransportTarget rt with
  | .error err => .done (.error err)
  | .ok () => (getDiscoveryAuth env localId rt snmpEngine).andThen fun auth => do
    let _ ← perform (.request snmpEngine rt.address)
    let _ ← perform .resume
    return .ok auth

/-! ### What the world keeps -/

namespace AuthWorld

/-- Engines that were made for a target take messages of that target only, and observers are on
such engines. -/
structure Sound (w : AuthWorld η) : Prop where
  shared : w.engines[0]? = some none
  contacted : ∀ e ∈ w.contacted, ∃ made, w.engines[e.1]? = some made ∧
    ∀ target, made = some target → e.2 = target
  messages : ∀ m ∈ w.messages, ∃ made, w.engines[m.1]? = some made ∧
    ∀ target, made = some target → m.2.1 = target
  observers : ∀ o ∈ w.observers, (∃ target, w.engines[o.engine]? = some (some target)) ∧
    ∀ id, o.context = some id → ∃ source, (o.engine, source, id) ∈ w.messages

/-- What the others may do to the world. -/
structure Extends (w w' : AuthWorld η) : Prop where
  engines : w.engines <+: w'.engines
  observers : w.observers.map Observer.engine <+: w'.observers.map Observer.engine
  messages : w.messages ⊆ w'.messages
  sound : w.Sound → w'.Sound

variable {w w' w'' : AuthWorld η}

theorem Extends.rfl : w.Extends w :=
  ⟨List.prefix_rfl, List.prefix_rfl, fun _ h => h, fun h => h⟩

theorem Extends.trans (h : w.Extends w') (h' : w'.Extends w'') : w.Extends w'' :=
  ⟨h.engines.trans h'.engines, h.observers.trans h'.observers,
    fun _ hm => h'.messages (h.messages hm), fun hs => h'.sound (h.sound hs)⟩

theorem sound_start : (start : AuthWorld η).Sound :=
  ⟨rfl, fun _ h => (by cases h), fun _ h => (by cases h), fun _ h => (by cases h)⟩

/-- An engine stays what it has been made for. -/
theorem Extends.engine (h : w.Extends w') {engine : ℕ} {made : Option String}
    (hw : w.engines[engine]? = some made) : w'.engines[engine]? = some made := by
  obtain ⟨rest, hrest⟩ := h.engines
  rw [← hrest, List.getElem?_append_left (List.getElem?_eq_some_iff.mp hw).1, hw]

/-- What an observer is still registered on. -/
theorem Extends.observer (h : w.Extends w') {observer engine : ℕ}
    (hw : (w.observers.map Observer.engine)[observer]? = some engine) :
    (w'.observers.map Observer.engine)[observer]? = some engine := by
  obtain ⟨rest, hrest⟩ := h.observers
  rw [← hrest, List.getElem?_append_left (List.getElem?_eq_some_iff.mp hw).1, hw]

/-- An engine that is made is the next one. -/
theorem extends_newEngine (w : AuthWorld η) (target : String) :
    w.Extends (apply (.newEngine target) w) ∧
      (apply (.newEngine target) w).engines[w.engines.length]? = some (some target) := by
  have hengine : ∀ {e : ℕ} {made}, w.engines[e]? = some made →
      (w.engines ++ [some target])[e]? = some made := fun h =>
    (List.getElem?_append_left (List.getElem?_eq_some_iff.mp h).1).trans h
  refine ⟨⟨List.prefix_append _ _, List.prefix_rfl, fun _ h => h, fun h => ?_⟩, ?_⟩
  · refine ⟨hengine h.shared, fun e he => ?_, fun m hm => ?_, fun o ho => ?_⟩
    · obtain ⟨made, hmade, htarget⟩ := h.contacted e he
      exact ⟨made, hengine hmade, htarget⟩
    · obtain ⟨made, hmade, htarget⟩ := h.messages m hm
      exact ⟨made, hengine hmade, htarget⟩
    · obtain ⟨⟨target', htarget⟩, hcontext⟩ := h.observers o ho
      exact ⟨⟨target', hengine htarget⟩, hcontext⟩
  · simp [apply]

/-- An observer on an engine that was made for a target. -/
theorem extends_registerObserver {engine : ℕ} {target : String}
    (hengine : w.engines[engine]? = some (some target)) :
    w.Extends (apply (.registerObserver engine) w) ∧
      ((apply (.registerObserver engine) w).observers.map Observer.engine)[w.observers.length]? =
        some engine := by
  refine ⟨⟨List.prefix_rfl, ?_, fun _ h => h, fun h => ?_⟩, ?_⟩
  · simp [apply]
  · refine ⟨h.shared, h.contacted, h.messages, fun o ho => ?_⟩
    rcases List.mem_append.mp ho with ho | ho
    · exact h.observers o ho
    · rw [List.mem_singleton.mp ho]
      exact ⟨⟨target, hengine⟩, fun id hid => by cases hid⟩
  · simp [apply]

theorem extends_unregisterObserver (w : AuthWorld η) (observer : ℕ) :
    w.Extends (apply (.unregisterObserver observer) w) := by
  have hmodify : ∀ j : ℕ, (apply (.unregisterObserver observer) w).observers[j]? =
      (w.observers[j]?).map fun o => if observer = j then { o with registered := false } else o :=
    fun j => List.getElem?_modify _ _ _ _
  refine ⟨List.prefix_rfl, ?_, fun _ h => h, fun h => ?_⟩
  · have hmap : (apply (.unregisterObserver observer) w).observers.map Observer.engine =
        w.observers.map Observer.engine := by
      refine List.ext_getElem? fun j => ?_
      rw [List.getElem?_map, List.getElem?_map, hmodify, Option.map_map]
      congr 1
      funext o
      simp only [Function.comp]
      split <;> rfl
    rw [hmap]
  · refine ⟨h.shared, h.contacted, h.messages, fun o ho => ?_⟩
    obtain ⟨j, hj⟩ := List.mem_iff_getElem?.mp ho
    rw [hmodify] at hj
    obtain ⟨old, hold, rfl⟩ := Option.map_eq_some_iff.mp hj
    have hkept := h.observers old (List.mem_of_getElem? hold)
    split <;> exact hkept

/-- A request from the shared engine, or from one made for its target. -/
theorem extends_request {engine : ℕ} {target : String} {made : Option String}
    (hengine : w.engines[engine]? = some made) (hmade : made = none ∨ made = some target) :
    w.Extends (apply (.request engine target) w) := by
  refine ⟨List.prefix_rfl, List.prefix_rfl, fun _ h => h, fun h => ?_⟩
  refine ⟨h.shared, fun e he => ?_, h.messages, h.observers⟩
  rcases List.mem_cons.mp he with rfl | he
  · refine ⟨made, hengine, fun target' htarget' => ?_⟩
    rcases hmade with rfl | rfl
    · cases htarget'
    · exact Option.some.inj htarget'
  · exact h.contacted e he

theorem extends_message (w : AuthWorld η) (engine : ℕ) (source : String) (id : η) :
    w.Extends (apply (.message engine source id) w) := by
  unfold apply
  dsimp only
  split
  · next hcontacted =>
    have hengine : ∀ o : Observer η, (deliver engine id o).engine = o.engine := by
      intro o
      unfold deliver
      split <;> rfl
    refine ⟨List.prefix_rfl, ?_, fun _ h => List.mem_cons_of_mem _ h, fun h => ?_⟩
    · have hcomp : Observer.engine ∘ deliver engine id = Observer.engine := funext hengine
      rw [List.map_map, hcomp]
    · refine ⟨h.shared, h.contacted, fun m hm => ?_, fun o ho => ?_⟩
      · rcases List.mem_cons.mp hm with rfl | hm
        · exact h.contacted _ hcontacted
        · exact h.messages m hm
      · obtain ⟨old, hold, rfl⟩ := List.mem_map.mp ho
        obtain ⟨htarget, hcontext⟩ := h.observers old hold
        rw [hengine]
        refine ⟨htarget, fun id' hid => ?_⟩
        unfold deliver at hid
        split at hid
        · next hreached =>
          cases hid
          exact ⟨source, hreached.1 ▸ List.mem_cons_self⟩
        · obtain ⟨source', hsource⟩ := hcontext id' hid
          exact ⟨source', List.mem_cons_of_mem _ hsource⟩
  · exact .rfl

theorem extends_closeDispatcher (w : AuthWorld η) (engine : ℕ) :
    w.Extends (apply (.closeDispatcher engine) w) := by
  refine ⟨List.prefix_rfl, List.prefix_rfl, fun _ h => h, fun h => ?_⟩
  exact ⟨h.shared, fun e he => h.contacted e (List.mem_of_mem_filter he), h.messages, h.observers⟩

end AuthWorld

open AuthWorld

/-! ### One coroutine -/

/-- What a coroutine sees to among others. -/
abbrev Sees {α : Type} (Q : α → AuthWorld η → Prop) (p : Authenticating η α) (w : AuthWorld η) :
    Prop :=
  Program.Ensures AuthWorld.apply (fun _ _ => True) Extends Q p w

variable {env : AuthEnv η} {rt : AuthRecord} {w : AuthWorld η}

/-- **A probe on an engine that was made for its target** finds an engine id which the target
has sent. -/
theorem sees_getSecurityEngineId {engine : ℕ} (hw : w.Sound)
    (hengine : w.engines[engine]? = some (some rt.address)) :
    Sees (fun result w' => ∀ id, result = .ok id → (engine, rt.address, id) ∈ w'.messages)
      (getSecurityEngineId env rt engine) w := by
  unfold getSecurityEngineId
  cases env.setupTransportTarget rt with
  | error err => exact fun w' _ id h => by cases h
  | ok =>
    refine Program.ensures_perform_bind.mpr fun w₁ h₁ _ => ?_
    obtain ⟨hregister, hobserver⟩ := extends_registerObserver (h₁.engine hengine)
    refine ⟨hregister, Program.ensures_perform_bind.mpr fun w₂ h₂ _ => ?_⟩
    have hengine₂ := (hregister.trans h₂).engine (h₁.engine hengine)
    have hrequest := extends_request hengine₂ (.inr rfl)
    refine ⟨hrequest, Program.ensures_perform_bind.mpr fun w₃ h₃ _ => ?_⟩
    refine ⟨.rfl, Program.ensures_perform_bind.mpr fun w₄ h₄ _ => ?_⟩
    refine ⟨extends_unregisterObserver _ _, fun w₅ h₅ id hid => ?_⟩
    -- the observer has kept what a message to its engine said
    have hkept : w₃.contextOf w₁.observers.length = some id := by
      cases hraises : env.probeRaises rt with
      | some err =>
        rw [hraises] at hid
        cases hid
      | none =>
        rw [hraises] at hid
        cases hcontext : w₃.contextOf w₁.observers.length with
        | none =>
          rw [hcontext] at hid
          cases hid
        | some id' =>
          rw [hcontext] at hid
          exact congrArg some (Except.ok.inj hid)
    have hchain := (hrequest.trans h₃)
    have hsound₃ : w₃.Sound := hchain.sound (h₂.sound (hregister.sound (h₁.sound hw)))
    obtain ⟨o, ho, hid'⟩ := Option.bind_eq_some_iff.mp hkept
    have hon : o.engine = engine := by
      have hthere := (h₂.trans hchain).observer hobserver
      rw [List.getElem?_map, ho] at hthere
      exact Option.some.inj hthere
    obtain ⟨source, hsource⟩ := (hsound₃.observers o (List.mem_of_getElem? ho)).2 id hid'
    obtain ⟨made, hmade, htarget⟩ := hsound₃.messages _ hsource
    rw [hon, hchain.engine hengine₂] at hmade
    have hown : source = rt.address := htarget _ (Option.some.inj hmade).symm
    rw [hon, hown] at hsource
    exact h₅.messages ((extends_unregisterObserver _ _).messages (h₄.messages hsource))

/-- With a configured engine id nothing is probed. -/
theorem getAuth_of_configured {e : SecurityEngine} (hversion : rt.version = some "3")
    (he : rt.configuredEngine env = some e) (engine : ℕ) :
    ∃ result, getAuth env rt engine = .done result ∧ ∀ auth, result = .ok auth →
      ∃ user id, auth = .usm user ∧ env.ofHex e.value = .ok id ∧
        user.securityEngineId = some id := by
  rw [getAuth, hversion, if_neg (by decide), if_neg (by decide), if_pos rfl, getAuthV3]
  cases rt.secret with
  | none => exact ⟨_, rfl, fun auth h => by cases h⟩
  | some secret =>
    dsimp only
    cases env.secretFiles secret with
    | none => exact ⟨_, rfl, fun auth h => by cases h⟩
    | some files =>
      dsimp only
      cases readSecret env files with
      | error err => exact ⟨_, rfl, fun auth h => by cases h⟩
      | ok user =>
        dsimp only
        rw [he]
        dsimp only
        cases hid : env.ofHex e.value with
        | error err => exact ⟨_, rfl, fun auth h => by cases h⟩
        | ok id =>
          refine ⟨_, rfl, fun auth h => ?_⟩
          cases h
          exact ⟨_, id, rfl, rfl, rfl⟩

/-- The other versions have no engine id. -/
theorem getAuth_of_version (hversion : rt.version ≠ some "3") (engine : ℕ) :
    ∃ result, getAuth env rt engine = .done result := by
  unfold getAuth
  split
  · exact ⟨_, rfl⟩
  · split
    · exact ⟨_, rfl⟩
    · exact ⟨_, rfl⟩

/-- The engine id of SNMPv3 data is the configured one.  Where none is configured, it is absent,
or, if a key depends on it, what the target has sent to an engine that was made for it. -/
def OwnEngineId (env : AuthEnv η) (rt : AuthRecord) (auth : AuthData η) (w : AuthWorld η) : Prop :=
  rt.version = some "3" → ∃ user, auth = .usm user ∧
    (∀ e, rt.configuredEngine env = some e →
      ∃ id, env.ofHex e.value = .ok id ∧ user.securityEngineId = some id) ∧
    (rt.configuredEngine env = none →
      user.usesLocalizedKey env = false ∧ user.securityEngineId = none ∨
      user.usesLocalizedKey env = true ∧ ∃ engine id, user.securityEngineId = some id ∧
        (engine, rt.address, id) ∈ w.messages)

theorem OwnEngineId.mono {auth : AuthData η} {w' : AuthWorld η} (h : OwnEngineId env rt auth w)
    (hw : w.Extends w') : OwnEngineId env rt auth w' := by
  intro hversion
  obtain ⟨user, hauth, hconfigured, hprobed⟩ := h hversion
  refine ⟨user, hauth, hconfigured, fun hnone => ?_⟩
  rcases hprobed hnone with habsent | ⟨hlocalized, engine, id, hid, hmem⟩
  · exact .inl habsent
  · exact .inr ⟨hlocalized, engine, id, hid, hw.messages hmem⟩

/-- The temporary engine id does not stay. -/
theorem sees_settleEngineId {user : UsmUserData η} (hw : w.Sound)
    (hnone : rt.configuredEngine env = none) :
    Sees (fun result w' => ∀ auth, result = .ok auth → OwnEngineId env rt auth w')
      (settleEngineId env rt (.usm user)) w := by
  unfold settleEngineId
  dsimp only
  split
  · next hlocalized =>
    refine Program.ensures_perform_bind.mpr fun w₁ h₁ _ => ?_
    obtain ⟨hnew, hengine⟩ := extends_newEngine w₁ rt.address
    refine ⟨hnew, Program.ensures_bind (fun _ => .rfl) ?_⟩
    refine (sees_getSecurityEngineId (hnew.sound (h₁.sound hw)) hengine).imp fun id w₂ hid => ?_
    refine Program.ensures_perform_bind.mpr fun w₃ h₃ _ => ?_
    refine ⟨extends_closeDispatcher _ _, fun w₄ h₄ auth hauth _ => ?_⟩
    cases id with
    | error err => cases hauth
    | ok id =>
      cases hauth
      have hmem := h₄.messages ((extends_closeDispatcher w₃ _).messages (h₃.messages (hid id rfl)))
      refine ⟨_, rfl, fun e he => (by cases hnone.symm.trans he), fun _ => ?_⟩
      exact .inr ⟨hlocalized, _, id, rfl, hmem⟩
  · next hlocalized =>
    intro w' _ auth hauth _
    cases hauth
    refine ⟨_, rfl, fun e he => (by cases hnone.symm.trans he), fun _ => ?_⟩
    exact .inl ⟨Bool.eq_false_iff.mpr hlocalized, rfl⟩

theorem sees_getDiscoveryAuth {localId : η} (hlocal : env.hex localId ≠ "") (hw : w.Sound)
    (engine : ℕ) :
    Sees (fun result w' => ∀ auth, result = .ok auth → OwnEngineId env rt auth w')
      (getDiscoveryAuth env localId rt engine) w := by
  unfold getDiscoveryAuth
  split
  · next hplain =>
    by_cases hversion : rt.version = some "3"
    · obtain ⟨e, he⟩ := Option.isSome_iff_exists.mp (hplain.resolve_left (not_not_intro hversion))
      obtain ⟨result, hresult, hok⟩ := getAuth_of_configured hversion he engine
      rw [hresult]
      intro w' _ auth hauth _
      obtain ⟨user, id, huser, hid, hset⟩ := hok auth hauth
      refine ⟨user, huser, fun e' he' => ?_, fun hnone => ?_⟩
      · cases he.symm.trans he'
        exact ⟨id, hid, hset⟩
      · cases he.symm.trans hnone
    · obtain ⟨result, hresult⟩ : ∃ result, getAuth env rt engine = .done result :=
        getAuth_of_version hversion engine
      rw [hresult]
      exact fun w' _ auth _ h => absurd h hversion
  · next hprobed =>
    rw [not_or, not_not, Option.not_isSome_iff_eq_none] at hprobed
    obtain ⟨hversion, hnone⟩ := hprobed
    -- the temporary engine id counts as configured, so that nothing is probed here
    have htemporary : ({ rt with securityEngine := some (.configured (env.hex localId)) } :
        AuthRecord).configuredEngine env = some (.configured (env.hex localId)) := by
      simp [AuthRecord.configuredEngine, SecurityEngine.value, SecurityEngine.isdigit, hlocal]
    obtain ⟨result, hresult, hok⟩ := getAuth_of_configured (by exact hversion) htemporary engine
    dsimp only
    rw [hresult]
    cases result with
    | error err => exact fun w' _ auth hauth => by cases hauth
    | ok auth =>
      obtain ⟨user, id, rfl, -, -⟩ := hok auth rfl
      exact sees_settleEngineId hw hnone

/-- A check among others. -/
theorem sees_checkDevice {localId : η} (hlocal : env.hex localId ≠ "") (hw : w.Sound) :
    Sees (fun result w' => ∀ auth, result = .ok auth → OwnEngineId env rt auth w')
      (checkDevice env localId rt 0) w := by
  unfold checkDevice
  cases env.setupTransportTarget rt with
  | error err => exact fun w' _ auth hauth => by cases hauth
  | ok =>
    refine Program.ensures_bind (fun _ => .rfl) ?_
    have hauth : Sees (fun result w' => ∀ auth, result = .ok auth → OwnEngineId env rt auth w')
        (getDiscoveryAuth env localId rt 0) w := sees_getDiscoveryAuth hlocal hw 0
    refine (hauth.grown .rfl Extends.trans).imp ?_
    rintro result w₁ ⟨hown, hw₁⟩
    cases result with
    | error err => exact fun w' _ auth hauth => by cases hauth
    | ok auth =>
      have hown₁ := hown auth rfl
      refine Program.ensures_perform_bind.mpr fun w₂ h₂ _ => ?_
      have hshared : w₂.engines[0]? = some none := ((hw₁.trans h₂).sound hw).shared
      have hrequest : w₂.Extends (apply (.request 0 rt.address) w₂) :=
        extends_request hshared (.inl rfl)
      refine ⟨hrequest, Program.ensures_perform_bind.mpr fun w₃ h₃ _ => ?_⟩
      refine ⟨.rfl, fun w₄ h₄ auth' hauth' => ?_⟩
      cases hauth'
      exact hown₁.mono ((h₂.trans hrequest).trans (h₃.trans h₄))

/-! ### Checks of a discovery -/

/-- A message that comes in. -/
structure Incoming (η : Type) where
  engine : ℕ
  source : String
  securityEngineId : η

/-- The messages, one after the other. -/
def incoming : List (Incoming η) → Authenticating η (Option (Except PyError (AuthData η)))
  | [] => .done none
  | m :: ms => do
    let _ ← perform (.message m.engine m.source m.securityEngineId)
    incoming ms

/-- The checks of a discovery, and the messages. -/
def discoveryChecks {ι : Type} (env : AuthEnv η) (localId : η) (records : ι → AuthRecord)
    (messages : List (Incoming η)) :
    Option ι → Authenticating η (Option (Except PyError (AuthData η)))
  | none => incoming messages
  | some i => do
    let result ← checkDevice env localId (records i) 0
    return some result

theorem sees_incoming (messages : List (Incoming η)) (w : AuthWorld η) :
    Sees (fun _ _ => True) (incoming messages) w := by
  induction messages generalizing w with
  | nil => exact fun _ _ => trivial
  | cons m ms ih => exact fun w' _ _ => ⟨extends_message _ _ _ _, ih _⟩

/-- **No check of a discovery has the engine id of another target**: whatever the schedule of the
checks and the messages to the engines, the engine id of a check that has authenticated is
configured, absent, or what its own target has sent, and no observer is on the shared engine.  The
id of the shared engine has octets. -/
theorem discovery_auth_own {ι : Type} [DecidableEq ι] {localId : η}
    (hlocal : env.hex localId ≠ "") (records : ι → AuthRecord) (messages : List (Incoming η))
    (schedule : List (Option ι)) :
    let final := Program.interleave AuthWorld.apply (discoveryChecks env localId records messages)
      AuthWorld.start schedule
    (∀ o ∈ final.2.observers, o.engine ≠ 0) ∧
    ∀ i auth, final.1 (some i) = .done (some (.ok auth)) →
      OwnEngineId env (records i) auth final.2 := by
  intro final
  let own : Option ι → Option (Except PyError (AuthData η)) → AuthWorld η → Prop :=
    fun i result w => ∀ j auth, i = some j → result = some (.ok auth) →
      OwnEngineId env (records j) auth w
  have hchecks : ∀ i, Sees (own i) (discoveryChecks env localId records messages i) start := by
    intro i
    cases i with
    | none => exact (sees_incoming messages start).imp fun _ _ _ j _ hj => by cases hj
    | some i =>
      refine Program.ensures_bind (fun _ => .rfl) ?_
      refine (sees_checkDevice hlocal sound_start).imp ?_
      intro result w hown w' hw' j auth hj hauth
      cases hj
      cases hauth
      exact (hown auth rfl).mono hw'
  have hrefl : ∀ w : AuthWorld η, w.Extends w := fun _ => .rfl
  have hgrown : start.Extends final.2 :=
    Program.le_interleave hrefl Extends.trans schedule hchecks fun _ _ => trivial
  refine ⟨fun o ho hshared => ?_, fun i auth hdone => ?_⟩
  · have hsound := hgrown.sound sound_start
    obtain ⟨⟨target, htarget⟩, -⟩ := hsound.observers o ho
    rw [hshared, hsound.shared] at htarget
    cases htarget
  · have hended : Sees (own (some i)) (final.1 (some i)) final.2 :=
      Program.ensures_interleave hrefl Extends.trans schedule hchecks
        (fun _ _ => trivial) (some i)
    rw [hdone] at hended
    exact hended final.2 .rfl i auth rfl rfl

/-- A process whose secrets have a localized key. -/
def localizedAuthEnv : AuthEnv ℕ where
  secretFiles _ := some ⟨[("userName", "admin"), ("authKey", "0x1f"), ("authKeyType", "2")],
    by decide⟩
  upper s := s
  isdigit _ := false
  ofHex _ := .ok 1
  hex _ := "80001f88"
  setupTransportTarget _ := .ok ()
  probeRaises _ := none
  usmKeyTypeLocalized := 2

/-- A target for each of two checks. -/
def twoTargets (second : Bool) : AuthRecord where
  version := some "3"
  address := if second then "10.0.0.2" else "10.0.0.1"
  community := none
  secret := some "sc4snmp"
  securityEngine := none

/-- Two checks with engines for their probes. -/
theorem discovery_auth_own_localized :
    ∃ w user, user.securityEngineId = some 7 ∧
      w.messages = [(1, "10.0.0.1", 7), (2, "10.0.0.2", 9)] ∧
      OwnEngineId localizedAuthEnv (twoTargets false) (.usm user) w := by
  have hlocal : localizedAuthEnv.hex 1 ≠ "" := by decide
  have hown := (discovery_auth_own hlocal twoTargets
    [⟨1, "10.0.0.2", 9⟩, ⟨2, "10.0.0.2", 9⟩, ⟨1, "10.0.0.1", 7⟩]
    ([some false, some true, some false, some true, some false, some true, none, none, none] ++
      List.replicate 5 (some false))).2 false _ rfl
  exact ⟨_, _, rfl, rfl, hown⟩

/-- Two probes on one engine: the first takes what the second target has sent. -/
example : ∃ w, Program.interleave AuthWorld.apply
    (fun i : Option Bool => match i with
      | none => do
        let _ ← perform (.message 0 "10.0.0.2" 9)
        return .ok 0
      | some second => getSecurityEngineId localizedAuthEnv (twoTargets second) 0)
    AuthWorld.start [some false, some true, some false, some true, none, some false, some false] =
      w ∧ w.1 (some false) = .done (.ok 9) := ⟨_, rfl, rfl⟩

end Sc4snmp
