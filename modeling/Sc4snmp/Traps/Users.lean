import Sc4snmp.Lib.Dict
import Sc4snmp.Lib.PyVal
import Sc4snmp.Lib.Run

/-!
# The users of the trap receiver

`main` and the dynamic registration of `traps.py`.  The configured SNMPv3 users are registered
for the engine ids that are known at the start.  With `DISCOVER_ENGINE_ID` a datagram that
names one of them makes the receiver register all of them for its engine id, before pysnmp
parses it.

At the start an empty key counts as none; later it is passed on as it is.

What pysnmp and pyasn1 do is a parameter: the decoding of a datagram, and the octets a
hexadecimal text is read as.  The name and the engine id of a registration are its key, and
a second one under the same key replaces the first; `add_v3_user` raises for no engine id and
no key here.

## Main definitions

* `V3User`, `V3Credentials`, `UsmState` — users, what they are registered with, and the
  registrations.
* `startup`, `datagramReceived` — the two paths.
* `RegistrationsAgree` — all users are registered as the start would register them.
* `NamesEngineId` — a datagram of a known user names an engine id.

## Main results

* `datagramReceived_cases` — what a datagram can do.
* `registrations_agree_iff` — **the registrations agree in every run exactly when no engine
  id is added or no key is empty**.
-/

namespace Sc4snmp

variable {π δ : Type}

/-! ### Users and registrations -/

/-- What `main` reads of a secret; a key is `none` when it is not there.  The protocols are
constants of pysnmp. -/
structure V3User (π : Type) where
  userName : String
  authProtocol : π
  authKey : Option String
  privProtocol : π
  privKey : Option String

/-- The credentials `add_v3_user` is called with. -/
structure V3Credentials (π : Type) where
  authProtocol : π
  authKey : Option String
  privProtocol : π
  privKey : Option String

/-- The credentials at the start: `key if key else None`. -/
def V3User.startupCredentials (u : V3User π) : V3Credentials π :=
  ⟨u.authProtocol, u.authKey.filter (· ≠ ""), u.privProtocol, u.privKey.filter (· ≠ "")⟩

/-- The credentials of the dynamic registration. -/
def V3User.dynamicCredentials (u : V3User π) : V3Credentials π :=
  ⟨u.authProtocol, u.authKey, u.privProtocol, u.privKey⟩

/-- A key of the user is there and empty. -/
def V3User.hasEmptyKey (u : V3User π) : Bool := u.authKey = some "" || u.privKey = some ""

/-- The last user of a name. -/
def lastNamed (users : List (V3User π)) (userName : String) : Option (V3User π) :=
  users.reverse.find? (·.userName = userName)

/-- The registrations, by user name and engine id. -/
abbrev Registrations (π : Type) := Dict (String × List UInt8) (V3Credentials π)

/-- What a running receiver keeps. -/
structure UsmState (π : Type) where
  registered : Registrations π
  /-- `_added_engine_ids`. -/
  addedEngineIds : List String

/-- The setting, pysnmp and pyasn1. -/
structure UsersEnv (δ : Type) where
  /-- `DISCOVER_ENGINE_ID`. -/
  discoverEngineId : Bool
  /-- The octets of the engine id and the user name in the security parameters of a datagram. -/
  decode : δ → Option (List UInt8 × String)
  /-- `OctetString(hexValue=…)`. -/
  octetString : String → Except PyError (List UInt8)

/-! ### The start -/

/-- The loop over the engine ids, for one user. -/
def registerUser (env : UsersEnv δ) (u : V3User π) (ids : List String)
    (registered : Registrations π) : Except PyError (Registrations π) :=
  ids.foldlM (fun registered id => do
    let octets ← env.octetString id
    return registered.insert (u.userName, octets) u.startupCredentials) registered

/-- The start, with the users of `usernameSecrets` and all known engine ids. -/
def startup (env : UsersEnv δ) (users : List (V3User π)) (ids : List String) :
    Except PyError (UsmState π) := do
  let registered ← users.foldlM (fun registered u => registerUser env u ids registered) Dict.empty
  return { registered, addedEngineIds := ids.map Text.lower }

/-! ### A datagram -/

/-- `bytes.hex`. -/
def hexText (octets : List UInt8) : String := String.ofList (octets.flatMap Text.hexOctet)

/-- The loop of `_add_v3_user_for_new_engine_id` over the users. -/
def registerAll (users : List (V3User π)) (octets : List UInt8) (registered : Registrations π) :
    Registrations π :=
  users.foldl (fun registered u => registered.insert (u.userName, octets) u.dynamicCredentials)
    registered

/-- `(engine_id or "").strip().lower()`. -/
def normalizeEngineId (engineId : String) : String :=
  Text.lower (String.ofList (Text.strip engineId.toList))

/-- `_add_v3_user_for_new_engine_id`.  A text that is not hexadecimal raises for the first
user already. -/
def addV3UserForNewEngineId (env : UsersEnv δ) (users : List (V3User π)) (st : UsmState π)
    (engineId : String) : UsmState π :=
  let engineId := normalizeEngineId engineId
  if engineId = "" ∨ engineId ∈ st.addedEngineIds then st
  else if users.isEmpty then st
  else match env.octetString engineId with
    | .error _ => st
    | .ok octets =>
      { registered := registerAll users octets st.registered
        addedEngineIds := engineId :: st.addedEngineIds }

/-- `datagram_received`, before pysnmp gets the datagram. -/
def datagramReceived (env : UsersEnv δ) (users : List (V3User π)) (st : UsmState π)
    (datagram : δ) : UsmState π :=
  if env.discoverEngineId then
    match env.decode datagram with
    | none => st
    | some (octets, userName) =>
      let engineId := hexText octets
      if engineId ≠ "" then
        if userName ≠ "" ∧ users.any (·.userName = userName) then
          addV3UserForNewEngineId env users st engineId
        else st
      else st
  else st

/-- A run of a receiver. -/
def receiveDatagrams (env : UsersEnv δ) (users : List (V3User π)) (st : UsmState π)
    (datagrams : List δ) : UsmState π :=
  Run.final (datagramReceived env users) st datagrams

/-! ### Agreement -/

/-- Every user is registered for every added engine id, as the start would register it. -/
def RegistrationsAgree (env : UsersEnv δ) (users : List (V3User π)) (st : UsmState π) : Prop :=
  ∀ id ∈ st.addedEngineIds, ∀ u ∈ users, ∃ octets, env.octetString id = .ok octets ∧
    ∃ u', lastNamed users u.userName = some u' ∧
      st.registered.get? (u.userName, octets) = some u'.startupCredentials

/-- A datagram that names no configured user adds no engine id. -/
def UnknownAddNothing (env : UsersEnv δ) (users : List (V3User π)) (st : UsmState π) : Prop :=
  ∀ datagram octets userName, env.decode datagram = some (octets, userName) →
    (∀ u ∈ users, u.userName ≠ userName) →
      (datagramReceived env users st datagram).addedEngineIds = st.addedEngineIds

/-- A datagram names an engine id, and a configured user. -/
def NamesEngineId (env : UsersEnv δ) (users : List (V3User π)) (datagram : δ) (id : String) :
    Prop :=
  env.discoverEngineId = true ∧ ∃ octets userName, env.decode datagram = some (octets, userName) ∧
    octets ≠ [] ∧ userName ≠ "" ∧ (∃ u ∈ users, u.userName = userName) ∧ id = hexText octets

/-! ### Hexadecimal texts -/

theorem hexDigit_spec {n : ℕ} (hn : n < 16) :
    Text.isSpace n.digitChar = false ∧ n.digitChar.toLower = n.digitChar := by
  revert n
  decide

theorem mem_hexOctets {octets : List UInt8} {c : Char} (hc : c ∈ octets.flatMap Text.hexOctet) :
    Text.isSpace c = false ∧ c.toLower = c := by
  obtain ⟨b, -, hc⟩ := List.mem_flatMap.mp hc
  have hb := b.toNat_lt
  rcases List.mem_cons.mp hc with rfl | hc
  · exact hexDigit_spec (by omega)
  · rw [List.mem_singleton.mp hc]
    exact hexDigit_spec (by omega)

/-- The engine id of a datagram is normalized. -/
theorem normalizeEngineId_hexText (octets : List UInt8) :
    normalizeEngineId (hexText octets) = hexText octets := by
  rw [normalizeEngineId, hexText, String.toList_ofList,
    Text.strip_of_not_space fun c hc => (mem_hexOctets hc).1, Text.lower, String.toList_ofList]
  congr 1
  exact (List.map_congr_left fun c hc => (mem_hexOctets hc).2).trans (List.map_id _)

theorem hexText_eq_empty_iff {octets : List UInt8} : hexText octets = "" ↔ octets = [] := by
  rw [hexText, String.ofList_eq_empty_iff]
  cases octets with
  | nil => simp
  | cons b octets => simp [Text.hexOctet]

/-! ### Registrations -/

theorem lastNamed_cons (u : V3User π) (users : List (V3User π)) (userName : String) :
    lastNamed (u :: users) userName =
      (lastNamed users userName).or (if u.userName = userName then some u else none) := by
  rw [lastNamed, lastNamed, List.reverse_cons, List.find?_append]
  congr 1
  by_cases h : u.userName = userName <;> simp [h]

theorem lastNamed_isSome {users : List (V3User π)} {u : V3User π} (hu : u ∈ users) :
    ∃ u', lastNamed users u.userName = some u' := by
  rw [← Option.isSome_iff_exists, lastNamed, List.find?_isSome]
  exact ⟨u, List.mem_reverse.mpr hu, by simp⟩

/-- One user at the start. -/
theorem get?_registerUser {env : UsersEnv δ} {u : V3User π} {ids : List String}
    {registered registered' : Registrations π}
    (h : registerUser env u ids registered = .ok registered') :
    (∀ id ∈ ids, ∃ octets, env.octetString id = .ok octets) ∧
      (∀ octets, (∃ id ∈ ids, env.octetString id = .ok octets) ∨
        registered.get? (u.userName, octets) = some u.startupCredentials →
          registered'.get? (u.userName, octets) = some u.startupCredentials) ∧
      ∀ userName octets, userName ≠ u.userName →
        registered'.get? (userName, octets) = registered.get? (userName, octets) := by
  induction ids generalizing registered with
  | nil =>
    cases h
    exact ⟨List.forall_mem_nil _, fun _ h => by simpa using h, fun _ _ _ => rfl⟩
  | cons id ids ih =>
    rw [registerUser, List.foldlM_cons] at h
    obtain ⟨registered₁, hid, hrest⟩ := PyError.bind_eq_ok.mp h
    obtain ⟨octets, hoctets, hid⟩ := PyError.bind_eq_ok.mp hid
    cases hid
    obtain ⟨hall, hsame, hother⟩ := ih hrest
    refine ⟨List.forall_mem_cons.mpr ⟨⟨octets, hoctets⟩, hall⟩, ?_, ?_⟩
    · intro octets' hor
      refine hsame octets' ?_
      rw [Dict.get?_insert]
      -- the engine id at hand, or one registered before or after
      by_cases heq : octets' = octets
      · exact Or.inr (if_pos (by rw [heq]))
      · rw [if_neg fun hkey => heq (Prod.mk.inj hkey).2]
        rcases hor with ⟨id', hid', hoctets'⟩ | hold
        · rcases List.mem_cons.mp hid' with rfl | hid'
          · rw [hoctets, Except.ok.injEq] at hoctets'
            exact absurd hoctets'.symm heq
          · exact Or.inl ⟨id', hid', hoctets'⟩
        · exact Or.inr hold
    · intro userName octets' hname
      rw [hother userName octets' hname, Dict.get?_insert,
        if_neg fun hkey => hname (Prod.mk.inj hkey).1]

/-- All users at the start: of one name the last counts. -/
theorem get?_startup {env : UsersEnv δ} {users : List (V3User π)} {ids : List String}
    {registered registered' : Registrations π}
    (h : users.foldlM (fun registered u => registerUser env u ids registered) registered =
      .ok registered') {id : String} (hid : id ∈ ids) {octets : List UInt8}
    (hoctets : env.octetString id = .ok octets) (userName : String) :
    registered'.get? (userName, octets) =
      ((lastNamed users userName).map V3User.startupCredentials).or
        (registered.get? (userName, octets)) := by
  induction users generalizing registered with
  | nil =>
    cases h
    simp [lastNamed]
  | cons u users ih =>
    rw [List.foldlM_cons] at h
    obtain ⟨registered₁, hu, hrest⟩ := PyError.bind_eq_ok.mp h
    obtain ⟨-, hsame, hother⟩ := get?_registerUser hu
    rw [ih hrest, lastNamed_cons, Option.map_or, Option.or_assoc]
    congr 1
    by_cases hname : u.userName = userName
    · subst hname
      rw [if_pos rfl, hsame octets (Or.inl ⟨id, hid, hoctets⟩)]
      rfl
    · rw [if_neg hname, hother userName octets (Ne.symm hname)]
      rfl

/-- What the dynamic registration leaves. -/
theorem get?_registerAll (users : List (V3User π)) (octets octets' : List UInt8)
    (registered : Registrations π) (userName : String) :
    (registerAll users octets registered).get? (userName, octets') =
      if octets' = octets then
        ((lastNamed users userName).map V3User.dynamicCredentials).or
          (registered.get? (userName, octets'))
      else registered.get? (userName, octets') := by
  induction users generalizing registered with
  | nil => simp [registerAll, lastNamed]
  | cons u users ih =>
    have hcons : registerAll (u :: users) octets registered =
        registerAll users octets
          (registered.insert (u.userName, octets) u.dynamicCredentials) := rfl
    rw [hcons, ih, Dict.get?_insert]
    by_cases heq : octets' = octets
    · subst heq
      rw [if_pos rfl, if_pos rfl, lastNamed_cons, Option.map_or, Option.or_assoc]
      congr 1
      by_cases hname : u.userName = userName
      · subst hname
        simp
      · rw [if_neg hname, if_neg fun hkey => hname (Prod.mk.inj hkey).1.symm]
        rfl
    · rw [if_neg heq, if_neg heq, if_neg fun hkey => heq (Prod.mk.inj hkey).2]

/-! ### A run -/

/-- The credentials of both paths are the same unless a key is empty. -/
theorem startup_eq_dynamic_iff (u : V3User π) :
    u.startupCredentials = u.dynamicCredentials ↔ u.hasEmptyKey = false := by
  have hfilter : ∀ key : Option String, key.filter (· ≠ "") = key ↔ key ≠ some "" := by
    intro key
    cases key with
    | none => simp
    | some key => by_cases hkey : key = "" <;> simp [hkey]
  rw [V3User.startupCredentials, V3User.dynamicCredentials, V3User.hasEmptyKey,
    V3Credentials.mk.injEq, hfilter, hfilter]
  simp

section Datagrams

variable {env : UsersEnv δ} {users : List (V3User π)} {st : UsmState π} {datagram : δ}

/-- A datagram that names no engine id changes nothing. -/
theorem datagramReceived_of_unnamed (st : UsmState π)
    (hnames : ∀ id, ¬ NamesEngineId env users datagram id) :
    datagramReceived env users st datagram = st := by
  unfold datagramReceived
  split
  · next hdiscover =>
    split
    · rfl
    · next octets userName hdecode =>
      dsimp only
      split
      · next hoctets =>
        rw [if_neg]
        rintro ⟨hname, hany⟩
        have huser : ∃ u ∈ users, u.userName = userName := by simpa using hany
        exact hnames _ ⟨hdiscover, octets, userName, hdecode,
          hexText_eq_empty_iff.not.mp hoctets, hname, huser, rfl⟩
      · rfl
  · rfl

/-- A datagram that names an engine id has it added, if it is new. -/
theorem datagramReceived_of_named (st : UsmState π)
    (hhex : ∀ octets, env.octetString (hexText octets) = .ok octets) {octets : List UInt8}
    (hnames : NamesEngineId env users datagram (hexText octets)) :
    datagramReceived env users st datagram =
      if hexText octets ∈ st.addedEngineIds then st
      else { registered := registerAll users octets st.registered
             addedEngineIds := hexText octets :: st.addedEngineIds } := by
  obtain ⟨hdiscover, octets', userName, hdecode, hoctets, hname, huser, htext⟩ := hnames
  have hany : users.any (·.userName = userName) = true := by simpa using huser
  have hsome : ¬ users.isEmpty = true := by
    obtain ⟨u, hu, -⟩ := huser
    intro hempty
    rw [List.isEmpty_iff.mp hempty] at hu
    cases hu
  have htext' : hexText octets ≠ "" := htext ▸ hexText_eq_empty_iff.not.mpr hoctets
  unfold datagramReceived
  rw [if_pos hdiscover, hdecode]
  dsimp only
  rw [← htext, if_pos htext', if_pos ⟨hname, hany⟩, addV3UserForNewEngineId,
    normalizeEngineId_hexText]
  by_cases hadded : hexText octets ∈ st.addedEngineIds
  · rw [if_pos (Or.inr hadded), if_pos hadded]
  · rw [if_neg (not_or.mpr ⟨htext', hadded⟩), if_neg hsome, if_neg hadded, hhex]

/-- A datagram names one engine id. -/
theorem NamesEngineId.unique {id id' : String} (h : NamesEngineId env users datagram id)
    (h' : NamesEngineId env users datagram id') : id = id' := by
  obtain ⟨-, octets, userName, hdecode, -, -, -, rfl⟩ := h
  obtain ⟨-, octets', userName', hdecode', -, -, -, rfl⟩ := h'
  rw [hdecode, Option.some.injEq, Prod.mk.injEq] at hdecode'
  rw [hdecode'.1]

/-- **What a datagram can do**: it adds the engine id it names, if it is new. -/
theorem datagramReceived_cases (users : List (V3User π)) (st : UsmState π) (datagram : δ)
    (hhex : ∀ octets, env.octetString (hexText octets) = .ok octets) :
    (datagramReceived env users st datagram = st ∧
      ∀ id, NamesEngineId env users datagram id → id ∈ st.addedEngineIds) ∨
    ∃ octets, NamesEngineId env users datagram (hexText octets) ∧
      hexText octets ∉ st.addedEngineIds ∧ datagramReceived env users st datagram =
        { registered := registerAll users octets st.registered
          addedEngineIds := hexText octets :: st.addedEngineIds } := by
  by_cases hnames : ∃ id, NamesEngineId env users datagram id
  · obtain ⟨id, hself⟩ := hnames
    obtain ⟨octets, rfl⟩ : ∃ octets, id = hexText octets := by
      obtain ⟨-, octets, -, -, -, -, -, hid⟩ := hself
      exact ⟨octets, hid⟩
    have hstep := datagramReceived_of_named st hhex hself
    by_cases hadded : hexText octets ∈ st.addedEngineIds
    · refine Or.inl ⟨hstep.trans (if_pos hadded), ?_⟩
      intro id hid
      rwa [hid.unique hself]
    · exact Or.inr ⟨octets, hself, hadded, hstep.trans (if_neg hadded)⟩
  · exact Or.inl ⟨datagramReceived_of_unnamed st fun id hid => hnames ⟨id, hid⟩,
      fun id hid => absurd ⟨id, hid⟩ hnames⟩

/-- A datagram of an unknown user adds nothing. -/
theorem unknown_adds_nothing
    (hhex : ∀ octets, env.octetString (hexText octets) = .ok octets) :
    UnknownAddNothing env users st := by
  intro datagram octets userName hdecode hunknown
  rcases datagramReceived_cases users st datagram hhex with
    ⟨hsame, -⟩ | ⟨octets', ⟨-, _, userName', hdecode', -, -, ⟨u, hu, rfl⟩, -⟩, -⟩
  · rw [hsame]
  · rw [hdecode, Option.some.injEq, Prod.mk.injEq] at hdecode'
    exact absurd hdecode'.2.symm (hunknown u hu)

/-- A datagram adds the engine id it names, and keeps the others. -/
theorem mem_addedEngineIds (hhex : ∀ octets, env.octetString (hexText octets) = .ok octets)
    {id : String} (h : NamesEngineId env users datagram id ∨ id ∈ st.addedEngineIds) :
    id ∈ (datagramReceived env users st datagram).addedEngineIds := by
  rcases datagramReceived_cases users st datagram hhex with
    ⟨hsame, hknown⟩ | ⟨octets, hself, -, hstep⟩
  · rw [hsame]
    exact h.elim (hknown id) fun h => h
  · rw [hstep]
    rcases h with hid | h
    · rw [hid.unique hself]
      exact List.mem_cons_self
    · exact List.mem_cons_of_mem _ h

/-- Without empty keys a datagram keeps the agreement. -/
theorem RegistrationsAgree.datagramReceived (h : RegistrationsAgree env users st)
    (hhex : ∀ octets, env.octetString (hexText octets) = .ok octets)
    (hkeys : ∀ userName u, lastNamed users userName = some u → u.hasEmptyKey = false) :
    RegistrationsAgree env users (datagramReceived env users st datagram) := by
  rcases datagramReceived_cases users st datagram hhex with
    ⟨hsame, -⟩ | ⟨octets, -, -, hstep⟩
  · rwa [hsame]
  · rw [hstep]
    intro id hid u hu
    obtain ⟨u', hu'⟩ := lastNamed_isSome hu
    have hsame := (startup_eq_dynamic_iff u').mpr (hkeys _ _ hu')
    have hnew : (registerAll users octets st.registered).get? (u.userName, octets) =
        some u'.startupCredentials := by
      rw [get?_registerAll, if_pos rfl, hu', hsame]
      rfl
    rcases List.mem_cons.mp hid with rfl | hid
    · exact ⟨octets, hhex octets, u', hu', hnew⟩
    · obtain ⟨octets', hoctets', u'', hu'', hget⟩ := h id hid u hu
      rw [hu', Option.some.injEq] at hu''
      subst hu''
      refine ⟨octets', hoctets', u', hu', ?_⟩
      -- an id known before may have the octets of the new one
      by_cases heq : octets' = octets
      · rw [heq]
        exact hnew
      · change (registerAll users octets st.registered).get? _ = _
        rw [get?_registerAll, if_neg heq, hget]

/-- The engine ids that are added later are registered by the dynamic path. -/
def AddedDynamically (env : UsersEnv δ) (users : List (V3User π)) (known : List String)
    (st : UsmState π) : Prop :=
  ∀ id ∈ st.addedEngineIds, id ∉ known → ∀ octets, env.octetString id = .ok octets →
    ∀ userName u, lastNamed users userName = some u →
      st.registered.get? (userName, octets) = some u.dynamicCredentials

theorem AddedDynamically.datagramReceived {known : List String}
    (h : AddedDynamically env users known st)
    (hhex : ∀ octets, env.octetString (hexText octets) = .ok octets) :
    AddedDynamically env users known (datagramReceived env users st datagram) := by
  rcases datagramReceived_cases users st datagram hhex with
    ⟨hsame, -⟩ | ⟨octets, -, -, hstep⟩
  · rwa [hsame]
  · rw [hstep]
    intro id hid hnew octets' hoctets' userName u hu
    change (registerAll users octets st.registered).get? _ = _
    rw [get?_registerAll]
    by_cases heq : octets' = octets
    · rw [if_pos heq, hu]
      rfl
    · rw [if_neg heq]
      rcases List.mem_cons.mp hid with rfl | hid
      · rw [hhex, Except.ok.injEq] at hoctets'
        exact absurd hoctets'.symm heq
      · exact h id hid hnew octets' hoctets' userName u hu

/-- An engine id that is added later is registered with keys that are not those of the start,
when the last user of a name has an empty one. -/
theorem AddedDynamically.not_agree {known : List String} (h : AddedDynamically env users known st)
    {id : String} (hid : id ∈ st.addedEngineIds) (hnew : id ∉ known) {userName : String}
    {u : V3User π} (hu : lastNamed users userName = some u) (hempty : u.hasEmptyKey = true) :
    ¬ RegistrationsAgree env users st := by
  intro hagree
  have hin : u ∈ users := List.mem_reverse.mp (List.mem_of_find?_eq_some hu)
  have hname : u.userName = userName := by simpa using List.find?_some hu
  obtain ⟨octets, hoctets, u', hu', hget⟩ := hagree id hid u hin
  rw [hname] at hu' hget
  rw [hu, Option.some.injEq] at hu'
  subst hu'
  rw [h id hid hnew octets hoctets userName u hu, Option.some.injEq] at hget
  rw [(startup_eq_dynamic_iff u).mp hget.symm] at hempty
  cases hempty

/-- The registrations of the start agree. -/
theorem registrationsAgree_startup {ids : List String}
    (hlower : ∀ text, env.octetString (Text.lower text) = env.octetString text)
    (h : startup env users ids = .ok st) : RegistrationsAgree env users st := by
  obtain ⟨registered, hregistered, h⟩ := PyError.bind_eq_ok.mp h
  cases h
  intro lowered hmem u hu
  obtain ⟨id, hid, rfl⟩ := List.mem_map.mp hmem
  obtain ⟨u', hu'⟩ := lastNamed_isSome hu
  have hread : ∃ octets, env.octetString id = .ok octets := by
    cases users with
    | nil => cases hu
    | cons u₀ users =>
      rw [List.foldlM_cons] at hregistered
      obtain ⟨registered₁, hu₀, -⟩ := PyError.bind_eq_ok.mp hregistered
      exact (get?_registerUser hu₀).1 id hid
  obtain ⟨octets, hoctets⟩ := hread
  refine ⟨octets, (hlower id).trans hoctets, u', hu', ?_⟩
  change registered.get? (u.userName, octets) = _
  rw [get?_startup hregistered hid hoctets, hu']
  rfl

end Datagrams

/-- **The registrations agree in every state of every run exactly when** the run names no new
engine id or no user's key is empty, of users of one name that of the last. -/
theorem registrations_agree_iff (env : UsersEnv δ)
    (hlower : ∀ text, env.octetString (Text.lower text) = env.octetString text)
    (hhex : ∀ octets, env.octetString (hexText octets) = .ok octets)
    (users : List (V3User π)) (ids : List String) (st : UsmState π)
    (hstart : startup env users ids = .ok st) (datagrams : List δ) :
    (∀ n, RegistrationsAgree env users (receiveDatagrams env users st (datagrams.take n)) ∧
      UnknownAddNothing env users (receiveDatagrams env users st (datagrams.take n))) ↔
    (∀ datagram ∈ datagrams, ∀ id, NamesEngineId env users datagram id →
      id ∈ ids.map Text.lower) ∨
    ∀ userName u, lastNamed users userName = some u → u.hasEmptyKey = false := by
  have hadded : st.addedEngineIds = ids.map Text.lower := by
    obtain ⟨registered, -, h⟩ := PyError.bind_eq_ok.mp hstart
    cases h
    rfl
  have hagree := registrationsAgree_startup hlower hstart
  constructor
  · intro hall
    by_contra hnot
    rw [not_or] at hnot
    obtain ⟨hnew, hkeys⟩ := hnot
    push Not at hnew hkeys
    obtain ⟨datagram, hdatagram, id, hnames, hid⟩ := hnew
    obtain ⟨userName, u, hu, hempty⟩ := hkeys
    -- the engine id is added on the way, and registered by the dynamic path
    have hdynamic : AddedDynamically env users (ids.map Text.lower) st := by
      intro id' hid' hnew'
      rw [hadded] at hid'
      exact absurd hid' hnew'
    have hst : AddedDynamically env users (ids.map Text.lower)
        (receiveDatagrams env users st datagrams) :=
      Run.final_of_steps hdynamic fun _ _ _ h => h.datagramReceived hhex
    have hmem : id ∈ (receiveDatagrams env users st datagrams).addedEngineIds :=
      Run.final_of_step (I := fun st : UsmState π => id ∈ st.addedEngineIds) hdatagram
        (fun _ => mem_addedEngineIds hhex (Or.inl hnames))
        (fun _ _ h => mem_addedEngineIds hhex (Or.inr h)) st
    have hlast := (hall datagrams.length).1
    rw [List.take_length] at hlast
    exact hst.not_agree hmem hid hu (by simpa using hempty) hlast
  · intro hcond n
    refine ⟨?_, unknown_adds_nothing hhex⟩
    rcases hcond with hold | hkeys
    · -- no datagram changes anything
      have hsame : receiveDatagrams env users st (datagrams.take n) = st := by
        refine Run.final_of_steps (I := fun st' => st' = st) rfl ?_
        intro d hd st' hst'
        rw [hst']
        rcases datagramReceived_cases users st d hhex with
          ⟨hsame, -⟩ | ⟨octets, hnames, hnew, -⟩
        · exact hsame
        · rw [hadded] at hnew
          exact absurd (hold d (List.mem_of_mem_take hd) _ hnames) hnew
      rw [hsame]
      exact hagree
    · exact Run.final_of_steps hagree fun _ _ _ h => h.datagramReceived hhex hkeys

/-! ### A reader of hexadecimal texts -/

/-- The value of a hexadecimal digit. -/
def hexDigitValue (c : Char) : Option ℕ :=
  if '0' ≤ c.toLower ∧ c.toLower ≤ '9' then some (c.toLower.toNat - 48)
  else if 'a' ≤ c.toLower ∧ c.toLower ≤ 'f' then some (c.toLower.toNat - 87)
  else none

/-- Two digits are an octet; a last one is its upper half. -/
def readHex : List Char → Except PyError (List UInt8)
  | [] => .ok []
  | [c] => match hexDigitValue c with
    | some d => .ok [UInt8.ofNat (16 * d)]
    | none => .error .valueError
  | c :: c' :: cs => match hexDigitValue c, hexDigitValue c', readHex cs with
    | some d, some d', .ok octets => .ok (UInt8.ofNat (16 * d + d') :: octets)
    | _, _, _ => .error .valueError

theorem toLower_toLower (c : Char) : c.toLower.toLower = c.toLower := by
  by_cases h : c.val ≥ 'A'.val ∧ c.val ≤ 'Z'.val
  · have hval : c.toLower.val = c.val + ('a'.val - 'A'.val) := by
      rw [Char.toLower.eq_def, dif_pos h]
    have hlower : ¬ (c.toLower.val ≥ 'A'.val ∧ c.toLower.val ≤ 'Z'.val) := by
      rw [hval]
      simp only [ge_iff_le, UInt32.le_iff_toNat_le, UInt32.toNat_add] at h ⊢
      simp at h ⊢
      omega
    rw [Char.toLower.eq_def c.toLower, dif_neg hlower]
  · rw [Char.toLower.eq_def c, dif_neg h, Char.toLower.eq_def c, dif_neg h]

theorem hexDigitValue_toLower (c : Char) : hexDigitValue c.toLower = hexDigitValue c := by
  rw [hexDigitValue, hexDigitValue, toLower_toLower]

theorem readHex_lower : ∀ cs : List Char, readHex (cs.map Char.toLower) = readHex cs
  | [] => rfl
  | [c] => by simp [readHex, hexDigitValue_toLower]
  | c :: c' :: cs => by simp [readHex, hexDigitValue_toLower, readHex_lower cs]

theorem hexDigitValue_digitChar {n : ℕ} (hn : n < 16) : hexDigitValue n.digitChar = some n := by
  revert n
  decide

theorem readHex_hexText (octets : List UInt8) :
    readHex (octets.flatMap Text.hexOctet) = .ok octets := by
  induction octets with
  | nil => rfl
  | cons b octets ih =>
    have hb := b.toNat_lt
    have hvalue : 16 * (b.toNat / 16) + b.toNat % 16 = b.toNat := by omega
    rw [List.flatMap_cons, Text.hexOctet, List.cons_append, List.cons_append, List.nil_append,
      readHex, hexDigitValue_digitChar (by omega), hexDigitValue_digitChar (by omega), ih]
    dsimp only
    rw [hvalue, UInt8.ofNat_toNat]

/-- Discovery is on; a datagram is what is decoded from it. -/
def discoveringEnv : UsersEnv (Option (List UInt8 × String)) where
  discoverEngineId := true
  decode := id
  octetString := fun text => readHex text.toList

theorem discoveringEnv_lower (text : String) :
    discoveringEnv.octetString (Text.lower text) = discoveringEnv.octetString text := by
  change readHex (Text.lower text).toList = _
  rw [Text.lower, String.toList_ofList, readHex_lower]
  rfl

theorem discoveringEnv_hexText (octets : List UInt8) :
    discoveringEnv.octetString (hexText octets) = .ok octets := by
  change readHex (hexText octets).toList = _
  rw [hexText, String.toList_ofList, readHex_hexText]

/-- A user whose keys are there or not. -/
def trapUser (authKey privKey : Option String) : V3User String where
  userName := "trapuser"
  authProtocol := "NONE"
  authKey := authKey
  privProtocol := "NONE"
  privKey := privKey

/-- The receiver after its start with the default engine id. -/
def startedWith (u : V3User String) : UsmState String where
  registered := Dict.empty.insert ("trapuser", [0x80, 0, 0x3a, 0x8c, 4]) u.startupCredentials
  addedEngineIds := ["80003a8c04"]

/-- A user with a key is registered for a new engine id as for a known one. -/
theorem registrations_agree_iff_withKey :
    RegistrationsAgree discoveringEnv [trapUser (some "secret") none]
      (receiveDatagrams discoveringEnv [trapUser (some "secret") none]
        (startedWith (trapUser (some "secret") none))
        [some ([0x80, 0, 0x3a, 0x8c, 5], "trapuser")]) := by
  refine ((registrations_agree_iff discoveringEnv discoveringEnv_lower discoveringEnv_hexText
    [trapUser (some "secret") none] ["80003a8c04"] (startedWith (trapUser (some "secret") none))
    rfl [some ([0x80, 0, 0x3a, 0x8c, 5], "trapuser")]).mpr (Or.inr ?_) 1).1
  intro userName u hu
  have hmem := List.mem_of_find?_eq_some hu
  obtain rfl := List.mem_singleton.mp hmem
  rfl

/-- An empty key is none at the start, and empty later. -/
theorem registrations_agree_fails : ¬ ∀ (env : UsersEnv (Option (List UInt8 × String)))
    (users : List (V3User String)) (ids : List String) (st : UsmState String)
    (datagrams : List (Option (List UInt8 × String))),
    (∀ text, env.octetString (Text.lower text) = env.octetString text) →
      (∀ octets, env.octetString (hexText octets) = .ok octets) → startup env users ids = .ok st →
        RegistrationsAgree env users (receiveDatagrams env users st datagrams) := by
  intro h
  have hagree := h discoveringEnv [trapUser (some "") none] ["80003a8c04"]
    (startedWith (trapUser (some "") none)) [some ([0x80, 0, 0x3a, 0x8c, 5], "trapuser")]
    discoveringEnv_lower discoveringEnv_hexText rfl
  obtain ⟨octets, hoctets, u', hu', hget⟩ :=
    hagree "80003a8c05" (by decide +kernel) _ List.mem_cons_self
  cases hoctets
  cases hu'
  cases hget

end Sc4snmp
