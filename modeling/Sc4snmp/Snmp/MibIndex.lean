import Sc4snmp.Lib.Csv
import Sc4snmp.Lib.Dict
import Sc4snmp.Lib.Run
import Sc4snmp.Lib.Text

/-!
# The index of MIBs

`Poller._refresh_mib_map` asks the MIB server for its index, a text of comma-separated values.
The HTTP session shows responses to a hook, the `MibIndexResponseValidator`, as often as it
likes, and goes on from whether the hook raises; what it returns in the end is read once more.
The validator remembers the last response it has read.

How the text of a response comes of its body and encoding is a parameter.  What is only logged
is left out.

## Main definitions

* `parseMibIndex` — the mapping of an index, and its malformed rows.
* `MibIndexResponseValidator`, `parseResponse`, `call` — the validator and its hook.
* `Session`, `Session.get` — a session that does what it likes, and its request.
* `refreshMibMap` — the refresh of a `Poller`.
* `Validating` — the validators that hooks and reads lead to.

## Main results

* `parseMibIndex_render` — the mapping of an index without malformed rows.
* `parseResponse_eq` — what is remembered is what a fresh read would give.
* `refreshed` — **after every history of refreshes the map is that of the last usable
  response, and the next refresh replaces it only by that of a usable one**.
-/

namespace Sc4snmp

/-! ### Parsing -/

/-- `csv.field_size_limit`. -/
def fieldSizeLimit : ℕ := 131072

/-- The map from prefixes of object identifiers to MIBs, and the number of malformed rows. -/
abbrev MibIndex := Dict String String × ℕ

/-- The body of the loop of `parse_mib_index`. -/
def addIndexRow (index : MibIndex) : List (List Char) → MibIndex
  | [mib, oidPrefix] =>
    if (Text.strip mib).isEmpty || (Text.strip oidPrefix).isEmpty then (index.1, index.2 + 1)
    else (index.1.insert (String.ofList (Text.strip oidPrefix)) (String.ofList (Text.strip mib)),
      index.2)
  | _ => (index.1, index.2 + 1)

/-- `MibIndexResponseValidator.parse_mib_index`. -/
def parseMibIndex (indexContent : String) : MibIndex :=
  let (rows, failed) := Csv.read fieldSizeLimit indexContent.toList
  let index := rows.foldl addIndexRow (Dict.empty, 0)
  if failed then (index.1, index.2 + 1) else index

/-- An entry of an index: a plain field without white space around it, and not empty. -/
structure IndexField (field : List Char) : Prop extends Csv.Plain fieldSizeLimit field where
  ne_nil : field ≠ []
  strip_eq : Text.strip field = field

/-- **An index of well-formed rows is read as it was written.** -/
theorem parseMibIndex_render {records : List (List Char × List Char)}
    (h : ∀ e ∈ records, IndexField e.1 ∧ IndexField e.2) :
    parseMibIndex (String.ofList (Csv.render records)) =
      (records.foldl (fun map e => map.insert (String.ofList e.2) (String.ofList e.1)) Dict.empty,
        0) := by
  have hread : Csv.read fieldSizeLimit (Csv.render records) = _ :=
    Csv.read_render fun e he => ⟨(h e he).1.toPlain, (h e he).2.toPlain⟩
  have hfold : ∀ map : Dict String String,
      (records.map fun e => [e.1, e.2]).foldl addIndexRow (map, 0) =
        (records.foldl (fun map e => map.insert (String.ofList e.2) (String.ofList e.1)) map,
          0) := by
    clear hread
    induction records with
    | nil => exact fun _ => rfl
    | cons e records ih =>
      intro map
      rw [List.forall_mem_cons] at h
      obtain ⟨⟨hmib, hprefix⟩, hrecords⟩ := h
      have hrow : addIndexRow (map, 0) [e.1, e.2] =
          (map.insert (String.ofList e.2) (String.ofList e.1), 0) := by
        simp [addIndexRow, hmib.strip_eq, hprefix.strip_eq, hmib.ne_nil, hprefix.ne_nil]
      rw [List.map_cons, List.foldl_cons, hrow, ih hrecords, List.foldl_cons]
  rw [parseMibIndex, String.toList_ofList, hread]
  exact hfold Dict.empty

/-! ### The validator -/

/-- What the code reads of a response. -/
structure Response where
  statusCode : ℕ
  content : List UInt8
  encoding : Option String
  fromCache : Bool
  deriving DecidableEq

/-- What a session raises. -/
inductive SessionError
  | requestException
  | pyMongoError
  | other
  deriving DecidableEq

/-- `MibIndexResponseValidator`. -/
structure MibIndexResponseValidator where
  parsedContent : Option (List UInt8)
  parsedEncoding : Option String
  parsedResult : Option MibIndex

namespace MibIndexResponseValidator

/-- `__init__`. -/
def init : MibIndexResponseValidator := ⟨none, none, none⟩

variable (decode : List UInt8 → Option String → String)

/-- What a response is read as for the first time. -/
def freshParse (response : Response) : MibIndex :=
  parseMibIndex (decode response.content response.encoding)

/-- `parse_response`. -/
def parseResponse (validator : MibIndexResponseValidator) (response : Response) :
    MibIndexResponseValidator × MibIndex :=
  match validator.parsedResult with
  | some parsedResult =>
    if some response.content ≠ validator.parsedContent ∨
        response.encoding ≠ validator.parsedEncoding then
      (⟨some response.content, response.encoding, some (freshParse decode response)⟩,
        freshParse decode response)
    else (validator, parsedResult)
  | none =>
    (⟨some response.content, response.encoding, some (freshParse decode response)⟩,
      freshParse decode response)

/-- `__call__`. -/
def call (validator : MibIndexResponseValidator) (response : Response) :
    MibIndexResponseValidator × Except SessionError Unit :=
  if response.statusCode ≠ 200 ∨ response.fromCache then (validator, .ok ())
  else
    let (validator, parsedMap, _) := validator.parseResponse decode response
    if parsedMap.entries.isEmpty then (validator, .error .requestException)
    else (validator, .ok ())

/-- What a validator remembers is what a fresh read gives. -/
def Remembers (validator : MibIndexResponseValidator) : Prop :=
  ∀ result, validator.parsedResult = some result → ∃ content,
    validator.parsedContent = some content ∧
      result = parseMibIndex (decode content validator.parsedEncoding)

/-- The validators that hooks and reads lead to. -/
inductive Validating : MibIndexResponseValidator → Prop
  | init : Validating init
  | parseResponse {validator : MibIndexResponseValidator} (h : Validating validator)
    (response : Response) : Validating (validator.parseResponse decode response).1
  | call {validator : MibIndexResponseValidator} (h : Validating validator)
    (response : Response) : Validating (validator.call decode response).1

variable {decode}

theorem remembers_fresh (response : Response) : Remembers decode
    ⟨some response.content, response.encoding, some (freshParse decode response)⟩ := by
  intro result hresult
  cases hresult
  exact ⟨response.content, rfl, rfl⟩

/-- A read gives what a fresh one gives, and remembers it. -/
theorem Remembers.parseResponse {validator : MibIndexResponseValidator}
    (h : validator.Remembers decode) (response : Response) :
    (validator.parseResponse decode response).1.Remembers decode ∧
      (validator.parseResponse decode response).2 = freshParse decode response := by
  unfold MibIndexResponseValidator.parseResponse
  cases hresult : validator.parsedResult with
  | none => exact ⟨remembers_fresh response, rfl⟩
  | some result =>
    dsimp only
    split
    · exact ⟨remembers_fresh response, rfl⟩
    · next hsame =>
      -- body and encoding are those of the response that was read
      rw [not_or, not_not, not_not] at hsame
      obtain ⟨content, hcontent, rfl⟩ := h result hresult
      rw [hcontent, Option.some.injEq] at hsame
      refine ⟨h, ?_⟩
      rw [freshParse, hsame.1, hsame.2]

theorem Remembers.call {validator : MibIndexResponseValidator} (h : validator.Remembers decode)
    (response : Response) : (validator.call decode response).1.Remembers decode := by
  unfold MibIndexResponseValidator.call
  split
  · exact h
  · dsimp only
    split
    · exact (h.parseResponse response).1
    · exact (h.parseResponse response).1

theorem Validating.remembers {validator : MibIndexResponseValidator}
    (h : Validating decode validator) : validator.Remembers decode := by
  induction h with
  | init => exact fun result hresult => by cases hresult
  | parseResponse _ response ih => exact (ih.parseResponse response).1
  | call _ response ih => exact ih.call response

/-- **What is remembered is what a fresh read would give.** -/
theorem parseResponse_eq {validator : MibIndexResponseValidator} (h : Validating decode validator)
    (response : Response) :
    (validator.parseResponse decode response).2 = freshParse decode response :=
  (h.remembers.parseResponse response).2

end MibIndexResponseValidator

/-! ### The session -/

/-- A session that does what it likes: it returns a response, it raises, or it shows a response
to the hook and goes on from what comes of that. -/
inductive Session
  | returns (response : Response)
  | raises (err : SessionError)
  | hooks (response : Response) (next : Except SessionError Unit → Session)

/-- `session.get`, with the validator as its hook. -/
def Session.get (decode : List UInt8 → Option String → String) :
    Session → MibIndexResponseValidator → MibIndexResponseValidator × Except SessionError Response
  | returns response, validator => (validator, .ok response)
  | raises err, validator => (validator, .error err)
  | hooks response next, validator =>
    let (validator, result) := validator.call decode response
    (next result).get decode validator

open MibIndexResponseValidator

variable {decode : List UInt8 → Option String → String}

theorem Session.validating_get (session : Session) {validator : MibIndexResponseValidator}
    (h : Validating decode validator) : Validating decode (session.get decode validator).1 := by
  induction session generalizing validator with
  | returns response => exact h
  | raises err => exact h
  | hooks response next ih => exact ih _ (h.call response)

/-! ### The refresh -/

/-- What the refresh reads and changes of a `Poller`. -/
structure Poller where
  mibMap : Dict String String
  usesCachedMibIndexSession : Bool

/-- What the session does, given whether it is asked to revalidate the index. -/
abbrev SessionRun := Bool → Session

/-- What `session.get` returns to a refresh, and the validator after it. -/
def getMibIndex (decode : List UInt8 → Option String → String) (poller : Poller)
    (session : SessionRun) : MibIndexResponseValidator × Except SessionError Response :=
  (session poller.usesCachedMibIndexSession).get decode init

/-- `Poller._refresh_mib_map`. -/
def refreshMibMap (decode : List UInt8 → Option String → String) (poller : Poller)
    (session : SessionRun) : Poller × Except SessionError Bool :=
  match getMibIndex decode poller session with
  | (_, .error .requestException) => (poller, .ok false)
  | (_, .error .pyMongoError) => (poller, .ok false)
  | (_, .error .other) => (poller, .error .other)
  | (responseValidator, .ok response) =>
    if response.statusCode ≠ 200 then (poller, .ok false)
    else
      let (_, newMibMap, _) := responseValidator.parseResponse decode response
      if newMibMap.entries.isEmpty then (poller, .ok false)
      else ({ poller with mibMap := newMibMap }, .ok true)

/-- The map of a response with status 200 and at least one mapping. -/
def usableMap (decode : List UInt8 → Option String → String) :
    Except SessionError Response → Option (Dict String String)
  | .ok response =>
    if response.statusCode = 200 ∧ (freshParse decode response).1.entries ≠ [] then
      some (freshParse decode response).1
    else none
  | .error _ => none

theorem usableMap_ne_nil {result : Except SessionError Response} {map : Dict String String}
    (h : usableMap decode result = some map) : map.entries ≠ [] := by
  cases result with
  | error err => cases h
  | ok response =>
    rw [usableMap] at h
    split at h
    · next husable =>
      cases h
      exact husable.2
    · cases h

/-- A refresh installs the map of a usable response, and returns `True` then only. -/
theorem refreshMibMap_eq (poller : Poller) (session : SessionRun) :
    match usableMap decode (getMibIndex decode poller session).2 with
    | some map => refreshMibMap decode poller session = ({ poller with mibMap := map }, .ok true)
    | none => (refreshMibMap decode poller session).1 = poller ∧
        (refreshMibMap decode poller session).2 ≠ .ok true := by
  have hvalidating : Validating decode (getMibIndex decode poller session).1 :=
    Session.validating_get _ .init
  unfold refreshMibMap
  cases hget : getMibIndex decode poller session with
  | mk validator result =>
    rw [hget] at hvalidating
    cases result with
    | error err => cases err <;> exact ⟨rfl, by simp⟩
    | ok response =>
      have hparse := parseResponse_eq hvalidating response
      simp only [usableMap, List.isEmpty_iff, hparse]
      by_cases hstatus : response.statusCode = 200
      · by_cases hempty : (freshParse decode response).1.entries = []
        · simp [hstatus, hempty]
        · simp [hstatus, hempty]
      · simp [hstatus]

-- A live index without mappings is refused, and the session falls back on a stale one.
example :
    let ascii : List UInt8 → Option String → String := fun octets _ =>
      String.ofList (octets.map fun b => Char.ofNat b.toNat)
    let live : Response := ⟨200, [44, 10], none, false⟩
    let stale : Response := ⟨200, [65, 44, 49, 46, 50, 10], none, true⟩
    let session : SessionRun := fun _ => .hooks live fun
      | .ok () => .returns live
      | .error _ => .returns stale
    (refreshMibMap ascii ⟨Dict.empty, true⟩ session).1.mibMap.entries = [("1.2", "A")] := by
  decide +kernel

/-- What a refresh leaves of a poller. -/
def refreshStep (decode : List UInt8 → Option String → String) (poller : Poller)
    (session : SessionRun) : Poller :=
  (refreshMibMap decode poller session).1

theorem usesCached_refreshStep (poller : Poller) (session : SessionRun) :
    (refreshStep decode poller session).usesCachedMibIndexSession =
      poller.usesCachedMibIndexSession := by
  have h := @refreshMibMap_eq decode poller session
  unfold refreshStep
  split at h
  · rw [h]
  · rw [h.1]

/-- The map of a refresh: that of a usable response, or the one before. -/
theorem mibMap_refreshStep (poller : Poller) (session : SessionRun) :
    (refreshStep decode poller session).mibMap =
      (usableMap decode (getMibIndex decode poller session).2).getD poller.mibMap := by
  have h := @refreshMibMap_eq decode poller session
  unfold refreshStep
  split at h
  · next hmap => rw [h, hmap, Option.getD_some]
  · next hmap => rw [h.1, hmap, Option.getD_none]

/-! ### Histories -/

/-- The map of the last usable response of a history, or the one before it. -/
def lastUsableMap (decode : List UInt8 → Option String → String) (poller : Poller)
    (history : List SessionRun) : Dict String String :=
  history.foldl
    (fun map session => (usableMap decode (getMibIndex decode poller session).2).getD map)
    poller.mibMap

/-- What a refresh owes. -/
structure Refreshed (decode : List UInt8 → Option String → String) (poller : Poller)
    (session : SessionRun) : Prop where
  /-- It returns `True` exactly when it installs the map of a usable response. -/
  returns_true : (refreshMibMap decode poller session).2 = .ok true ↔
    ∃ map, usableMap decode (getMibIndex decode poller session).2 = some map ∧
      (refreshMibMap decode poller session).1 = { poller with mibMap := map }
  unchanged : (refreshMibMap decode poller session).2 ≠ .ok true →
    (refreshMibMap decode poller session).1 = poller
  validating : Validating decode (getMibIndex decode poller session).1

theorem refreshed_refreshMibMap (poller : Poller) (session : SessionRun) :
    Refreshed decode poller session := by
  have h := @refreshMibMap_eq decode poller session
  refine ⟨?_, ?_, Session.validating_get _ .init⟩
  · split at h
    · next map hmap =>
      rw [h]
      exact ⟨fun _ => ⟨map, hmap, rfl⟩, fun _ => rfl⟩
    · next hmap =>
      refine ⟨fun htrue => absurd htrue h.2, ?_⟩
      rintro ⟨map, hsome, -⟩
      rw [hmap] at hsome
      cases hsome
  · intro hnot
    split at h
    · rw [h] at hnot
      exact absurd rfl hnot
    · exact h.1

theorem mibMap_final (poller : Poller) (history : List SessionRun) :
    (Run.final (refreshStep decode) poller history).mibMap =
      lastUsableMap decode poller history := by
  -- the kind of session, which the requests depend on, stays as it is
  suffices h : ∀ p : Poller, p.usesCachedMibIndexSession = poller.usesCachedMibIndexSession →
      (Run.final (refreshStep decode) p history).mibMap =
        history.foldl (fun map session =>
          (usableMap decode (getMibIndex decode poller session).2).getD map) p.mibMap from
    h poller rfl
  induction history with
  | nil => exact fun _ _ => rfl
  | cons session history ih =>
    intro p hp
    have hget : getMibIndex decode p session = getMibIndex decode poller session := by
      rw [getMibIndex, getMibIndex, hp]
    rw [Run.final_cons, ih _ ((usesCached_refreshStep p session).trans hp), mibMap_refreshStep,
      hget, List.foldl_cons]

/-- **After every history of refreshes the map is that of the last usable response, the next
refresh replaces it only by that of a usable one, and what a validator remembers is what a fresh
read gives.** -/
theorem refreshed (decode : List UInt8 → Option String → String) (poller : Poller)
    (history : List SessionRun) :
    (Run.final (refreshStep decode) poller history).mibMap = lastUsableMap decode poller history ∧
      (∀ session, Refreshed decode (Run.final (refreshStep decode) poller history) session) ∧
      ∀ validator, Validating decode validator → ∀ response,
        (validator.parseResponse decode response).2 = freshParse decode response :=
  ⟨mibMap_final poller history, fun session => refreshed_refreshMibMap _ session,
    fun _ h response => parseResponse_eq h response⟩

/-! ### Startup -/

/-- The part of `Poller.__init__` that loads the index. -/
def startPoller (decode : List UInt8 → Option String → String) (usesCached : Bool)
    (session : SessionRun) : Except SessionError Poller :=
  match refreshMibMap decode ⟨Dict.empty, usesCached⟩ session with
  | (poller, .ok true) => .ok poller
  | (_, .ok false) => .error .other
  | (_, .error err) => .error err

/-- **A poller that has started never has an empty map.** -/
theorem mibMap_ne_nil_of_started {usesCached : Bool} {session : SessionRun} {poller : Poller}
    (h : startPoller decode usesCached session = .ok poller) (history : List SessionRun) :
    (Run.final (refreshStep decode) poller history).mibMap.entries ≠ [] := by
  have hstart : poller.mibMap.entries ≠ [] := by
    have hrefresh := @refreshMibMap_eq decode ⟨Dict.empty, usesCached⟩ session
    rw [startPoller] at h
    split at hrefresh
    · next map hmap =>
      rw [hrefresh] at h
      cases h
      exact usableMap_ne_nil hmap
    · exfalso
      split at h
      · next heq => exact hrefresh.2 (congrArg Prod.snd heq)
      · cases h
      · cases h
  refine @Run.final_of_steps _ _ _ (fun p : Poller => p.mibMap.entries ≠ []) _ _ hstart ?_
  intro session _ p hp
  rw [mibMap_refreshStep]
  cases hmap : usableMap decode (getMibIndex decode p session).2 with
  | none => exact hp
  | some map => exact usableMap_ne_nil hmap

end Sc4snmp
