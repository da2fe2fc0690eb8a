import Sc4snmp.Lib.Successor

/-!
# The parallel bulk walk

`multi_bulk_walk_cmd` of `snmp/multi_bulk_walk_cmd.py`: a generator that walks
several OID subtrees at once with GETBULK requests.  Its three parallel lists
(`initialVars`, `completed`, `last_oids`) are one list of columns here; every
other local of the generator that survives a loop iteration is a field of
`WalkState`.

The network is a function from the number of the loop iteration and the request
to the answer of `bulk_cmd`, so that one run of the generator is determined by
its arguments; whatever an agent decides on the way is in that function.  The
same holds of what the consumer sends into the generator at its last `yield`.

## Main definitions

* `scanTable` — the loop over the varbinds of one response.
* `processResponse` — what one answer of `bulk_cmd` makes the generator do.
* `iteration`, `walkFrom` — one turn of the `while True` loop, and a run of it.
* `multiBulkWalkCmd` — the generator from its arguments.
* `Mib`, `Mib.getBulk`, `TruncatingAgent` — an agent answering GETBULK from a
  finite MIB, cutting its answer at any varbind.
-/

namespace Sc4snmp

/-- An object identifier. -/
abbrev Oid := List ℕ

/-- The value of a varbind, as far as the walk looks at it. -/
inductive SnmpValue (V : Type*)
  /-- `Null`, which an unset or failed object carries. -/
  | null
  /-- The exception value of an object past the end of the MIB view. -/
  | endOfMibView
  /-- Any other value. -/
  | value (v : V)
  deriving DecidableEq, Repr, Inhabited

/-- A varbind. -/
structure ObjectType (V : Type*) where
  name : Oid
  val : SnmpValue V
  deriving DecidableEq, Repr, Inhabited

/-- The SNMP engine errors the program tells apart. -/
inductive ErrorIndication
  | requestTimedOut
  | oidNotIncreasing
  | emptyResponse
  | other (text : String)
  deriving DecidableEq, Repr, Inhabited

/-- What `bulk_cmd` returns. -/
structure BulkResponse (V : Type*) where
  errorIndication : Option ErrorIndication
  errorStatus : ℕ
  errorIndex : ℕ
  varBindTable : List (ObjectType V)
  deriving DecidableEq, Repr

/-- What the generator yields. -/
structure WalkYield (V : Type*) where
  errorIndication : Option ErrorIndication
  errorStatus : Option ℕ
  errorIndex : Option ℕ
  varBinds : List (ObjectType V)
  deriving DecidableEq, Repr

/-- The arguments of one GETBULK request. -/
structure BulkRequest where
  nonRepeaters : ℤ
  maxRepetitions : ℕ
  oids : List Oid
  deriving DecidableEq, Repr

/-- The keyword options, with the source's defaults. -/
structure WalkOptions where
  lexicographicMode : Bool := true
  ignoreNonIncreasingOid : Bool := false
  maxRows : ℕ := 0
  maxCalls : ℕ := 0
  deriving DecidableEq, Repr

/-- The state kept for one varbind of the request. -/
structure Column where
  /-- The root the column was started at, its entry of `initialVars`. -/
  initialVar : Oid
  completed : Bool
  lastOid : Oid
  deriving DecidableEq, Repr

/-- The column a varbind of the caller starts as. -/
def Column.start (oid : Oid) : Column := ⟨oid, false, oid⟩

/-- The locals of the generator that survive a loop iteration. -/
structure WalkState where
  columns : List Column
  /-- Whether the generator was called with any varbind at all. -/
  hasVarBinds : Bool
  maxRepetitions : ℕ
  totalRows : ℕ
  totalCalls : ℕ
  deriving DecidableEq, Repr

variable {V : Type*}

/-! ### One response -/

/-- The columns still walked, by index. -/
def activeIndices (cols : List Column) : List ℕ :=
  (List.range cols.length).filter fun i => cols[i]?.any fun c => !c.completed

/-- The position among the active columns of the varbind at `idx` of a response:
non-repeaters once, then the repetitions cycling over the rest.  `none` is the
`break` of a response that goes on although nothing repeats. -/
def activeVbIdx (nonRepeaterCount numActive idx : ℕ) : Option ℕ :=
  if nonRepeaterCount = 0 then some (idx % numActive)
  else if idx < nonRepeaterCount then some idx
  else if numActive - nonRepeaterCount ≠ 0 then
    some (nonRepeaterCount + (idx - nonRepeaterCount) % (numActive - nonRepeaterCount))
  else none

/-- The locals of the loop over a response. -/
structure Scan (V : Type*) where
  columns : List Column
  validResults : List (ObjectType V)
  stopFlag : Bool
  deriving Repr

/-- The varbind ends its column: a `Null` or `EndOfMibView` value, or a name
outside the subtree the column was started at. -/
def endsColumn (opts : WalkOptions) (c : Column) (vb : ObjectType V) : Bool :=
  let foundEnding := match vb.val with
    | .null => true
    | .endOfMibView => true
    | .value _ => false
  let foundBeyond := !opts.lexicographicMode && !c.initialVar.isPrefixOf vb.name
  foundEnding || foundBeyond

/-- The body of the loop over a response, for a varbind of column `i`. -/
def scanVarBind (opts : WalkOptions) (i : ℕ) (vb : ObjectType V) (s : Scan V) : Scan V :=
  match s.columns[i]? with
  | none => s
  | some c =>
    if c.completed then s
    else if endsColumn opts c vb then
      { s with columns := s.columns.set i { c with completed := true } }
    else
      { columns := s.columns.set i { c with lastOid := vb.name }
        validResults := s.validResults ++ [vb]
        stopFlag := false }

/-- The loop over a response, from position `idx` on. -/
def scanTable (opts : WalkOptions) (active : List ℕ) (nonRepeaterCount : ℕ) :
    ℕ → List (ObjectType V) → Scan V → Scan V
  | _, [], s => s
  | idx, vb :: rest, s =>
    match activeVbIdx nonRepeaterCount active.length idx with
    | none => s
    | some j =>
      scanTable opts active nonRepeaterCount (idx + 1) rest
        (scanVarBind opts (active.getD j 0) vb s)

/-- Whether the generator goes on: it has returned, or it is suspended at the
last `yield` of the loop body. -/
inductive Control
  | returned
  | suspended (st : WalkState)
  deriving DecidableEq, Repr

/-- An answer without error: scan it, count it, and cut it at `maxRows`. -/
def processTable (opts : WalkOptions) (nonRepeaters : ℤ) (st : WalkState)
    (r : BulkResponse V) : List (WalkYield V) × Control :=
  if r.varBindTable.isEmpty then ([], .returned)
  else
    let active := activeIndices st.columns
    let nonRepeaterCount := min nonRepeaters.toNat active.length
    let s := scanTable opts active nonRepeaterCount 0 r.varBindTable ⟨st.columns, [], true⟩
    let totalRows := st.totalRows + s.validResults.length
    let st := { st with columns := s.columns, totalRows, totalCalls := st.totalCalls + 1 }
    let out := fun valid => WalkYield.mk r.errorIndication (some r.errorStatus)
      (some r.errorIndex) valid
    if s.stopFlag then
      (if s.validResults.isEmpty then [] else [out s.validResults], .returned)
    else if s.validResults.isEmpty then ([], .returned)
    else if opts.maxRows ≠ 0 ∧ opts.maxRows < totalRows then
      let excess := totalRows - opts.maxRows
      if excess < s.validResults.length then
        ([out (s.validResults.take (s.validResults.length - excess))],
          .suspended { st with totalRows := opts.maxRows })
      else ([], .returned)
    else ([out s.validResults], .suspended st)

/-- What one answer of `bulk_cmd` makes the generator do. -/
def processResponse (opts : WalkOptions) (nonRepeaters : ℤ) (st : WalkState)
    (r : BulkResponse V) : List (WalkYield V) × Control :=
  let errorIndication :=
    if opts.ignoreNonIncreasingOid ∧ r.errorIndication = some .oidNotIncreasing then none
    else r.errorIndication
  match errorIndication with
  | some e =>
    let y := WalkYield.mk (some e) (some r.errorStatus) (some r.errorIndex) r.varBindTable
    if e ≠ .requestTimedOut then ([y], .returned)
    -- a timeout falls through to the last `yield` with nothing collected
    else ([y, { y with varBinds := [] }], .suspended st)
  | none =>
    if r.errorStatus ≠ 0 then
      -- noSuchName is hidden from the consumer
      let hidden := r.errorStatus = 2
      let nulls := (activeIndices st.columns).map fun i =>
        ObjectType.mk (st.columns[i]?.elim [] Column.lastOid) SnmpValue.null
      ([⟨none, some (if hidden then 0 else r.errorStatus),
        some (if hidden then 0 else r.errorIndex), nulls⟩], .returned)
    else processTable opts nonRepeaters st { r with errorIndication := none }

/-- `maxRepetitions` is lowered to the rows still wanted. -/
def limitRepetitions (opts : WalkOptions) (st : WalkState) : WalkState :=
  if opts.maxRows ≠ 0 ∧ st.totalRows < opts.maxRows then
    { st with maxRepetitions := min st.maxRepetitions (opts.maxRows - st.totalRows) }
  else st

/-- The request of a loop iteration. -/
def bulkRequest (nonRepeaters : ℤ) (st : WalkState) : BulkRequest where
  nonRepeaters := nonRepeaters
  maxRepetitions := st.maxRepetitions
  oids := (activeIndices st.columns).map fun i => st.columns[i]?.elim [] Column.lastOid

/-- The loop body up to and including its last `yield`. -/
def loopBody (opts : WalkOptions) (nonRepeaters : ℤ) (bulkCmd : BulkRequest → BulkResponse V)
    (st : WalkState) : List (WalkYield V) × Control :=
  if st.hasVarBinds then
    let st := limitRepetitions opts st
    if (activeIndices st.columns).isEmpty then ([], .returned)
    else processResponse opts nonRepeaters st (bulkCmd (bulkRequest nonRepeaters st))
  else ([⟨none, none, none, []⟩], .suspended st)

/-- The rest of the loop body, when the consumer resumes the generator. -/
def afterYield (opts : WalkOptions) (initialVarBinds : List Oid) (st : WalkState) :
    Option WalkState :=
  let st := if initialVarBinds.isEmpty then st
    else { st with columns := initialVarBinds.map Column.start }
  if opts.maxRows ≠ 0 ∧ opts.maxRows ≤ st.totalRows then none
  else if opts.maxCalls ≠ 0 ∧ opts.maxCalls ≤ st.totalCalls then none
  else if st.columns.all Column.completed then none
  else some st

/-! ### Runs -/

/-- The agent and the consumer of one run: the answer to the request of each
loop iteration, and what is sent at its last `yield` (`[]` for a plain
`async for`). -/
structure Peers (V : Type*) where
  bulkCmd : ℕ → BulkRequest → BulkResponse V
  send : ℕ → List Oid := fun _ => []

/-- The loop iteration number `n`: what it yields, and the state the next one
starts from, if there is one. -/
def iteration (opts : WalkOptions) (nonRepeaters : ℤ) (peers : Peers V) (n : ℕ)
    (st : WalkState) : List (WalkYield V) × Option WalkState :=
  match loopBody opts nonRepeaters (peers.bulkCmd n) st with
  | (ys, .returned) => (ys, none)
  | (ys, .suspended st') => (ys, afterYield opts (peers.send n) st')

/-- What a run of the generator has shown so far. -/
structure WalkRun (V : Type*) where
  yields : List (WalkYield V)
  /-- The iterations started, with the state each started from. -/
  heads : List (ℕ × WalkState)
  /-- Whether the generator has returned. -/
  returned : Bool

/-- At most `fuel` iterations of the loop, from iteration `n` on. -/
def walkFrom (opts : WalkOptions) (nonRepeaters : ℤ) (peers : Peers V) :
    ℕ → ℕ → WalkState → WalkRun V
  | 0, _, _ => ⟨[], [], false⟩
  | fuel + 1, n, st =>
    match iteration opts nonRepeaters peers n st with
    | (ys, none) => ⟨ys, [(n, st)], true⟩
    | (ys, some st') =>
      let rest := walkFrom opts nonRepeaters peers fuel (n + 1) st'
      ⟨ys ++ rest.yields, (n, st) :: rest.heads, rest.returned⟩

/-- The state `multi_bulk_walk_cmd` enters its loop with. -/
def WalkState.init (maxRepetitions : ℕ) (varBinds : List Oid) : WalkState where
  columns := varBinds.map Column.start
  hasVarBinds := !varBinds.isEmpty
  maxRepetitions := maxRepetitions
  totalRows := 0
  totalCalls := 0

/-- `multi_bulk_walk_cmd`, for at most `fuel` loop iterations. -/
def multiBulkWalkCmd (opts : WalkOptions) (nonRepeaters : ℤ) (maxRepetitions : ℕ)
    (varBinds : List Oid) (peers : Peers V) (fuel : ℕ) : WalkRun V :=
  walkFrom opts nonRepeaters peers fuel 0 (.init maxRepetitions varBinds)

/-- All varbinds a run has yielded, in order. -/
def WalkRun.varBinds (r : WalkRun V) : List (ObjectType V) := r.yields.flatMap WalkYield.varBinds

/-! ### Agents -/

/-- A finite MIB: the instances in order, with their values. -/
structure Mib (V : Type*) where
  entries : List (Oid × V)
  sorted : entries.Pairwise fun e f => e.1 < f.1

/-- The varbind of an instance. -/
def instanceVarBind (e : Oid × V) : ObjectType V := ⟨e.1, .value e.2⟩

/-- The instance following an OID. -/
def Mib.next (m : Mib V) (oid : Oid) : Option (Oid × V) :=
  Successor.nextAfter Prod.fst m.entries oid

/-- The varbind a GETNEXT of an OID is answered with: past the end, the OID
itself with `endOfMibView`. -/
def Mib.getNext (m : Mib V) (oid : Oid) : ObjectType V :=
  (m.next oid).elim ⟨oid, .endOfMibView⟩ instanceVarBind

/-- The repetitions of a GETBULK answer, row by row. -/
def Mib.repetitions (m : Mib V) : ℕ → List Oid → List (ObjectType V)
  | 0, _ => []
  | r + 1, oids =>
    oids.map m.getNext ++ m.repetitions r (oids.map fun o => (m.getNext o).name)

/-- The full answer to a GETBULK request, in wire order. -/
def Mib.getBulk (m : Mib V) (req : BulkRequest) : List (ObjectType V) :=
  let n := min req.nonRepeaters.toNat req.oids.length
  (req.oids.take n).map m.getNext ++ m.repetitions req.maxRepetitions (req.oids.drop n)

/-- An agent that answers every GETBULK without error from its MIB, sending a
non-empty prefix of the full answer: how much of it, it may decide anew for
every request. -/
structure TruncatingAgent (V : Type*) where
  mib : Mib V
  cut : ℕ → BulkRequest → ℕ
  cut_pos : ∀ n req, 0 < cut n req

/-- The agent's answer to a request. -/
def TruncatingAgent.bulkCmd (a : TruncatingAgent V) (n : ℕ) (req : BulkRequest) :
    BulkResponse V where
  errorIndication := none
  errorStatus := 0
  errorIndex := 0
  varBindTable := (a.mib.getBulk req).take (a.cut n req)

/-- The agent, read by a consumer that sends nothing back. -/
def TruncatingAgent.peers (a : TruncatingAgent V) : Peers V where
  bulkCmd := a.bulkCmd

end Sc4snmp
