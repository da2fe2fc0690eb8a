import Mathlib.Data.List.TakeWhile
import Sc4snmp.Snmp.WalkCompleteness

/-!
# What a turn of the walk does, whoever answers

The loop over a response goes through its varbinds in wire order and finds for each
one the column it belongs to.  Seen from one column it is a loop over the varbinds of
that column alone: they are accepted until one ends the column.  Nothing is assumed of
the responder here; whether its varbinds make sense is for the modules that follow.

A turn of the `while True` loop ends in one of eight ways, `ResponseTurn`, and every property
of all runs is proved from these.

## Main definitions

* `attributed` — the varbinds of a response, each with the column it belongs to.
* `Column.scan`, `Column.accepted` — the loop over a response, seen from a column.
* `accepted` — the varbinds a response is accepted of.
* `walkTable` — the varbinds of the answer to the request of an iteration, if the
  answer is free of errors.
* `ResponseTurn` — the ways a turn of the loop ends.

## Main results

* `scanTable_eq_foldl` — the loop over a response is a fold over its attribution.
* `ownVarBinds_accepted` — **columns are independent of each other**.
* `loopBody_turn` — every turn ends in one of the eight ways.
-/

namespace Sc4snmp

variable {V : Type*}

/-! ### One column -/

/-- The body of the loop over a response, as it changes the column of the varbind. -/
def Column.scan (opts : WalkOptions) (c : Column) (vb : ObjectType V) : Column :=
  if c.completed then c
  else if endsColumn opts c vb then { c with completed := true }
  else { c with lastOid := vb.name }

/-- The column takes the varbind. -/
def Column.takes (opts : WalkOptions) (c : Column) (vb : ObjectType V) : Bool :=
  !c.completed && !endsColumn opts c vb

/-- The varbinds of its own a column takes: those before the first that ends it. -/
def Column.accepted (opts : WalkOptions) (c : Column) (vbs : List (ObjectType V)) :
    List (ObjectType V) :=
  if c.completed then [] else vbs.takeWhile fun vb => !endsColumn opts c vb

section Column

variable {opts : WalkOptions} {c : Column} {vb : ObjectType V} {vbs : List (ObjectType V)}

theorem Column.scan_of_takes (h : c.takes opts vb = true) :
    c.scan opts vb = { c with lastOid := vb.name } := by
  rw [Column.takes, Bool.and_eq_true, Bool.not_eq_true', Bool.not_eq_true'] at h
  rw [Column.scan, h.1, h.2, if_neg Bool.false_ne_true, if_neg Bool.false_ne_true]

/-- A varbind that is not taken leaves the last OID alone, and the column completed. -/
theorem Column.scan_of_not_takes (h : c.takes opts vb = false) :
    (c.scan opts vb).completed = true ∧ (c.scan opts vb).lastOid = c.lastOid := by
  unfold Column.scan
  split
  · next hdone => exact ⟨hdone, rfl⟩
  · next hopen =>
    have hends : endsColumn opts c vb = true := by
      rw [Column.takes, Bool.and_eq_false_iff, Bool.not_eq_false', Bool.not_eq_false'] at h
      exact h.resolve_left hopen
    rw [if_pos hends]
    exact ⟨rfl, rfl⟩

@[simp] theorem Column.initialVar_scan (opts : WalkOptions) (c : Column) (vb : ObjectType V) :
    (c.scan opts vb).initialVar = c.initialVar := by
  unfold Column.scan
  split
  · rfl
  · split <;> rfl

@[simp] theorem Column.accepted_nil (opts : WalkOptions) (c : Column) :
    c.accepted opts ([] : List (ObjectType V)) = [] := by
  unfold Column.accepted
  split <;> rfl

theorem Column.accepted_of_completed (h : c.completed = true) : c.accepted opts vbs = [] := by
  rw [Column.accepted, if_pos h]

/-- The first varbind of its own, and those that follow it. -/
theorem Column.accepted_cons (opts : WalkOptions) (c : Column) (vb : ObjectType V)
    (vbs : List (ObjectType V)) :
    c.accepted opts (vb :: vbs) =
      (if c.takes opts vb then [vb] else []) ++ (c.scan opts vb).accepted opts vbs := by
  by_cases htakes : c.takes opts vb = true
  · have hopen : c.completed = false := by
      rw [Column.takes, Bool.and_eq_true, Bool.not_eq_true'] at htakes
      exact htakes.1
    have hends : endsColumn opts c vb = false := by
      rw [Column.takes, Bool.and_eq_true, Bool.not_eq_true', Bool.not_eq_true'] at htakes
      exact htakes.2
    rw [if_pos htakes, Column.scan_of_takes htakes, Column.accepted, Column.accepted, hopen]
    simp only [Bool.false_eq_true, if_false, List.takeWhile_cons, hends, Bool.not_false, if_true]
    rfl
  · have hnot : c.takes opts vb = false := by simpa using htakes
    rw [if_neg htakes, List.nil_append,
      Column.accepted_of_completed (Column.scan_of_not_takes hnot).1]
    rw [Column.takes, Bool.and_eq_false_iff, Bool.not_eq_false', Bool.not_eq_false'] at hnot
    unfold Column.accepted
    split
    · rfl
    · next hopen =>
      have hends : endsColumn opts c vb = true := hnot.resolve_left hopen
      rw [List.takeWhile_cons_of_neg (by simp [hends])]

/-- What a column takes does not end it. -/
theorem Column.not_endsColumn_of_mem_accepted (h : vb ∈ c.accepted opts vbs) :
    endsColumn opts c vb = false := by
  unfold Column.accepted at h
  split at h
  · exact absurd h List.not_mem_nil
  · have hall := List.mem_takeWhile_imp h
    simpa using hall

@[simp] theorem Column.initialVar_foldl_scan (opts : WalkOptions) (c : Column)
    (vbs : List (ObjectType V)) :
    (vbs.foldl (Column.scan opts) c).initialVar = c.initialVar := by
  induction vbs generalizing c with
  | nil => rfl
  | cons vb vbs ih => rw [List.foldl_cons, ih, Column.initialVar_scan]

/-- A column stands at the last varbind it has taken. -/
theorem Column.lastOid_foldl_scan (opts : WalkOptions) (c : Column) (vbs : List (ObjectType V)) :
    (vbs.foldl (Column.scan opts) c).lastOid =
      (((c.accepted opts vbs).map ObjectType.name).getLast?).getD c.lastOid := by
  induction vbs generalizing c with
  | nil => simp
  | cons vb vbs ih =>
    rw [List.foldl_cons, ih, Column.accepted_cons]
    by_cases htakes : c.takes opts vb = true
    · rw [if_pos htakes, Column.scan_of_takes htakes, List.singleton_append, List.map_cons,
        List.getLast?_cons, Option.getD_some]
    · have hnot : c.takes opts vb = false := by simpa using htakes
      rw [if_neg htakes, List.nil_append, (Column.scan_of_not_takes hnot).2]

end Column

/-! ### One response -/

/-- The varbinds of a response from position `idx` on, each with the index of the column
it belongs to. -/
def attributed (active : List ℕ) (nonRepeaterCount : ℕ) :
    ℕ → List (ObjectType V) → List (ℕ × ObjectType V)
  | _, [] => []
  | idx, vb :: rest =>
    match activeVbIdx nonRepeaterCount active.length idx with
    | none => []
    | some j => (active.getD j 0, vb) :: attributed active nonRepeaterCount (idx + 1) rest

/-- The varbinds of a list for one column. -/
def ownVarBinds (i : ℕ) (l : List (ℕ × ObjectType V)) : List (ObjectType V) :=
  (l.filter fun p => p.1 = i).map Prod.snd

/-- The varbinds that are accepted, each with the index of its column. -/
def accepted (opts : WalkOptions) : List Column → List (ℕ × ObjectType V) →
    List (ℕ × ObjectType V)
  | _, [] => []
  | cols, p :: rest =>
    (if cols[p.1]?.any fun c => c.takes opts p.2 then [p] else []) ++
      accepted opts (cols.modify p.1 fun c => c.scan opts p.2) rest

section Response

variable {opts : WalkOptions} {cols : List Column} {i : ℕ} {p : ℕ × ObjectType V}
  {l : List (ℕ × ObjectType V)}

theorem ownVarBinds_cons (i : ℕ) (p : ℕ × ObjectType V) (l : List (ℕ × ObjectType V)) :
    ownVarBinds i (p :: l) = (if p.1 = i then [p.2] else []) ++ ownVarBinds i l := by
  unfold ownVarBinds
  rw [List.filter_cons]
  by_cases h : p.1 = i <;> simp [h]

theorem ownVarBinds_append (i : ℕ) (l l' : List (ℕ × ObjectType V)) :
    ownVarBinds i (l ++ l') = ownVarBinds i l ++ ownVarBinds i l' := by
  rw [ownVarBinds, List.filter_append, List.map_append]
  rfl

/-- One varbind of the loop: its column is scanned, and the varbind kept if it is taken. -/
theorem scanVarBind_eq (opts : WalkOptions) (i : ℕ) (vb : ObjectType V) (s : Scan V) :
    scanVarBind opts i vb s =
      { columns := s.columns.modify i fun c => c.scan opts vb
        validResults := s.validResults ++
          if s.columns[i]?.any fun c => c.takes opts vb then [vb] else []
        stopFlag := s.stopFlag && !s.columns[i]?.any fun c => c.takes opts vb } := by
  unfold scanVarBind
  cases hc : s.columns[i]? with
  | none =>
    have hlen : s.columns.length ≤ i := List.getElem?_eq_none_iff.mp hc
    simp [List.modify_eq_self hlen]
  | some c =>
    obtain ⟨hi, hget⟩ := List.getElem?_eq_some_iff.mp hc
    have hset : s.columns.modify i (fun c => c.scan opts vb) =
        s.columns.set i (c.scan opts vb) := by
      refine List.ext_getElem? fun k => ?_
      rw [List.getElem?_modify, List.getElem?_set]
      by_cases hk : i = k
      · subst hk
        simp [hi, hget]
      · simp [hk]
    rw [hset]
    cases hdone : c.completed with
    | true =>
      have hsame : s.columns.set i c = s.columns := by
        rw [← hget]
        exact List.set_getElem_self hi
      simp [Column.takes, Column.scan, hdone, hsame]
    | false => cases hends : endsColumn opts c vb <;> simp [Column.takes, Column.scan, hdone, hends]

/-- **The loop over a response is a fold over its attribution.** -/
theorem scanTable_eq_foldl (opts : WalkOptions) (active : List ℕ) (nonRepeaterCount : ℕ) :
    ∀ (table : List (ObjectType V)) (idx : ℕ) (s : Scan V),
      scanTable opts active nonRepeaterCount idx table s =
        (attributed active nonRepeaterCount idx table).foldl
          (fun s p => scanVarBind opts p.1 p.2 s) s := by
  intro table
  induction table with
  | nil => intro idx s; rfl
  | cons vb table ih =>
    intro idx s
    rw [scanTable, attributed]
    cases activeVbIdx nonRepeaterCount active.length idx with
    | none => rfl
    | some j => exact ih (idx + 1) (scanVarBind opts (active.getD j 0) vb s)

theorem foldl_scanVarBind (opts : WalkOptions) (l : List (ℕ × ObjectType V)) (s : Scan V) :
    l.foldl (fun s p => scanVarBind opts p.1 p.2 s) s =
      { columns := l.foldl (fun cols p => cols.modify p.1 fun c => c.scan opts p.2) s.columns
        validResults := s.validResults ++ (accepted opts s.columns l).map Prod.snd
        stopFlag := s.stopFlag && (accepted opts s.columns l).isEmpty } := by
  induction l generalizing s with
  | nil => simp [accepted]
  | cons p l ih =>
    rw [List.foldl_cons, ih, scanVarBind_eq, accepted, List.foldl_cons]
    by_cases htakes : s.columns[p.1]?.any (fun c => c.takes opts p.2) = true
    · simp [htakes]
    · have hnot : s.columns[p.1]?.any (fun c => c.takes opts p.2) = false := by simpa using htakes
      simp [hnot]

/-- The columns after a response, one by one. -/
theorem getElem?_foldl_modify (opts : WalkOptions) (l : List (ℕ × ObjectType V))
    (cols : List Column) (i : ℕ) :
    (l.foldl (fun cols p => cols.modify p.1 fun c => c.scan opts p.2) cols)[i]? =
      cols[i]?.map fun c => (ownVarBinds i l).foldl (Column.scan opts) c := by
  induction l generalizing cols with
  | nil => simp [ownVarBinds]
  | cons p l ih =>
    rw [List.foldl_cons, ih, ownVarBinds_cons, List.getElem?_modify]
    by_cases hp : p.1 = i
    · simp [hp, Function.comp_def]
    · simp [hp]

/-- **Columns are independent of each other**: what is accepted of the varbinds of a column
depends on that column and its varbinds alone. -/
theorem ownVarBinds_accepted (opts : WalkOptions) (l : List (ℕ × ObjectType V))
    (cols : List Column) (i : ℕ) :
    ownVarBinds i (accepted opts cols l) =
      (cols[i]?.map fun c => c.accepted opts (ownVarBinds i l)).getD [] := by
  induction l generalizing cols with
  | nil => cases cols[i]? <;> simp [accepted, ownVarBinds]
  | cons p l ih =>
    rw [accepted, ownVarBinds_append, ih, List.getElem?_modify, ownVarBinds_cons]
    by_cases hp : p.1 = i
    · subst hp
      cases hc : cols[p.1]? with
      | none => simp [ownVarBinds]
      | some c =>
        simp only [Option.any_some, Option.map_some, Option.getD_some, if_true,
          List.singleton_append, Column.accepted_cons]
        by_cases htakes : c.takes opts p.2 = true
        · simp [htakes, ownVarBinds]
        · simp [htakes, ownVarBinds]
    · have hnone : ownVarBinds i
          (if cols[p.1]?.any fun c => c.takes opts p.2 then [p] else []) = [] := by
        split
        · simp [ownVarBinds, hp]
        · rfl
      rw [hnone, if_neg hp]
      cases cols[i]? <;> simp [hp]

theorem accepted_sublist (opts : WalkOptions) (cols : List Column) (l : List (ℕ × ObjectType V)) :
    (accepted opts cols l).Sublist l := by
  induction l generalizing cols with
  | nil => exact List.Sublist.refl _
  | cons p l ih =>
    rw [accepted]
    split
    · exact (ih _).cons_cons p
    · exact (ih _).cons p

/-- The varbinds of a response are attributed in order, up to where the loop ends. -/
theorem prefix_attributed (active : List ℕ) (nonRepeaterCount : ℕ) :
    ∀ (table : List (ObjectType V)) (idx : ℕ),
      (attributed active nonRepeaterCount idx table).map Prod.snd <+: table := by
  intro table
  induction table with
  | nil => intro idx; exact List.prefix_rfl
  | cons vb table ih =>
    intro idx
    rw [attributed]
    cases activeVbIdx nonRepeaterCount active.length idx with
    | none => exact List.nil_prefix
    | some j => exact (List.prefix_cons_inj vb).mpr (ih (idx + 1))

end Response

/-! ### One turn -/

/-- The engine error of an answer, unless it is to be ignored. -/
def BulkResponse.effectiveError (opts : WalkOptions) (r : BulkResponse V) :
    Option ErrorIndication :=
  if opts.ignoreNonIncreasingOid ∧ r.errorIndication = some .oidNotIncreasing then none
  else r.errorIndication

/-- The varbinds of an answer that is free of errors. -/
def BulkResponse.table? (opts : WalkOptions) (r : BulkResponse V) : Option (List (ObjectType V)) :=
  if r.effectiveError opts = none ∧ r.errorStatus = 0 then some r.varBindTable else none

/-- The answer to the request of a turn, if it makes one. -/
def answerTo (opts : WalkOptions) (nonRepeaters : ℤ) (bulkCmd : BulkRequest → BulkResponse V)
    (st : WalkState) : Option (BulkResponse V) :=
  if st.hasVarBinds = true ∧ activeIndices st.columns ≠ [] then
    some (bulkCmd (bulkRequest nonRepeaters (limitRepetitions opts st)))
  else none

/-- The varbinds of a response, each with the column it belongs to. -/
def WalkState.attributed (nonRepeaters : ℤ) (st : WalkState) (table : List (ObjectType V)) :
    List (ℕ × ObjectType V) :=
  Sc4snmp.attributed (activeIndices st.columns)
    (min nonRepeaters.toNat (activeIndices st.columns).length) 0 table

/-- The varbinds a response is accepted of, each with its column. -/
def WalkState.accepted (opts : WalkOptions) (nonRepeaters : ℤ) (st : WalkState)
    (table : List (ObjectType V)) : List (ℕ × ObjectType V) :=
  Sc4snmp.accepted opts st.columns (st.attributed nonRepeaters table)

/-- How many of `n` varbinds `maxRows` leaves. -/
def WalkState.kept (opts : WalkOptions) (st : WalkState) (n : ℕ) : ℕ :=
  if opts.maxRows ≠ 0 ∧ opts.maxRows < st.totalRows + n then opts.maxRows - st.totalRows else n

/-- The state after a response that is accepted of something. -/
def WalkState.afterTable (opts : WalkOptions) (nonRepeaters : ℤ) (st : WalkState)
    (table : List (ObjectType V)) : WalkState :=
  { limitRepetitions opts st with
    columns := (st.attributed nonRepeaters table).foldl
      (fun cols p => cols.modify p.1 fun c => c.scan opts p.2) st.columns
    totalRows := st.totalRows + st.kept opts (st.accepted opts nonRepeaters table).length
    totalCalls := st.totalCalls + 1 }

/-- The varbinds that stand for the active columns in the batch of a refused request. -/
def WalkState.nulls (st : WalkState) : List (ObjectType V) :=
  (activeIndices st.columns).map fun i => ⟨st.columns[i]?.elim [] Column.lastOid, .null⟩

/-- The ways a turn of the loop ends, up to its last `yield`. -/
inductive ResponseTurn (opts : WalkOptions) (nonRepeaters : ℤ)
    (bulkCmd : BulkRequest → BulkResponse V)
    (st : WalkState) : List (WalkYield V) × Control → Prop
  /-- The generator was called without varbinds. -/
  | idle (h : st.hasVarBinds = false) :
      ResponseTurn opts nonRepeaters bulkCmd st ([⟨none, none, none, []⟩], .suspended st)
  /-- Every column is completed. -/
  | exhausted (hvar : st.hasVarBinds = true) (h : activeIndices st.columns = []) :
      ResponseTurn opts nonRepeaters bulkCmd st ([], .returned)
  /-- The engine reports an error that ends the walk. -/
  | failed (r : BulkResponse V) (e : ErrorIndication)
      (hr : answerTo opts nonRepeaters bulkCmd st = some r) (he : r.effectiveError opts = some e)
      (hfinal : e ≠ .requestTimedOut) :
      ResponseTurn opts nonRepeaters bulkCmd st
        ([⟨some e, some r.errorStatus, some r.errorIndex, r.varBindTable⟩], .returned)
  /-- The request has timed out. -/
  | timedOut (r : BulkResponse V) (hr : answerTo opts nonRepeaters bulkCmd st = some r)
      (he : r.effectiveError opts = some .requestTimedOut) :
      ResponseTurn opts nonRepeaters bulkCmd st
        ([⟨some .requestTimedOut, some r.errorStatus, some r.errorIndex, r.varBindTable⟩,
          ⟨some .requestTimedOut, some r.errorStatus, some r.errorIndex, []⟩],
          .suspended (limitRepetitions opts st))
  /-- The agent answers with an error status. -/
  | refused (r : BulkResponse V) (hr : answerTo opts nonRepeaters bulkCmd st = some r)
      (he : r.effectiveError opts = none) (hstatus : r.errorStatus ≠ 0) :
      ResponseTurn opts nonRepeaters bulkCmd st
        ([⟨none, some (if r.errorStatus = 2 then 0 else r.errorStatus),
          some (if r.errorStatus = 2 then 0 else r.errorIndex), st.nulls⟩], .returned)
  /-- Nothing of the response is accepted. -/
  | nothing (r : BulkResponse V) (table : List (ObjectType V))
      (hr : answerTo opts nonRepeaters bulkCmd st = some r) (htable : r.table? opts = some table)
      (h : st.accepted opts nonRepeaters table = []) :
      ResponseTurn opts nonRepeaters bulkCmd st ([], .returned)
  /-- The limit of rows was reached before. -/
  | beyond (r : BulkResponse V) (table : List (ObjectType V))
      (hr : answerTo opts nonRepeaters bulkCmd st = some r) (htable : r.table? opts = some table)
      (h : st.accepted opts nonRepeaters table ≠ [])
      (hlimit : opts.maxRows ≠ 0 ∧ opts.maxRows ≤ st.totalRows) :
      ResponseTurn opts nonRepeaters bulkCmd st ([], .returned)
  /-- The varbinds that are accepted are yielded, as far as the limit of rows goes. -/
  | batch (r : BulkResponse V) (table : List (ObjectType V))
      (hr : answerTo opts nonRepeaters bulkCmd st = some r) (htable : r.table? opts = some table)
      (h : st.accepted opts nonRepeaters table ≠ [])
      (hlimit : opts.maxRows = 0 ∨ st.totalRows < opts.maxRows) :
      ResponseTurn opts nonRepeaters bulkCmd st
        ([⟨none, some 0, some r.errorIndex,
            ((st.accepted opts nonRepeaters table).map Prod.snd).take
              (st.kept opts (st.accepted opts nonRepeaters table).length)⟩],
          .suspended (st.afterTable opts nonRepeaters table))

section ResponseTurn

variable {opts : WalkOptions} {nonRepeaters : ℤ} {bulkCmd : BulkRequest → BulkResponse V}
  {st : WalkState}

theorem columns_limitRepetitions (opts : WalkOptions) (st : WalkState) :
    (limitRepetitions opts st).columns = st.columns := by
  unfold limitRepetitions
  split <;> rfl

theorem totalRows_limitRepetitions (opts : WalkOptions) (st : WalkState) :
    (limitRepetitions opts st).totalRows = st.totalRows := by
  unfold limitRepetitions
  split <;> rfl

theorem totalCalls_limitRepetitions (opts : WalkOptions) (st : WalkState) :
    (limitRepetitions opts st).totalCalls = st.totalCalls := by
  unfold limitRepetitions
  split <;> rfl

theorem hasVarBinds_limitRepetitions (opts : WalkOptions) (st : WalkState) :
    (limitRepetitions opts st).hasVarBinds = st.hasVarBinds := by
  unfold limitRepetitions
  split <;> rfl

/-- The scan of a response free of errors. -/
theorem scanTable_eq (opts : WalkOptions) (nonRepeaters : ℤ) (st : WalkState)
    (table : List (ObjectType V)) :
    scanTable opts (activeIndices st.columns)
        (min nonRepeaters.toNat (activeIndices st.columns).length) 0 table ⟨st.columns, [], true⟩ =
      { columns := (st.attributed nonRepeaters table).foldl
          (fun cols p => cols.modify p.1 fun c => c.scan opts p.2) st.columns
        validResults := (st.accepted opts nonRepeaters table).map Prod.snd
        stopFlag := (st.accepted opts nonRepeaters table).isEmpty } := by
  rw [scanTable_eq_foldl, foldl_scanVarBind]
  simp only [List.nil_append, Bool.true_and]
  rfl

theorem processResponse_of_error {r : BulkResponse V} {e : ErrorIndication}
    (he : r.effectiveError opts = some e) :
    processResponse opts nonRepeaters st r =
      if e ≠ .requestTimedOut then
        ([⟨some e, some r.errorStatus, some r.errorIndex, r.varBindTable⟩], .returned)
      else ([⟨some e, some r.errorStatus, some r.errorIndex, r.varBindTable⟩,
        ⟨some e, some r.errorStatus, some r.errorIndex, []⟩], .suspended st) := by
  unfold BulkResponse.effectiveError at he
  unfold processResponse
  rw [he]

theorem processResponse_of_status {r : BulkResponse V} (he : r.effectiveError opts = none)
    (hstatus : r.errorStatus ≠ 0) :
    processResponse opts nonRepeaters st r =
      ([⟨none, some (if r.errorStatus = 2 then 0 else r.errorStatus),
        some (if r.errorStatus = 2 then 0 else r.errorIndex), st.nulls⟩], .returned) := by
  unfold BulkResponse.effectiveError at he
  unfold processResponse
  rw [he]
  dsimp only
  rw [if_pos hstatus]
  rfl

/-- An answer free of errors, in what is accepted of it. -/
theorem processResponse_of_table {r : BulkResponse V} {table : List (ObjectType V)}
    (htable : r.table? opts = some table) :
    processResponse opts nonRepeaters (limitRepetitions opts st) r =
      if st.accepted opts nonRepeaters table = [] then ([], .returned)
      else if opts.maxRows ≠ 0 ∧ opts.maxRows ≤ st.totalRows then ([], .returned)
      else
        ([⟨none, some 0, some r.errorIndex,
            ((st.accepted opts nonRepeaters table).map Prod.snd).take
              (st.kept opts (st.accepted opts nonRepeaters table).length)⟩],
          .suspended (st.afterTable opts nonRepeaters table)) := by
  unfold BulkResponse.table? at htable
  split at htable
  · next hfree =>
    obtain rfl : r.varBindTable = table := Option.some.inj htable
    have hprocess : processResponse opts nonRepeaters (limitRepetitions opts st) r =
        processTable opts nonRepeaters (limitRepetitions opts st)
          { r with errorIndication := none } := by
      have he := hfree.1
      unfold BulkResponse.effectiveError at he
      unfold processResponse
      rw [he]
      dsimp only
      rw [if_neg (not_not.mpr hfree.2)]
    rw [hprocess, processTable]
    simp only [columns_limitRepetitions, scanTable_eq, totalRows_limitRepetitions,
      totalCalls_limitRepetitions, hfree.2]
    set acc := st.accepted opts nonRepeaters r.varBindTable with hacc
    by_cases hempty : acc = []
    · rw [if_pos hempty]
      split
      · rfl
      · simp [hempty]
    · have htable' : r.varBindTable.isEmpty = false := by
        rw [List.isEmpty_eq_false_iff]
        rintro hnil
        rw [hnil] at hacc
        exact hempty hacc
      have hlen : 0 < acc.length := List.length_pos_iff.mpr hempty
      have hflag : acc.isEmpty = false := by simpa using hempty
      have hvalid : (acc.map Prod.snd).isEmpty = false := by simpa using hempty
      rw [if_neg hempty]
      simp only [htable', hflag, hvalid, Bool.false_eq_true, if_false, List.length_map]
      -- `maxRows` cuts the batch, drops it whole, or leaves it alone
      by_cases hover : opts.maxRows ≠ 0 ∧ opts.maxRows < st.totalRows + acc.length
      · rw [if_pos hover]
        by_cases hreached : opts.maxRows ≠ 0 ∧ opts.maxRows ≤ st.totalRows
        · rw [if_pos hreached, if_neg (by omega)]
        · rw [if_neg hreached, if_pos (by omega)]
          have hkept : st.kept opts acc.length = opts.maxRows - st.totalRows := if_pos hover
          have hcount : acc.length - (st.totalRows + acc.length - opts.maxRows) =
              opts.maxRows - st.totalRows := by omega
          have htotal : st.totalRows + (opts.maxRows - st.totalRows) = opts.maxRows := by omega
          simp only [WalkState.afterTable, ← hacc, hkept, hcount, htotal]
      · rw [if_neg hover, if_neg (by omega)]
        have hkept : st.kept opts acc.length = acc.length := if_neg hover
        have htake : (acc.map Prod.snd).take acc.length = acc.map Prod.snd :=
          List.take_of_length_le (by simp)
        simp only [WalkState.afterTable, ← hacc, hkept, htake]
  · cases htable

/-- **Every turn of the loop ends in one of the eight ways.** -/
theorem loopBody_turn (opts : WalkOptions) (nonRepeaters : ℤ)
    (bulkCmd : BulkRequest → BulkResponse V) (st : WalkState) :
    ResponseTurn opts nonRepeaters bulkCmd st (loopBody opts nonRepeaters bulkCmd st) := by
  unfold loopBody
  by_cases hvar : st.hasVarBinds = true
  · rw [if_pos hvar]
    dsimp only
    rw [columns_limitRepetitions]
    by_cases hactive : activeIndices st.columns = []
    · rw [if_pos (List.isEmpty_iff.mpr hactive)]
      exact .exhausted hvar hactive
    · rw [if_neg (by simpa using hactive)]
      set r := bulkCmd (bulkRequest nonRepeaters (limitRepetitions opts st)) with hrdef
      have hr : answerTo opts nonRepeaters bulkCmd st = some r := if_pos ⟨hvar, hactive⟩
      cases he : r.effectiveError opts with
      | some e =>
        rw [processResponse_of_error he]
        by_cases hfinal : e ≠ .requestTimedOut
        · rw [if_pos hfinal]
          exact .failed r e hr he hfinal
        · rw [if_neg hfinal]
          obtain rfl := not_not.mp hfinal
          exact .timedOut r hr he
      | none =>
        by_cases hstatus : r.errorStatus = 0
        · have htable : r.table? opts = some r.varBindTable := if_pos ⟨he, hstatus⟩
          rw [processResponse_of_table htable]
          by_cases hnothing : st.accepted opts nonRepeaters r.varBindTable = []
          · rw [if_pos hnothing]
            exact .nothing r _ hr htable hnothing
          · rw [if_neg hnothing]
            by_cases hlimit : opts.maxRows ≠ 0 ∧ opts.maxRows ≤ st.totalRows
            · rw [if_pos hlimit]
              exact .beyond r _ hr htable hnothing hlimit
            · rw [if_neg hlimit]
              exact .batch r _ hr htable hnothing (by omega)
        · rw [processResponse_of_status he hstatus]
          have hnulls : ((limitRepetitions opts st).nulls : List (ObjectType V)) = st.nulls := by
            rw [WalkState.nulls, columns_limitRepetitions]
            rfl
          rw [hnulls]
          exact .refused r hr he hstatus
  · rw [if_neg hvar]
    exact .idle (by simpa using hvar)

end ResponseTurn

/-! ### Runs -/

/-- What an iteration yields. -/
def yieldsOf (opts : WalkOptions) (nonRepeaters : ℤ) (peers : Peers V) (p : ℕ × WalkState) :
    List (WalkYield V) :=
  (iteration opts nonRepeaters peers p.1 p.2).1

/-- The varbinds of the answer to the request of an iteration, if it is free of errors. -/
def walkTable? (opts : WalkOptions) (nonRepeaters : ℤ) (peers : Peers V) (p : ℕ × WalkState) :
    Option (List (ObjectType V)) :=
  (answerTo opts nonRepeaters (peers.bulkCmd p.1) p.2).bind (BulkResponse.table? opts)

section Runs

variable {opts : WalkOptions} {nonRepeaters : ℤ} {peers : Peers V}

theorem iteration_of_returned {n : ℕ} {st : WalkState} {ys : List (WalkYield V)}
    (h : loopBody opts nonRepeaters (peers.bulkCmd n) st = (ys, .returned)) :
    iteration opts nonRepeaters peers n st = (ys, none) := by
  rw [iteration, h]

theorem iteration_of_suspended {n : ℕ} {st st' : WalkState} {ys : List (WalkYield V)}
    (h : loopBody opts nonRepeaters (peers.bulkCmd n) st = (ys, .suspended st')) :
    iteration opts nonRepeaters peers n st = (ys, afterYield opts (peers.send n) st') := by
  rw [iteration, h]

/-- The turn that an iteration takes. -/
theorem iteration_turn (opts : WalkOptions) (nonRepeaters : ℤ) (peers : Peers V) (n : ℕ)
    (st : WalkState) :
    ∃ ys control, ResponseTurn opts nonRepeaters (peers.bulkCmd n) st (ys, control) ∧
      iteration opts nonRepeaters peers n st = (ys, match control with
        | .returned => none
        | .suspended st' => afterYield opts (peers.send n) st') := by
  have hturn := loopBody_turn opts nonRepeaters (peers.bulkCmd n) st
  cases hbody : loopBody opts nonRepeaters (peers.bulkCmd n) st with
  | mk ys control =>
    rw [hbody] at hturn
    refine ⟨ys, control, hturn, ?_⟩
    cases control with
    | returned => exact iteration_of_returned hbody
    | suspended st' => exact iteration_of_suspended hbody

/-- The next iteration of a consumer that sends nothing starts where the last one stopped, short
of the limits and with a column to walk. -/
theorem afterYield_nil {st st' : WalkState} (h : afterYield opts [] st = some st') :
    st' = st ∧ (opts.maxRows = 0 ∨ st.totalRows < opts.maxRows) ∧
      (opts.maxCalls = 0 ∨ st.totalCalls < opts.maxCalls) := by
  simp only [afterYield, List.isEmpty_nil, if_true] at h
  split at h
  · cases h
  · next hrows =>
    split at h
    · cases h
    · next hcalls =>
      split at h
      · cases h
      · cases h
        exact ⟨rfl, by omega, by omega⟩

/-- A run whose next iteration is its last. -/
theorem walkFrom_of_last {n : ℕ} {st : WalkState} {ys : List (WalkYield V)}
    (h : iteration opts nonRepeaters peers n st = (ys, none)) (fuel : ℕ) :
    walkFrom opts nonRepeaters peers (fuel + 1) n st = ⟨ys, [(n, st)], true⟩ := by
  rw [walkFrom, h]

/-- A run that goes on after its next iteration. -/
theorem walkFrom_of_next {n : ℕ} {st st' : WalkState} {ys : List (WalkYield V)}
    (h : iteration opts nonRepeaters peers n st = (ys, some st')) (fuel : ℕ) :
    walkFrom opts nonRepeaters peers (fuel + 1) n st =
      ⟨ys ++ (walkFrom opts nonRepeaters peers fuel (n + 1) st').yields,
        (n, st) :: (walkFrom opts nonRepeaters peers fuel (n + 1) st').heads,
        (walkFrom opts nonRepeaters peers fuel (n + 1) st').returned⟩ := by
  rw [walkFrom, h]

/-- **What every iteration keeps holds at the start of each.** -/
theorem forall_heads {I : ℕ → WalkState → Prop}
    (hkeep : ∀ n st ys st', I n st → iteration opts nonRepeaters peers n st = (ys, some st') →
      I (n + 1) st') (fuel n : ℕ) {st : WalkState} (h : I n st) :
    ∀ p ∈ (walkFrom opts nonRepeaters peers fuel n st).heads, I p.1 p.2 := by
  induction fuel generalizing n st with
  | zero => exact fun p hp => absurd hp List.not_mem_nil
  | succ fuel ih =>
    cases hit : iteration opts nonRepeaters peers n st with
    | mk ys next =>
      cases next with
      | none =>
        rw [walkFrom_of_last hit]
        intro p hp
        obtain rfl := List.mem_singleton.mp hp
        exact h
      | some st' =>
        rw [walkFrom_of_next hit]
        intro p hp
        rcases List.mem_cons.mp hp with rfl | hp
        · exact h
        · exact ih (n + 1) (hkeep n st ys st' h hit) p hp

/-- A run yields what its iterations yield. -/
theorem yields_walkFrom (opts : WalkOptions) (nonRepeaters : ℤ) (peers : Peers V)
    (fuel n : ℕ) (st : WalkState) :
    (walkFrom opts nonRepeaters peers fuel n st).yields =
      (walkFrom opts nonRepeaters peers fuel n st).heads.flatMap
        (yieldsOf opts nonRepeaters peers) := by
  induction fuel generalizing n st with
  | zero => rfl
  | succ fuel ih =>
    cases hit : iteration opts nonRepeaters peers n st with
    | mk ys next =>
      have hys : yieldsOf opts nonRepeaters peers (n, st) = ys := congrArg Prod.fst hit
      cases next with
      | none => simp [walkFrom_of_last hit, hys]
      | some st' => simp [walkFrom_of_next hit, hys, ih (n + 1) st']

end Runs

end Sc4snmp
