import Mathlib.Data.List.ReduceOption
import Sc4snmp.Lib.Interleave
import Sc4snmp.Snmp.WalkCompleteness

/-!
# The parallel walk is the reference walk

The reference walk of a list of roots drains their subtrees side by side: row `k`
holds the `k`-th instance under each root that has one.  `multi_bulk_walk_cmd`
never forms a row.  It asks for several at once, a column that has come to its
end goes on occupying its place in the answer it ended in and is left out of the
next request, and the number of rows it asks for shrinks as `maxRows` comes
nearer.

What it yields is the reference walk all the same.  At the start of every request
each column has some of its subtree left, `Column.remaining`; the answer brings
the first rows of what is left (`scanTable_repetitions`), and leaves the columns
with the rest.  So what has been yielded, followed by the interleaving of what is
left, is the same sequence at the start of every request.

## Main definitions

* `Mib.subtree`, `Mib.referenceWalk` — the instances under a root, and the
  subtrees of several roots row by row.
* `Column.remaining`, `Column.advance` — what a column has left, and the column
  after one varbind of its own.
* `Asks c a` — the request has asked for the column from `a` on.

## Main results

* `multiBulkWalkCmd_eq_reference` — **the walk yields the reference walk**, cut
  at `maxRows`.
-/

namespace Sc4snmp

open Successor Interleave

variable {V : Type*}

instance (r x : Oid) : Decidable (Under r x) := inferInstanceAs (Decidable (_ ∧ _))

/-! ### The reference walk -/

/-- The varbinds of the instances under a root, in order. -/
def Mib.subtree (m : Mib V) (r : Oid) : List (ObjectType V) :=
  (m.entries.filter fun e => decide (Under r e.1)).map instanceVarBind

/-- The subtrees of the roots, row by row. -/
def Mib.referenceWalk (m : Mib V) (roots : List Oid) : List (ObjectType V) :=
  interleave (roots.map m.subtree)

/-- The varbinds of a walk still wanted when `totalRows` have been yielded. -/
def wanted (maxRows totalRows : ℕ) (vbs : List (ObjectType V)) : List (ObjectType V) :=
  if maxRows = 0 then vbs else vbs.take (maxRows - totalRows)

/-- The agent that answers every GETBULK in full. -/
def Mib.peers (m : Mib V) : Peers V where
  bulkCmd := fun _ req => ⟨none, 0, 0, m.getBulk req⟩

/-- The options of a walk confined to the subtrees of its roots. -/
def limitedOptions (ignoreNonIncreasingOid : Bool) (maxRows : ℕ) : WalkOptions :=
  { subtreeOptions ignoreNonIncreasingOid with maxRows }

/-- The walk of the subtrees of `roots` against the agent of a MIB. -/
def Mib.walk (m : Mib V) (b : Bool) (maxRows reps : ℕ) (roots : List Oid) (fuel : ℕ) :
    WalkRun V :=
  multiBulkWalkCmd (limitedOptions b maxRows) 0 reps roots m.peers fuel

/-! ### One column -/

/-- What a column has left of its subtree. -/
def Column.remaining (m : Mib V) (c : Column) : List (ObjectType V) :=
  if c.completed then []
  else (m.subtree c.initialVar).filter fun vb => decide (c.lastOid < vb.name)

/-- The column after the next varbind of its own. -/
def Column.advance (m : Mib V) (c : Column) : Column :=
  match c.remaining m with
  | [] => { c with completed := true }
  | vb :: _ => { c with lastOid := vb.name }

/-- The column stands inside its subtree. -/
def Column.Inside (c : Column) : Prop := c.initialVar <+: c.lastOid

theorem Column.remaining_of_completed (m : Mib V) {c : Column} (h : c.completed = true) :
    c.remaining m = [] := by
  simp [remaining, h]

theorem Column.remaining_of_open (m : Mib V) {c : Column} (h : c.completed = false) :
    c.remaining m = (m.subtree c.initialVar).filter fun vb => decide (c.lastOid < vb.name) := by
  simp [remaining, h]

/-- A column starts with its whole subtree left. -/
theorem remaining_start (m : Mib V) (r : Oid) : (Column.start r).remaining m = m.subtree r := by
  refine (Column.remaining_of_open m rfl).trans (List.filter_eq_self.mpr ?_)
  intro vb hvb
  obtain ⟨e, he, rfl⟩ := List.mem_map.mp hvb
  have hu : Under r e.1 := of_decide_eq_true (List.mem_filter.mp he).2
  exact decide_eq_true (lt_of_le_of_ne (le_of_isPrefix hu.1) hu.2)

theorem pairwise_subtree (m : Mib V) (r : Oid) :
    (m.subtree r).Pairwise fun a b => a.name < b.name :=
  List.pairwise_map.mpr (m.sorted.filter _)

/-- The head of what is left is the agent's next varbind, as long as that is
under the root. -/
theorem head?_remaining {m : Mib V} {c : Column} (hin : c.Inside) (ho : c.completed = false) :
    (c.remaining m).head? = ((m.next c.lastOid).filter
      fun e => decide (c.initialVar <+: e.1)).map instanceVarBind := by
  rw [Column.remaining_of_open m ho, Mib.subtree, List.filter_map, List.head?_map,
    List.filter_filter, List.head?_filter, Mib.next, filter_nextAfter m.sorted hin]
  congr 2
  funext e
  have hiff : (c.lastOid < e.1 ∧ Under c.initialVar e.1) ↔
      c.initialVar <+: e.1 ∧ c.lastOid < e.1 := by
    constructor
    · rintro ⟨hlt, hu⟩
      exact ⟨hu.1, hlt⟩
    · rintro ⟨hp, hlt⟩
      exact ⟨hlt, hp, ((le_of_isPrefix hin).trans_lt hlt).ne⟩
  rw [Function.comp_apply, ← Bool.decide_and]
  exact decide_eq_decide.mpr hiff

/-- What is left of a column, and what the agent says next. -/
theorem remaining_eq_nil {m : Mib V} {c : Column} (hin : c.Inside) (ho : c.completed = false) :
    c.remaining m = [] ↔ ¬ NextInScope m c := by
  rw [← List.head?_eq_none_iff, head?_remaining hin ho, NextInScope]
  cases m.next c.lastOid with
  | none => simp
  | some e => simp [Option.filter]

theorem getNext_of_remaining {m : Mib V} {c : Column} {vb : ObjectType V}
    {rest : List (ObjectType V)} (hin : c.Inside) (ho : c.completed = false)
    (h : c.remaining m = vb :: rest) : m.getNext c.lastOid = vb ∧ c.initialVar <+: vb.name := by
  have hhead := head?_remaining (m := m) hin ho
  rw [h, List.head?_cons] at hhead
  obtain ⟨e, he, rfl⟩ := Option.map_eq_some_iff.mp hhead.symm
  obtain ⟨hnext, hp⟩ := Option.filter_eq_some_iff.mp he
  exact ⟨by simp [Mib.getNext, hnext], of_decide_eq_true hp⟩

/-- **One varbind of its own shortens what is left by one.** -/
theorem remaining_advance (m : Mib V) (c : Column) :
    (c.advance m).remaining m = (c.remaining m).tail := by
  unfold Column.advance
  split
  next h => rw [h, Column.remaining_of_completed m rfl, List.tail_nil]
  next vb rest h =>
    have ho : c.completed = false := by
      by_contra hc
      rw [Column.remaining_of_completed m (by simpa using hc)] at h
      exact List.cons_ne_nil _ _ h.symm
    rw [h, List.tail_cons, Column.remaining_of_open m (by exact ho)]
    rw [Column.remaining_of_open m ho] at h
    have hsorted := ((pairwise_subtree m c.initialVar).filter
      fun vb => decide (c.lastOid < vb.name))
    rw [h, List.pairwise_cons] at hsorted
    have hlt : c.lastOid < vb.name := by
      have hmem : vb ∈ (m.subtree c.initialVar).filter fun vb => decide (c.lastOid < vb.name) :=
        h ▸ List.mem_cons_self
      exact of_decide_eq_true (List.mem_filter.mp hmem).2
    -- what is above the new last OID was above the old one
    have htwice : (m.subtree c.initialVar).filter (fun w => decide (vb.name < w.name)) =
        ((m.subtree c.initialVar).filter fun w => decide (c.lastOid < w.name)).filter
          fun w => decide (vb.name < w.name) := by
      rw [List.filter_filter]
      refine List.filter_congr ?_
      intro w _
      rw [← Bool.decide_and]
      exact decide_eq_decide.mpr ⟨fun hw => ⟨hw, hlt.trans hw⟩, fun hw => hw.1⟩
    rw [htwice, h, List.filter_cons_of_neg (by simp), List.filter_eq_self]
    exact fun w hw => decide_eq_true (hsorted.1 w hw)

theorem advance_of_completed {m : Mib V} {c : Column} (h : c.completed = true) :
    c.advance m = c := by
  unfold Column.advance
  rw [Column.remaining_of_completed m h]
  cases c
  simp_all

theorem inside_advance {m : Mib V} {c : Column} (hin : c.Inside) : (c.advance m).Inside := by
  cases ho : c.completed with
  | true => rwa [advance_of_completed ho]
  | false =>
    unfold Column.advance
    split
    next _ => exact hin
    next vb rest h => exact (getNext_of_remaining hin ho h).2

theorem iterate_advance {m : Mib V} {c : Column} (hin : c.Inside) (q : ℕ) :
    ((Column.advance m)^[q] c).Inside ∧
      ((Column.advance m)^[q] c).remaining m = (c.remaining m).drop q := by
  induction q generalizing c with
  | zero => exact ⟨hin, rfl⟩
  | succ q ih =>
    obtain ⟨hin', hrem⟩ := ih (inside_advance (m := m) hin)
    refine ⟨hin', ?_⟩
    rw [Function.iterate_succ_apply, hrem, remaining_advance, List.drop_tail]

/-! ### One varbind -/

/-- A varbind of column `i`: the one the agent comes to after the column's last
OID, if the column is open. -/
theorem scanVarBind_getNext (b : Bool) (maxRows : ℕ) (m : Mib V) {i : ℕ} {c : Column}
    {cols : List Column} (valid : List (ObjectType V)) {o : Oid} (hc : cols[i]? = some c)
    (hin : c.Inside) (ho : c.completed = false → o = c.lastOid) :
    scanVarBind (limitedOptions b maxRows) i (m.getNext o) ⟨cols, valid, valid.isEmpty⟩ =
      ⟨cols.set i (c.advance m), valid ++ (c.remaining m).head?.toList,
        (valid ++ (c.remaining m).head?.toList).isEmpty⟩ := by
  cases hopen : c.completed with
  | true =>
    have hset : cols.set i c = cols := by
      obtain ⟨hi, rfl⟩ := List.getElem?_eq_some_iff.mp hc
      exact List.set_getElem_self hi
    simp [scanVarBind, hc, hopen, advance_of_completed hopen, Column.remaining_of_completed,
      hset]
  | false =>
    obtain rfl := ho hopen
    have hends : endsColumn (limitedOptions b maxRows) c (m.getNext c.lastOid) =
        endsColumn (subtreeOptions b) c (m.getNext c.lastOid) := rfl
    -- nothing left: the varbind is outside the subtree, and the column is completed
    cases hrem : c.remaining m with
    | nil =>
      have hend : endsColumn (subtreeOptions b) c (m.getNext c.lastOid) = true := by
        rw [← Bool.not_eq_false, endsColumn_getNext]
        exact (remaining_eq_nil hin hopen).mp hrem
      simp [scanVarBind, hc, hopen, hends, hend, Column.advance, hrem]
    | cons vb rest =>
      obtain ⟨hget, -⟩ := getNext_of_remaining hin hopen hrem
      have hend : endsColumn (subtreeOptions b) c (m.getNext c.lastOid) = false := by
        rw [endsColumn_getNext]
        by_contra h
        rw [(remaining_eq_nil hin hopen).mpr h] at hrem
        exact List.cons_ne_nil _ _ hrem.symm
      rw [hget] at hends hend
      simp [scanVarBind, hc, hopen, hget, hends, hend, Column.advance, hrem]

/-! ### One answer -/

/-- The request has asked for the column from `a` on, or has left it out. -/
structure Asks (c : Column) (a : Option Oid) : Prop where
  inside : c.Inside
  cursor : c.completed = false → a = some c.lastOid

/-- The indices of the columns a request asks for, the first one having index
`k`. -/
def askedFrom : ℕ → List (Option Oid) → List ℕ
  | _, [] => []
  | k, none :: asked => askedFrom (k + 1) asked
  | k, some _ :: asked => k :: askedFrom (k + 1) asked

/-- The cursor after a row of the answer. -/
def Mib.nextCursor (m : Mib V) : Option Oid → Option Oid :=
  Option.map fun o => (m.getNext o).name

theorem askedFrom_map_nextCursor (m : Mib V) : ∀ (k : ℕ) (asked : List (Option Oid)),
    askedFrom k (asked.map m.nextCursor) = askedFrom k asked := by
  intro k asked
  induction asked generalizing k with
  | nil => rfl
  | cons a asked ih =>
    cases a with
    | none => exact ih (k + 1)
    | some o => exact congrArg (k :: ·) (ih (k + 1))

theorem Asks.advance {m : Mib V} {c : Column} {a : Option Oid} (h : Asks c a) :
    Asks (c.advance m) (m.nextCursor a) := by
  refine ⟨inside_advance h.inside, ?_⟩
  intro hopen
  cases ho : c.completed with
  | true =>
    rw [advance_of_completed ho, ho] at hopen
    exact absurd hopen (by decide)
  | false =>
    rw [h.cursor ho]
    unfold Column.advance at hopen ⊢
    split at hopen
    next _ => exact absurd hopen (by simp)
    next vb rest hrem =>
      rw [Mib.nextCursor, Option.map_some, (getNext_of_remaining h.inside ho hrem).1]

/-- **One row of an answer**: each column that is asked for moves on by one.  By
induction on the columns still to come, `pre` being those the row has passed. -/
theorem scanTable_row (b : Bool) (maxRows : ℕ) (m : Mib V) {act : List ℕ} {base : ℕ}
    (hbase : base % act.length = 0) (rest : List (ObjectType V)) :
    ∀ {suf : List Column} {asked : List (Option Oid)}, List.Forall₂ Asks suf asked →
      ∀ (pre : List Column) (done : List ℕ) (valid : List (ObjectType V)),
        act = done ++ askedFrom pre.length asked →
        scanTable (limitedOptions b maxRows) act 0 (base + done.length)
            (asked.reduceOption.map m.getNext ++ rest) ⟨pre ++ suf, valid, valid.isEmpty⟩ =
          scanTable (limitedOptions b maxRows) act 0 (base + act.length) rest
            ⟨pre ++ suf.map (Column.advance m),
              valid ++ (suf.map (Column.remaining m)).filterMap List.head?,
              (valid ++ (suf.map (Column.remaining m)).filterMap List.head?).isEmpty⟩ := by
  intro suf asked h
  induction h with
  | nil =>
    intro pre done valid hact
    obtain rfl : act = done := by simpa [askedFrom] using hact
    simp
  | @cons c a suf asked hca _ ih =>
    intro pre done valid hact
    have hpre : (pre ++ [c.advance m]).length = pre.length + 1 := by simp
    cases a with
    | none =>
      -- the request has left the column out: it was completed before
      have hdone : c.completed = true := by
        by_contra ho
        exact absurd (hca.cursor (by simpa using ho)) (by simp)
      have hrow := ih (pre ++ [c.advance m]) done valid (by rw [hpre]; exact hact)
      rw [advance_of_completed hdone] at hrow
      simpa [advance_of_completed hdone, Column.remaining_of_completed m hdone,
        List.filterMap_cons] using hrow
    | some o =>
      have hactive : act = (done ++ [pre.length]) ++ askedFrom (pre.length + 1) asked := by
        simpa [askedFrom] using hact
      have hlt : done.length < act.length := by
        rw [hactive]
        simp
      have hidx : activeVbIdx 0 act.length (base + done.length) = some done.length := by
        rw [activeVbIdx, if_pos rfl, Nat.add_mod, hbase, Nat.zero_add, Nat.mod_mod,
          Nat.mod_eq_of_lt hlt]
      have hcol : act.getD done.length 0 = pre.length := by simp [hactive]
      have hscan := scanVarBind_getNext b maxRows m valid
        (show (pre ++ c :: suf)[pre.length]? = some c by simp) hca.inside
        (fun ho => Option.some.inj (hca.cursor ho))
      rw [show (pre ++ c :: suf).set pre.length (c.advance m) = (pre ++ [c.advance m]) ++ suf by
        simp] at hscan
      have hrow := ih (pre ++ [c.advance m]) (done ++ [pre.length])
        (valid ++ (c.remaining m).head?.toList) (by rw [hpre]; exact hactive)
      rw [List.length_append, List.length_singleton, ← Nat.add_assoc] at hrow
      rw [List.reduceOption_cons_of_some, List.map_cons, List.cons_append, scanTable, hidx]
      simp only [hcol, hscan, hrow]
      cases hhead : (c.remaining m).head? with
      | none => simp [hhead]
      | some vb => simp [hhead]

/-- **One answer**: `q` repetitions bring the first `q` rows of what the columns
have left. -/
theorem scanTable_repetitions (b : Bool) (maxRows : ℕ) (m : Mib V) {act : List ℕ} :
    ∀ (q : ℕ) {cols : List Column} {asked : List (Option Oid)} (base : ℕ)
      (valid : List (ObjectType V)), List.Forall₂ Asks cols asked → act = askedFrom 0 asked →
      base % act.length = 0 →
      scanTable (limitedOptions b maxRows) act 0 base (m.repetitions q asked.reduceOption)
          ⟨cols, valid, valid.isEmpty⟩ =
        ⟨cols.map (Column.advance m)^[q], valid ++ rows (cols.map (Column.remaining m)) q,
          (valid ++ rows (cols.map (Column.remaining m)) q).isEmpty⟩ := by
  intro q
  induction q with
  | zero =>
    intro cols asked base valid _ _ _
    simp [Mib.repetitions, scanTable]
  | succ q ih =>
    intro cols asked base valid h hact hbase
    have hrow := scanTable_row b maxRows m hbase
      (m.repetitions q (asked.reduceOption.map fun o => (m.getNext o).name)) h [] [] valid hact
    have hnext : List.Forall₂ Asks (cols.map (Column.advance m)) (asked.map m.nextCursor) := by
      rw [List.forall₂_map_left_iff, List.forall₂_map_right_iff]
      exact h.imp fun c a hca => hca.advance
    have hih := ih (base + act.length)
      (valid ++ (cols.map (Column.remaining m)).filterMap List.head?) hnext
      (by rw [askedFrom_map_nextCursor]; exact hact) (by rw [Nat.add_mod_right]; exact hbase)
    have hcursors : (asked.map m.nextCursor).reduceOption =
        asked.reduceOption.map fun o => (m.getNext o).name := List.reduceOption_map
    rw [hcursors] at hih
    -- the first row, and the rows of the columns it leaves
    have hrows : rows (cols.map (Column.remaining m)) (q + 1) =
        (cols.map (Column.remaining m)).filterMap List.head? ++
          rows ((cols.map (Column.advance m)).map (Column.remaining m)) q := by
      rw [Nat.add_comm, rows_add, rows_succ, rows_zero, List.nil_append, row_zero, List.map_map,
        List.map_map]
      congr 2
      refine List.map_congr_left ?_
      intro c _
      rw [Function.comp_apply, Function.comp_apply, remaining_advance, List.drop_one]
    rw [Mib.repetitions, hrows, ← List.append_assoc]
    simpa using hrow.trans hih

/-! ### One request -/

/-- Where a request asks a column from. -/
def Column.cursor (c : Column) : Option Oid := if c.completed then none else some c.lastOid

theorem asks_cursor {c : Column} (hin : c.Inside) : Asks c c.cursor :=
  ⟨hin, fun ho => by simp [Column.cursor, ho]⟩

theorem askedFrom_cursor (cols : List Column) :
    askedFrom 0 (cols.map Column.cursor) = activeIndices cols := by
  have hfrom : ∀ (cols : List Column) (k : ℕ), askedFrom k (cols.map Column.cursor) =
      (List.range' k cols.length).filter fun i => cols[i - k]?.any fun c => !c.completed := by
    intro cols
    induction cols with
    | nil => intro k; rfl
    | cons c cols ih =>
      intro k
      have hrest : ((List.range' (k + 1) cols.length).filter fun i =>
          (c :: cols)[i - k]?.any fun c => !c.completed) =
            (List.range' (k + 1) cols.length).filter fun i =>
              cols[i - (k + 1)]?.any fun c => !c.completed := by
        refine List.filter_congr ?_
        intro i hi
        have hk : k + 1 ≤ i := (List.mem_range'_1.mp hi).1
        rw [show i - k = i - (k + 1) + 1 by omega, List.getElem?_cons_succ]
      rw [List.length_cons, List.range'_succ, List.filter_cons, hrest, ← ih (k + 1)]
      cases ho : c.completed <;> simp [Column.cursor, ho, askedFrom]
  rw [hfrom cols 0, activeIndices, List.range_eq_range']
  simp

/-- A request asks each open column from its last OID on. -/
theorem oids_bulkRequest (st : WalkState) :
    (bulkRequest 0 st).oids = (st.columns.map Column.cursor).reduceOption := by
  have hfrom : ∀ (suf pre : List Column),
      ((askedFrom pre.length (suf.map Column.cursor)).map fun i =>
        (pre ++ suf)[i]?.elim [] Column.lastOid) = (suf.map Column.cursor).reduceOption := by
    intro suf
    induction suf with
    | nil => intro pre; rfl
    | cons c suf ih =>
      intro pre
      have hih := ih (pre ++ [c])
      rw [List.length_append, List.length_singleton, List.append_assoc] at hih
      cases ho : c.completed with
      | true => simpa [Column.cursor, ho, askedFrom] using hih
      | false => simpa [Column.cursor, ho, askedFrom, List.reduceOption_cons_of_some] using hih
  rw [bulkRequest, ← askedFrom_cursor]
  exact hfrom st.columns []

/-- What the columns have left. -/
def WalkState.left (m : Mib V) (st : WalkState) : List (List (ObjectType V)) :=
  st.columns.map (Column.remaining m)

/-- The walk is going on. -/
structure WalkState.Going (maxRows : ℕ) (st : WalkState) : Prop where
  hasVarBinds : st.hasVarBinds = true
  maxRepetitions_pos : 0 < st.maxRepetitions
  inside : ∀ c ∈ st.columns, c.Inside
  below : maxRows = 0 ∨ st.totalRows < maxRows

/-- The rows a request asks for are at least one. -/
theorem WalkState.Going.limitRepetitions_pos {b : Bool} {maxRows : ℕ} {st : WalkState}
    (h : st.Going maxRows) :
    0 < (limitRepetitions (limitedOptions b maxRows) st).maxRepetitions := by
  have hpos := h.maxRepetitions_pos
  unfold limitRepetitions
  split
  next hlim =>
    have hlt : st.totalRows < maxRows := hlim.2
    have hmin : 0 < min st.maxRepetitions (maxRows - st.totalRows) := by omega
    exact hmin
  next _ => exact hpos

theorem limitRepetitions_eq (opts : WalkOptions) (st : WalkState) :
    limitRepetitions opts st =
      { st with maxRepetitions := (limitRepetitions opts st).maxRepetitions } := by
  unfold limitRepetitions
  split <;> rfl

theorem getBulk_bulkRequest (m : Mib V) (st : WalkState) : m.getBulk (bulkRequest 0 st) =
    m.repetitions st.maxRepetitions (st.columns.map Column.cursor).reduceOption := by
  rw [← oids_bulkRequest]
  simp [Mib.getBulk, bulkRequest]

/-- The answer to a request, column by column. -/
theorem scanTable_getBulk (b : Bool) (maxRows : ℕ) (m : Mib V) {st : WalkState}
    (hinside : ∀ c ∈ st.columns, c.Inside) :
    scanTable (limitedOptions b maxRows) (activeIndices st.columns)
        (min (0 : ℤ).toNat (activeIndices st.columns).length) 0 (m.getBulk (bulkRequest 0 st))
        ⟨st.columns, [], true⟩ =
      ⟨st.columns.map (Column.advance m)^[st.maxRepetitions],
        rows (st.left m) st.maxRepetitions, (rows (st.left m) st.maxRepetitions).isEmpty⟩ := by
  have hasks : List.Forall₂ Asks st.columns (st.columns.map Column.cursor) := by
    rw [List.forall₂_map_right_iff, List.forall₂_same]
    exact fun c hc => asks_cursor (hinside c hc)
  have hscan := scanTable_repetitions b maxRows m st.maxRepetitions 0 [] hasks
    (askedFrom_cursor st.columns).symm (Nat.zero_mod _)
  rw [getBulk_bulkRequest]
  simpa [WalkState.left] using hscan

/-- **What the answer to a request makes the generator do**, in the rows it
brings. -/
theorem processTable_getBulk {b : Bool} {maxRows : ℕ} {m : Mib V} {st : WalkState}
    (h : st.Going maxRows) (hact : activeIndices st.columns ≠ []) :
    processTable (limitedOptions b maxRows) 0 st ⟨none, 0, 0, m.getBulk (bulkRequest 0 st)⟩ =
      if rows (st.left m) st.maxRepetitions = [] then ([], .returned)
      else if maxRows ≠ 0 ∧ maxRows < st.totalRows + (rows (st.left m) st.maxRepetitions).length
      then
        ([⟨none, some 0, some 0,
          (rows (st.left m) st.maxRepetitions).take (maxRows - st.totalRows)⟩],
          .suspended { st with
            columns := st.columns.map (Column.advance m)^[st.maxRepetitions]
            totalRows := maxRows
            totalCalls := st.totalCalls + 1 })
      else
        ([⟨none, some 0, some 0, rows (st.left m) st.maxRepetitions⟩],
          .suspended { st with
            columns := st.columns.map (Column.advance m)^[st.maxRepetitions]
            totalRows := st.totalRows + (rows (st.left m) st.maxRepetitions).length
            totalCalls := st.totalCalls + 1 }) := by
  have hactpos : 0 < (activeIndices st.columns).length := List.length_pos_iff.mpr hact
  have hne : (m.getBulk (bulkRequest 0 st)).isEmpty = false := by
    rw [List.isEmpty_eq_false_iff, ← List.length_pos_iff, getBulk_bulkRequest, length_repetitions,
      ← oids_bulkRequest]
    exact Nat.mul_pos h.maxRepetitions_pos (by simpa [bulkRequest] using hactpos)
  rw [processTable]
  simp only [hne, Bool.false_eq_true, if_false, scanTable_getBulk b maxRows m h.inside]
  set v := rows (st.left m) st.maxRepetitions
  by_cases hv : v = []
  · simp [hv]
  · have hv' : v.isEmpty = false := by simpa using hv
    have hmax : (limitedOptions b maxRows).maxRows = maxRows := rfl
    simp only [hv', hv, Bool.false_eq_true, if_false, hmax]
    -- the rows beyond `maxRows` are dropped from the answer
    by_cases hover : maxRows ≠ 0 ∧ maxRows < st.totalRows + v.length
    · have hbelow : st.totalRows < maxRows := h.below.resolve_left hover.1
      have hkeep : st.totalRows + v.length - maxRows < v.length := by omega
      have hcount : v.length - (st.totalRows + v.length - maxRows) = maxRows - st.totalRows := by
        omega
      simp only [if_pos hover, if_pos hkeep, hcount]
    · simp only [if_neg hover]

/-- One turn of the loop, in what it yields: either it is the last one and yields
everything still wanted, or it yields some of the rows that are left and goes on
with the others. -/
inductive WalkTurn (m : Mib V) (maxRows : ℕ) (st : WalkState) :
    List (WalkYield V) × Option WalkState → Prop
  | last (ys : List (WalkYield V))
      (h : ys.flatMap WalkYield.varBinds = wanted maxRows st.totalRows (interleave (st.left m))) :
      WalkTurn m maxRows st (ys, none)
  | next (ys : List (WalkYield V)) (st' : WalkState) (q : ℕ) (hgoing : st'.Going maxRows)
      (h : ys.flatMap WalkYield.varBinds = rows (st.left m) q) (hne : rows (st.left m) q ≠ [])
      (htotal : st'.totalRows = st.totalRows + (rows (st.left m) q).length)
      (hleft : st'.left m = (st.left m).map (List.drop q)) :
      WalkTurn m maxRows st (ys, some st')

theorem interleave_remaining_eq_nil {m : Mib V} {cols : List Column}
    (h : ∀ c ∈ cols, c.completed = true) :
    interleave (cols.map (Column.remaining m)) = [] := by
  refine interleave_eq_nil ?_
  intro l hl
  obtain ⟨c, hc, rfl⟩ := List.mem_map.mp hl
  exact Column.remaining_of_completed m (h c hc)

theorem left_map_advance {m : Mib V} {cols : List Column} (h : ∀ c ∈ cols, c.Inside) (q : ℕ) :
    (cols.map (Column.advance m)^[q]).map (Column.remaining m) =
      (cols.map (Column.remaining m)).map (List.drop q) := by
  rw [List.map_map, List.map_map]
  exact List.map_congr_left fun c hc => (iterate_advance (h c hc) q).2

/-- Nothing is cut off when the limit is not exceeded. -/
theorem wanted_of_le {maxRows total : ℕ} {vbs : List (ObjectType V)}
    (h : maxRows = 0 ∨ total + vbs.length ≤ maxRows) : wanted maxRows total vbs = vbs := by
  unfold wanted
  split
  next _ => rfl
  next hne => exact List.take_of_length_le (by omega)

/-- An answer that goes beyond `maxRows` is cut there, and the walk ends. -/
theorem WalkTurn.cut {b : Bool} {maxRows q : ℕ} {m : Mib V} {st st' : WalkState}
    {ys : List (WalkYield V)}
    (hover : maxRows ≠ 0 ∧ maxRows < st.totalRows + (rows (st.left m) q).length)
    (hys : ys.flatMap WalkYield.varBinds = (rows (st.left m) q).take (maxRows - st.totalRows))
    (htotal : st'.totalRows = maxRows) :
    WalkTurn m maxRows st (ys, afterYield (limitedOptions b maxRows) [] st') := by
  have hstop : (limitedOptions b maxRows).maxRows ≠ 0 ∧
      (limitedOptions b maxRows).maxRows ≤ st'.totalRows := ⟨hover.1, htotal.ge⟩
  simp only [afterYield, List.isEmpty_nil, if_true, if_pos hstop]
  refine .last ys ?_
  rw [hys, interleave_eq_rows_append (st.left m) q, wanted, if_neg hover.1,
    List.take_append_of_le_length (by omega)]

/-- After an answer within `maxRows` the walk goes on with what is left, unless the limit is
reached or the last column completed. -/
theorem WalkState.Going.turn_whole {b : Bool} {maxRows q : ℕ} {m : Mib V} {st st' : WalkState}
    {ys : List (WalkYield V)} (h : st.Going maxRows)
    (hys : ys.flatMap WalkYield.varBinds = rows (st.left m) q) (hne : rows (st.left m) q ≠ [])
    (hbelow : maxRows = 0 ∨ st'.totalRows ≤ maxRows) (hvar : st'.hasVarBinds = true)
    (hreps : 0 < st'.maxRepetitions)
    (hcolumns : st'.columns = st.columns.map (Column.advance m)^[q])
    (htotal : st'.totalRows = st.totalRows + (rows (st.left m) q).length) :
    WalkTurn m maxRows st (ys, afterYield (limitedOptions b maxRows) [] st') := by
  have hsplit := interleave_eq_rows_append (st.left m) q
  have hleft : st'.left m = (st.left m).map (List.drop q) := by
    rw [WalkState.left, hcolumns]
    exact left_map_advance h.inside q
  have hmax : (limitedOptions b maxRows).maxRows = maxRows := rfl
  -- `maxCalls` is 0: no number of calls ends the walk
  have hcalls : ¬ ((limitedOptions b maxRows).maxCalls ≠ 0 ∧
      (limitedOptions b maxRows).maxCalls ≤ st'.totalCalls) := fun hc => hc.1 rfl
  simp only [afterYield, List.isEmpty_nil, if_true, hmax, if_neg hcalls]
  by_cases hfull : maxRows ≠ 0 ∧ maxRows ≤ st'.totalRows
  · rw [if_pos hfull]
    have hlen : maxRows - st.totalRows = (rows (st.left m) q).length := by omega
    refine .last ys ?_
    rw [hys, hsplit, wanted, if_neg hfull.1, hlen, List.take_left]
  · rw [if_neg hfull]
    by_cases hall : st'.columns.all Column.completed = true
    · rw [if_pos hall]
      have hnil : interleave (st'.left m) = [] :=
        interleave_remaining_eq_nil (List.all_eq_true.mp hall)
      refine .last ys ?_
      rw [hys, hsplit, ← hleft, hnil, List.append_nil, wanted_of_le (by omega)]
    · rw [if_neg hall]
      refine .next ys st' q ⟨hvar, hreps, ?_, by omega⟩ hys hne htotal hleft
      rw [hcolumns]
      intro c hc
      obtain ⟨d, hd, rfl⟩ := List.mem_map.mp hc
      exact (iterate_advance (h.inside d hd) q).1

/-- **Every turn of the loop is one of the two.** -/
theorem WalkState.Going.turn {b : Bool} {maxRows : ℕ} {m : Mib V} {st : WalkState}
    (h : st.Going maxRows) (n : ℕ) :
    WalkTurn m maxRows st (iteration (limitedOptions b maxRows) 0 m.peers n st) := by
  rw [iteration, loopBody, if_pos h.hasVarBinds]
  have hlim := limitRepetitions_eq (limitedOptions b maxRows) st
  have hpos := h.limitRepetitions_pos (b := b)
  set q := (limitRepetitions (limitedOptions b maxRows) st).maxRepetitions
  have hgoing : (limitRepetitions (limitedOptions b maxRows) st).Going maxRows := by
    rw [hlim]
    exact ⟨h.hasVarBinds, hpos, h.inside, h.below⟩
  rw [hlim] at hgoing ⊢
  by_cases hact : activeIndices st.columns = []
  · simp only [hact, List.isEmpty_nil, if_true]
    refine .last [] ?_
    have hnil : interleave (st.left m) = [] :=
      interleave_remaining_eq_nil (completed_of_activeIndices_eq_nil hact)
    simp [hnil, wanted]
  · have hempty : (activeIndices st.columns).isEmpty = false := by simpa using hact
    -- the agent answers without an error
    have hresp : ∀ st' : WalkState, processResponse (limitedOptions b maxRows) 0 st'
        (m.peers.bulkCmd n (bulkRequest 0 st')) =
          processTable (limitedOptions b maxRows) 0 st'
            ⟨none, 0, 0, m.getBulk (bulkRequest 0 st')⟩ := by
      intro st'
      simp [processResponse, Mib.peers]
    simp only [hempty, Bool.false_eq_true, if_false, hresp]
    rw [processTable_getBulk hgoing hact]
    have hleft : WalkState.left m { st with maxRepetitions := q } = st.left m := rfl
    simp only [hleft]
    by_cases hnew : rows (st.left m) q = []
    · rw [if_pos hnew]
      refine .last [] ?_
      rw [interleave_eq_nil (eq_nil_of_rows_eq_nil hpos hnew)]
      simp [wanted]
    · rw [if_neg hnew]
      by_cases hover : maxRows ≠ 0 ∧ maxRows < st.totalRows + (rows (st.left m) q).length
      · rw [if_pos hover]
        exact .cut hover (by simp) rfl
      · rw [if_neg hover]
        exact h.turn_whole (by simp) hnew (by dsimp only; omega) h.hasVarBinds hpos rfl rfl

/-! ### Runs -/

/-- Rows already yielded count against the limit. -/
theorem wanted_append {maxRows total : ℕ} {v : List (ObjectType V)} (vbs : List (ObjectType V))
    (h : maxRows = 0 ∨ total + v.length < maxRows) :
    wanted maxRows total (v ++ vbs) = v ++ wanted maxRows (total + v.length) vbs := by
  unfold wanted
  split
  next _ => rfl
  next hne =>
    have hlt := h.resolve_left hne
    rw [List.take_append, List.take_of_length_le (by omega), Nat.sub_sub]

/-- The walk from any state it goes on from, by strong induction on the number of
varbinds left. -/
theorem walkFrom_left (b : Bool) (maxRows : ℕ) (m : Mib V) :
    ∀ (w n : ℕ) (st : WalkState), (interleave (st.left m)).length ≤ w → st.Going maxRows →
      ∃ fuel, (walkFrom (limitedOptions b maxRows) 0 m.peers fuel n st).returned = true ∧
        (walkFrom (limitedOptions b maxRows) 0 m.peers fuel n st).varBinds =
          wanted maxRows st.totalRows (interleave (st.left m)) := by
  intro w
  induction w using Nat.strong_induction_on with
  | _ w ih =>
    intro n st hw hgoing
    have hturn := hgoing.turn (b := b) (m := m) n
    generalize hit : iteration (limitedOptions b maxRows) 0 m.peers n st = turn at hturn
    cases hturn with
    | last ys h => exact ⟨1, by simp [walkFrom, hit], by simp [walkFrom, hit, WalkRun.varBinds, h]⟩
    | next ys st' q hgoing' h hne htotal hleft =>
      have hsplit := interleave_eq_rows_append (st.left m) q
      rw [← hleft] at hsplit
      -- the answer was not empty, so that less is left
      have hlt : (interleave (st'.left m)).length < w := by
        have hpos : 0 < (rows (st.left m) q).length := List.length_pos_iff.mpr hne
        have hlen := congrArg List.length hsplit
        rw [List.length_append] at hlen
        omega
      obtain ⟨fuel, hret, hvbs⟩ := ih _ hlt (n + 1) st' le_rfl hgoing'
      refine ⟨fuel + 1, by simp [walkFrom, hit, hret], ?_⟩
      have hbelow := hgoing'.below
      rw [htotal] at hvbs hbelow
      rw [hsplit, wanted_append _ hbelow, ← hvbs]
      simp [walkFrom, hit, WalkRun.varBinds, h]

theorem going_init (maxRows : ℕ) {reps : ℕ} (hreps : 0 < reps) {roots : List Oid}
    (hne : roots ≠ []) : (WalkState.init reps roots).Going maxRows := by
  refine ⟨by simpa [WalkState.init] using hne, hreps, ?_, Nat.eq_zero_or_pos maxRows⟩
  intro c hc
  obtain ⟨r, -, rfl⟩ := List.mem_map.mp hc
  exact List.prefix_rfl

/-- **The parallel bulk walk equals the reference walk**: it returns, and what it
has yielded then is the row-major interleaving of the subtrees of its roots, cut
at `maxRows`, whatever number of repetitions it asks for. -/
theorem multiBulkWalkCmd_eq_reference (m : Mib V) (b : Bool) (maxRows : ℕ) {reps : ℕ}
    (hreps : 0 < reps) (roots : List Oid) :
    (∃ fuel, (m.walk b maxRows reps roots fuel).returned = true) ∧
      ∀ fuel, (m.walk b maxRows reps roots fuel).returned = true →
        (m.walk b maxRows reps roots fuel).varBinds =
          if maxRows = 0 then m.referenceWalk roots
          else (m.referenceWalk roots).take maxRows := by
  have hwalk : ∃ fuel, (m.walk b maxRows reps roots fuel).returned = true ∧
      (m.walk b maxRows reps roots fuel).varBinds = wanted maxRows 0 (m.referenceWalk roots) := by
    cases roots with
    | nil =>
      -- without varbinds the generator yields once, and returns
      refine ⟨1, ?_, ?_⟩ <;> cases maxRows <;> rfl
    | cons r roots =>
      have hleft : (WalkState.init reps (r :: roots)).left m = (r :: roots).map m.subtree := by
        rw [WalkState.left, WalkState.init, List.map_map]
        exact List.map_congr_left fun r _ => remaining_start m r
      have h := walkFrom_left b maxRows m _ 0 (.init reps (r :: roots)) le_rfl
        (going_init maxRows hreps (List.cons_ne_nil r roots))
      rw [hleft] at h
      exact h
  obtain ⟨fuel, hret, hvbs⟩ := hwalk
  refine ⟨⟨fuel, hret⟩, fun g hg => ?_⟩
  have heq : m.walk b maxRows reps roots g = m.walk b maxRows reps roots fuel :=
    walkFrom_unique hg hret
  rw [heq, hvbs]
  rfl

/-- A device with three instances under `system` and one under `interfaces`. -/
def unevenMib : Mib ℕ where
  entries := [([1, 3, 6, 1, 2, 1, 1, 3, 0], 10), ([1, 3, 6, 1, 2, 1, 1, 7, 0], 11),
    ([1, 3, 6, 1, 2, 1, 1, 8, 0], 12), ([1, 3, 6, 1, 2, 1, 2, 1, 0], 24)]
  sorted := by decide

/-- The one instance of the shorter subtree stands in the first row. -/
example : (unevenMib.referenceWalk systemAndInterfaces).map ObjectType.val =
    [.value 10, .value 24, .value 11, .value 12] := by decide

theorem multiBulkWalkCmd_eq_reference_unevenMib : 0 < 2 ∧
    (∃ fuel, (unevenMib.walk false 3 2 systemAndInterfaces fuel).returned = true) ∧
      ∀ fuel, (unevenMib.walk false 3 2 systemAndInterfaces fuel).returned = true →
        (unevenMib.walk false 3 2 systemAndInterfaces fuel).varBinds =
          if 3 = 0 then unevenMib.referenceWalk systemAndInterfaces
          else (unevenMib.referenceWalk systemAndInterfaces).take 3 :=
  ⟨by decide, multiBulkWalkCmd_eq_reference unevenMib false 3 (by decide) systemAndInterfaces⟩

end Sc4snmp
