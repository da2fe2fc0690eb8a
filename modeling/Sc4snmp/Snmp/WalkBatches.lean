import Sc4snmp.Snmp.WalkTurns

/-!
# The batches of a walk

A batch without an error indication and with a zero error status is what the caller of
`multi_bulk_walk_cmd` takes for device data.  There are two kinds.  Of an answer that is
free of errors the generator yields the varbinds it accepts, cut at `maxRows`.  Of an
answer with the status noSuchName it yields the active columns with `Null` values, and
hides the status: that batch looks like device data and comes from nowhere.

The limits of rows and calls are for the batches of the first kind.  At the start of
every iteration fewer rows than `maxRows` have been counted, so that a batch is never
beyond the limit as a whole.

## Main definitions

* `handedOver` — the varbinds of the batches that look free of errors.
* `Provenance` — what is handed over is in the answers, each varbind once.
* `HidesNoSuchName` — the answer to the request of an iteration is noSuchName.
* `Limited` — the limits are kept.

## Main results

* `multiBulkWalkCmd_provenance_iff` — **when only device data is handed over**.
* `multiBulkWalkCmd_limited` — **the limits hold for every responder**.
-/

namespace Sc4snmp

variable {V : Type*}

/-! ### Device data -/

/-- The batch has no error indication and a zero error status, or none. -/
def WalkYield.errorFree (y : WalkYield V) : Bool :=
  y.errorIndication.isNone && y.errorStatus.getD 0 == 0

/-- The varbinds of the batches that look free of errors. -/
def handedOver (ys : List (WalkYield V)) : List (ObjectType V) :=
  (ys.filter WalkYield.errorFree).flatMap WalkYield.varBinds

theorem handedOver_flatMap {α : Type*} (f : α → List (WalkYield V)) (l : List α) :
    handedOver (l.flatMap f) = l.flatMap fun a => handedOver (f a) := by
  induction l with
  | nil => rfl
  | cons a l ih =>
    rw [List.flatMap_cons, List.flatMap_cons, ← ih]
    simp [handedOver]

/-- The varbinds of an answer free of errors, none if there is no such answer. -/
def walkTable (opts : WalkOptions) (nonRepeaters : ℤ) (peers : Peers V) (p : ℕ × WalkState) :
    List (ObjectType V) :=
  (walkTable? opts nonRepeaters peers p).getD []

/-- **What is handed over is device data**: of every iteration varbinds of its answer, in
their order, and so over the whole walk each varbind of an answer once. -/
structure Provenance (opts : WalkOptions) (nonRepeaters : ℤ) (peers : Peers V) (run : WalkRun V) :
    Prop where
  batches : ∀ p ∈ run.heads,
    (handedOver (yieldsOf opts nonRepeaters peers p)).Sublist (walkTable opts nonRepeaters peers p)
  walk : (handedOver run.yields).Sublist (run.heads.flatMap (walkTable opts nonRepeaters peers))

/-- The request of an iteration is answered with the status noSuchName. -/
def HidesNoSuchName (opts : WalkOptions) (nonRepeaters : ℤ) (peers : Peers V)
    (p : ℕ × WalkState) : Prop :=
  ∃ r, answerTo opts nonRepeaters (peers.bulkCmd p.1) p.2 = some r ∧
    r.effectiveError opts = none ∧ r.errorStatus = 2

section Provenance

variable {opts : WalkOptions} {nonRepeaters : ℤ} {peers : Peers V} {p : ℕ × WalkState}

/-- What is accepted is in the response. -/
theorem map_snd_accepted_sublist (opts : WalkOptions) (nonRepeaters : ℤ) (st : WalkState)
    (table : List (ObjectType V)) :
    ((st.accepted opts nonRepeaters table).map Prod.snd).Sublist table :=
  ((accepted_sublist opts st.columns _).map Prod.snd).trans (prefix_attributed _ _ _ _).sublist

theorem activeIndices_ne_nil_of_answerTo {bulkCmd : BulkRequest → BulkResponse V} {st : WalkState}
    {r : BulkResponse V} (hr : answerTo opts nonRepeaters bulkCmd st = some r) :
    activeIndices st.columns ≠ [] := by
  unfold answerTo at hr
  split at hr
  · next h => exact h.2
  · cases hr

/-- **One turn**: it hands over a part of its answer, unless it hides the status noSuchName. -/
theorem handedOver_yieldsOf (opts : WalkOptions) (nonRepeaters : ℤ) (peers : Peers V)
    (p : ℕ × WalkState) :
    (handedOver (yieldsOf opts nonRepeaters peers p)).Sublist
        (walkTable opts nonRepeaters peers p) ↔ ¬ HidesNoSuchName opts nonRepeaters peers p := by
  obtain ⟨ys, control, hturn, hiteration⟩ :=
    iteration_turn opts nonRepeaters peers p.1 p.2
  have hys : yieldsOf opts nonRepeaters peers p = ys := congrArg Prod.fst hiteration
  rw [hys]
  -- an answer that is no noSuchName, and a turn that hands over nothing
  have hother : ∀ r, answerTo opts nonRepeaters (peers.bulkCmd p.1) p.2 = some r →
      ¬ (r.effectiveError opts = none ∧ r.errorStatus = 2) →
      ¬ HidesNoSuchName opts nonRepeaters peers p := by
    rintro r hr hnot ⟨r', hr', h⟩
    cases hr.symm.trans hr'
    exact hnot h
  have hnothing : handedOver ys = [] → ¬ HidesNoSuchName opts nonRepeaters peers p →
      ((handedOver ys).Sublist (walkTable opts nonRepeaters peers p) ↔
        ¬ HidesNoSuchName opts nonRepeaters peers p) := by
    intro hempty hnot
    rw [hempty]
    exact iff_of_true (List.nil_sublist _) hnot
  cases hturn with
  | idle h =>
    refine hnothing rfl ?_
    rintro ⟨r, hr, -⟩
    simp [answerTo, h] at hr
  | exhausted hvar h =>
    refine hnothing rfl ?_
    rintro ⟨r, hr, -⟩
    exact activeIndices_ne_nil_of_answerTo hr h
  | failed r e hr he hfinal =>
    exact hnothing rfl (hother r hr fun h => by rw [h.1] at he; cases he)
  | timedOut r hr he => exact hnothing rfl (hother r hr fun h => by rw [h.1] at he; cases he)
  | refused r hr he hstatus =>
    by_cases htwo : r.errorStatus = 2
    · -- the columns are active, and the answer is not free of errors
      have htable : walkTable opts nonRepeaters peers p = [] := by
        rw [walkTable, walkTable?, hr]
        simp [BulkResponse.table?, htwo]
      have hnulls : handedOver [(⟨none, some (if r.errorStatus = 2 then 0 else r.errorStatus),
          some (if r.errorStatus = 2 then 0 else r.errorIndex), p.2.nulls⟩ : WalkYield V)] =
            p.2.nulls := by
        simp [handedOver, WalkYield.errorFree, htwo]
      rw [hnulls, htable, List.sublist_nil]
      refine iff_of_false ?_ (not_not.mpr ⟨r, hr, he, htwo⟩)
      rw [WalkState.nulls, List.map_eq_nil_iff]
      exact activeIndices_ne_nil_of_answerTo hr
    · refine hnothing ?_ (hother r hr fun h => htwo h.2)
      simp [handedOver, WalkYield.errorFree, htwo, hstatus]
  | nothing r table hr htable h =>
    refine hnothing rfl (hother r hr fun hrefused => ?_)
    simp [BulkResponse.table?, hrefused.2] at htable
  | beyond r table hr htable h hlimit =>
    refine hnothing rfl (hother r hr fun hrefused => ?_)
    simp [BulkResponse.table?, hrefused.2] at htable
  | batch r table hr htable h hlimit =>
    have hfree : walkTable opts nonRepeaters peers p = table := by
      rw [walkTable, walkTable?, hr, Option.bind_some, htable, Option.getD_some]
    have hbatch : (((p.2.accepted opts nonRepeaters table).map Prod.snd).take
        (p.2.kept opts (p.2.accepted opts nonRepeaters table).length)).Sublist table :=
      (List.take_sublist _ _).trans (map_snd_accepted_sublist opts nonRepeaters p.2 table)
    refine iff_of_true ?_ (hother r hr fun hrefused => ?_)
    · rw [hfree]
      simpa [handedOver, WalkYield.errorFree] using hbatch
    · simp [BulkResponse.table?, hrefused.2] at htable

/-- Parts of lists are a part of the lists together. -/
theorem flatMap_sublist {α β : Type*} {f g : α → List β} {l : List α}
    (h : ∀ a ∈ l, (f a).Sublist (g a)) : (l.flatMap f).Sublist (l.flatMap g) := by
  induction l with
  | nil => exact List.Sublist.refl _
  | cons a l ih =>
    rw [List.forall_mem_cons] at h
    rw [List.flatMap_cons, List.flatMap_cons]
    exact h.1.append (ih h.2)

/-- **Only device data is handed over exactly when no request is answered with noSuchName**, for
every responder, consumer and list of roots, at any point of the walk. -/
theorem multiBulkWalkCmd_provenance_iff (opts : WalkOptions) (nonRepeaters : ℤ)
    (maxRepetitions : ℕ) (varBinds : List Oid) (peers : Peers V) (fuel : ℕ) :
    Provenance opts nonRepeaters peers
        (multiBulkWalkCmd opts nonRepeaters maxRepetitions varBinds peers fuel) ↔
      ∀ p ∈ (multiBulkWalkCmd opts nonRepeaters maxRepetitions varBinds peers fuel).heads,
        ¬ HidesNoSuchName opts nonRepeaters peers p := by
  constructor
  · intro h p hp
    exact (handedOver_yieldsOf opts nonRepeaters peers p).mp (h.batches p hp)
  · intro h
    have hbatches : ∀ p ∈
        (multiBulkWalkCmd opts nonRepeaters maxRepetitions varBinds peers fuel).heads,
        (handedOver (yieldsOf opts nonRepeaters peers p)).Sublist
          (walkTable opts nonRepeaters peers p) := fun p hp =>
      (handedOver_yieldsOf opts nonRepeaters peers p).mpr (h p hp)
    refine ⟨hbatches, ?_⟩
    have hyields : (multiBulkWalkCmd opts nonRepeaters maxRepetitions varBinds peers fuel).yields =
        (multiBulkWalkCmd opts nonRepeaters maxRepetitions varBinds peers fuel).heads.flatMap
          (yieldsOf opts nonRepeaters peers) := yields_walkFrom _ _ _ _ _ _
    rw [hyields, handedOver_flatMap]
    exact flatMap_sublist hbatches

/-- An agent that has nothing under the root it is asked for, and says so as SNMPv1 agents do. -/
def noSuchNameAgent : Peers ℕ where
  bulkCmd := fun _ _ => ⟨none, 2, 1, []⟩

/-- The root is handed over with a `Null` value, though the agent has sent nothing. -/
theorem multiBulkWalkCmd_provenance_fails :
    ¬ ∀ (opts : WalkOptions) (nonRepeaters : ℤ) (maxRepetitions : ℕ) (varBinds : List Oid)
      (peers : Peers ℕ) (fuel : ℕ), Provenance opts nonRepeaters peers
        (multiBulkWalkCmd opts nonRepeaters maxRepetitions varBinds peers fuel) := by
  intro h
  have hwalk := (h (subtreeOptions false) 0 10 [[1, 3, 6, 1, 2, 1, 1]] noSuchNameAgent 1).walk
  have hsome : handedOver (multiBulkWalkCmd (subtreeOptions false) 0 10 [[1, 3, 6, 1, 2, 1, 1]]
      noSuchNameAgent 1).yields = [⟨[1, 3, 6, 1, 2, 1, 1], .null⟩] := by decide
  have hnone : (multiBulkWalkCmd (subtreeOptions false) 0 10 [[1, 3, 6, 1, 2, 1, 1]]
      noSuchNameAgent 1).heads.flatMap (walkTable (subtreeOptions false) 0 noSuchNameAgent) =
        [] := by decide
  rw [hsome, hnone, List.sublist_nil] at hwalk
  cases hwalk

end Provenance

/-! ### Limits -/

/-- A responder, read by a consumer that sends nothing back. -/
def Peers.plain (respond : ℕ → BulkRequest → BulkResponse V) : Peers V where
  bulkCmd := respond

/-- The batches of an iteration that are taken from an answer free of errors. -/
def dataOf (opts : WalkOptions) (nonRepeaters : ℤ) (peers : Peers V) (p : ℕ × WalkState) :
    List (WalkYield V) :=
  if (walkTable? opts nonRepeaters peers p).isSome then yieldsOf opts nonRepeaters peers p else []

/-- The valid varbinds of a response. -/
def WalkState.validResults (opts : WalkOptions) (nonRepeaters : ℤ) (st : WalkState)
    (table : List (ObjectType V)) : List (ObjectType V) :=
  (scanTable opts (activeIndices st.columns)
    (min nonRepeaters.toNat (activeIndices st.columns).length) 0 table
    ⟨st.columns, [], true⟩).validResults

/-- The branch for a batch that is beyond `maxRows` as a whole. -/
def BeyondLimit (opts : WalkOptions) (st : WalkState) (validResults : List (ObjectType V)) : Prop :=
  validResults ≠ [] ∧ opts.maxRows ≠ 0 ∧ opts.maxRows < st.totalRows + validResults.length ∧
    validResults.length ≤ st.totalRows + validResults.length - opts.maxRows

/-- **The limits are kept** over a run. -/
structure Limited (opts : WalkOptions) (nonRepeaters : ℤ) (maxRepetitions : ℕ) (peers : Peers V)
    (run : WalkRun V) : Prop where
  rows : ((run.heads.flatMap (dataOf opts nonRepeaters peers)).flatMap
    WalkYield.varBinds).length ≤ opts.maxRows
  calls : ((run.heads.flatMap (dataOf opts nonRepeaters peers)).filter
    fun y => !y.varBinds.isEmpty).length ≤ opts.maxCalls
  cut : ∀ p ∈ run.heads, ∀ table, walkTable? opts nonRepeaters peers p = some table →
    ∀ y ∈ yieldsOf opts nonRepeaters peers p,
      y.varBinds <+: p.2.validResults opts nonRepeaters table
  within : ∀ p ∈ run.heads, ∀ table, walkTable? opts nonRepeaters peers p = some table →
    ¬ BeyondLimit opts p.2 (p.2.validResults opts nonRepeaters table)
  repetitions : 1 ≤ maxRepetitions → ∀ p ∈ run.heads,
    1 ≤ (bulkRequest nonRepeaters (limitRepetitions opts p.2)).maxRepetitions

section Limits

variable {opts : WalkOptions} {nonRepeaters : ℤ} {peers : Peers V}

theorem validResults_eq (opts : WalkOptions) (nonRepeaters : ℤ) (st : WalkState)
    (table : List (ObjectType V)) :
    st.validResults opts nonRepeaters table =
      (st.accepted opts nonRepeaters table).map Prod.snd := by
  rw [WalkState.validResults, scanTable_eq]

/-- What is kept of a batch does not exceed the limit. -/
theorem totalRows_add_kept {st : WalkState} (h : st.totalRows < opts.maxRows) (n : ℕ) :
    st.totalRows + st.kept opts n ≤ opts.maxRows ∧ st.kept opts n ≤ n := by
  unfold WalkState.kept
  split
  · next hover => exact ⟨by omega, by omega⟩
  · next hnot => exact ⟨by omega, le_rfl⟩

/-- The repetitions asked for stay positive. -/
theorem maxRepetitions_limitRepetitions {st : WalkState} (h : 1 ≤ st.maxRepetitions) :
    1 ≤ (limitRepetitions opts st).maxRepetitions := by
  unfold limitRepetitions
  split
  · next hbelow =>
    have hmin : 1 ≤ min st.maxRepetitions (opts.maxRows - st.totalRows) := by omega
    exact hmin
  · exact h

theorem dataOf_of_none {p : ℕ × WalkState} (h : walkTable? opts nonRepeaters peers p = none) :
    dataOf opts nonRepeaters peers p = [] := by
  rw [dataOf, h]
  rfl

theorem dataOf_of_some {p : ℕ × WalkState} {table : List (ObjectType V)}
    (h : walkTable? opts nonRepeaters peers p = some table) :
    dataOf opts nonRepeaters peers p = yieldsOf opts nonRepeaters peers p := by
  rw [dataOf, h]
  rfl

/-- Only an answer free of errors has a table. -/
theorem walkTable?_of_error {p : ℕ × WalkState} {r : BulkResponse V}
    (hr : answerTo opts nonRepeaters (peers.bulkCmd p.1) p.2 = some r)
    (h : ¬ (r.effectiveError opts = none ∧ r.errorStatus = 0)) :
    walkTable? opts nonRepeaters peers p = none := by
  rw [walkTable?, hr, Option.bind_some, BulkResponse.table?, if_neg h]

theorem walkTable?_of_table {p : ℕ × WalkState} {r : BulkResponse V}
    {table : List (ObjectType V)}
    (hr : answerTo opts nonRepeaters (peers.bulkCmd p.1) p.2 = some r)
    (htable : r.table? opts = some table) :
    walkTable? opts nonRepeaters peers p = some table := by
  rw [walkTable?, hr, Option.bind_some, htable]

/-- What an iteration counts: the rows and the batches of its data. -/
structure Counted (opts : WalkOptions) (data : List (WalkYield V)) (st : WalkState)
    (control : Control) : Prop where
  rows : st.totalRows + (data.flatMap WalkYield.varBinds).length ≤ opts.maxRows
  calls : data.length ≤ 1
  next : ∀ st', control = .suspended st' →
    st'.totalRows = st.totalRows + (data.flatMap WalkYield.varBinds).length ∧
    st'.totalCalls = st.totalCalls + data.length ∧
    (1 ≤ st.maxRepetitions → 1 ≤ st'.maxRepetitions)

theorem counted_nil_returned {st : WalkState} (h : st.totalRows < opts.maxRows) :
    Counted opts ([] : List (WalkYield V)) st .returned :=
  ⟨by simpa using h.le, Nat.zero_le 1, fun st' hst' => by cases hst'⟩

/-- **One turn counts what it yields of an answer free of errors**; a timeout does not count. -/
theorem ResponseTurn.counted {p : ℕ × WalkState} {ys : List (WalkYield V)} {control : Control}
    (hturn : ResponseTurn opts nonRepeaters (peers.bulkCmd p.1) p.2 (ys, control))
    (hys : yieldsOf opts nonRepeaters peers p = ys) (hrows : p.2.totalRows < opts.maxRows) :
    Counted opts (dataOf opts nonRepeaters peers p) p.2 control := by
  cases hturn with
  | idle h =>
    have hnone : walkTable? opts nonRepeaters peers p = none := by
      simp [walkTable?, answerTo, h]
    rw [dataOf_of_none hnone]
    refine ⟨by simpa using hrows.le, Nat.zero_le 1, ?_⟩
    intro st' hst'
    cases hst'
    exact ⟨rfl, rfl, id⟩
  | exhausted hvar h =>
    have hnone : walkTable? opts nonRepeaters peers p = none := by
      simp [walkTable?, answerTo, h]
    rw [dataOf_of_none hnone]
    exact counted_nil_returned hrows
  | failed r e hr he hfinal =>
    rw [dataOf_of_none (walkTable?_of_error hr fun h => by rw [h.1] at he; cases he)]
    exact counted_nil_returned hrows
  | timedOut r hr he =>
    rw [dataOf_of_none (walkTable?_of_error hr fun h => by rw [h.1] at he; cases he)]
    refine ⟨by simpa using hrows.le, Nat.zero_le 1, ?_⟩
    intro st' hst'
    cases hst'
    exact ⟨totalRows_limitRepetitions opts p.2, totalCalls_limitRepetitions opts p.2,
      maxRepetitions_limitRepetitions⟩
  | refused r hr he hstatus =>
    rw [dataOf_of_none (walkTable?_of_error hr fun h => hstatus h.2)]
    exact counted_nil_returned hrows
  | nothing r table hr htable h =>
    rw [dataOf_of_some (walkTable?_of_table hr htable), hys]
    exact counted_nil_returned hrows
  | beyond r table hr htable h hlimit => exact absurd hlimit.2 (by omega)
  | batch r table hr htable h hlimit =>
    rw [dataOf_of_some (walkTable?_of_table hr htable), hys]
    obtain ⟨hbound, hle⟩ :=
      totalRows_add_kept hrows (p.2.accepted opts nonRepeaters table).length
    have hlength : (((p.2.accepted opts nonRepeaters table).map Prod.snd).take
        (p.2.kept opts (p.2.accepted opts nonRepeaters table).length)).length =
          p.2.kept opts (p.2.accepted opts nonRepeaters table).length := by
      rw [List.length_take, List.length_map]
      omega
    refine ⟨?_, le_rfl, ?_⟩
    · simpa only [List.flatMap_singleton, hlength] using hbound
    · intro st' hst'
      cases hst'
      refine ⟨?_, rfl, maxRepetitions_limitRepetitions⟩
      simp only [List.flatMap_singleton, hlength]
      rfl

/-- A batch of an answer free of errors is a beginning of its valid varbinds. -/
theorem ResponseTurn.cut {p : ℕ × WalkState} {ys : List (WalkYield V)} {control : Control}
    {table : List (ObjectType V)}
    (hturn : ResponseTurn opts nonRepeaters (peers.bulkCmd p.1) p.2 (ys, control))
    (htable : walkTable? opts nonRepeaters peers p = some table) :
    ∀ y ∈ ys, y.varBinds <+: (p.2.accepted opts nonRepeaters table).map Prod.snd := by
  -- the answer is free of errors, so that the turn is no failure
  obtain ⟨r, hr, hfree⟩ := Option.bind_eq_some_iff.mp htable
  have hno : r.effectiveError opts = none ∧ r.errorStatus = 0 := by
    unfold BulkResponse.table? at hfree
    split at hfree
    · assumption
    · cases hfree
  cases hturn with
  | idle h => simp [answerTo, h] at hr
  | exhausted hvar h => exact fun y hy => absurd hy List.not_mem_nil
  | failed r' e hr' he hfinal =>
    cases hr.symm.trans hr'
    rw [hno.1] at he
    cases he
  | timedOut r' hr' he =>
    cases hr.symm.trans hr'
    rw [hno.1] at he
    cases he
  | refused r' hr' he hstatus =>
    cases hr.symm.trans hr'
    exact absurd hno.2 hstatus
  | nothing r' table' hr' htable' h => exact fun y hy => absurd hy List.not_mem_nil
  | beyond r' table' hr' htable' h hlimit => exact fun y hy => absurd hy List.not_mem_nil
  | batch r' table' hr' htable' h hlimit =>
    cases hr.symm.trans hr'
    cases hfree.symm.trans htable'
    intro y hy
    obtain rfl := List.mem_singleton.mp hy
    exact List.take_prefix _ _

/-- **The walk from any state below the limits**: what it yields stays below them. -/
theorem walkFrom_counted (hplain : ∀ n, peers.send n = []) (hrows : 0 < opts.maxRows)
    (hcalls : 0 < opts.maxCalls) :
    ∀ (fuel n : ℕ) (st : WalkState), st.totalRows < opts.maxRows → st.totalCalls < opts.maxCalls →
      st.totalRows + (((walkFrom opts nonRepeaters peers fuel n st).heads.flatMap
          (dataOf opts nonRepeaters peers)).flatMap WalkYield.varBinds).length ≤ opts.maxRows ∧
        st.totalCalls + ((walkFrom opts nonRepeaters peers fuel n st).heads.flatMap
          (dataOf opts nonRepeaters peers)).length ≤ opts.maxCalls := by
  intro fuel
  induction fuel with
  | zero =>
    intro n st hr hc
    exact ⟨by simpa [walkFrom] using hr.le, by simpa [walkFrom] using hc.le⟩
  | succ fuel ih =>
    intro n st hr hc
    obtain ⟨ys, control, hturn, hit⟩ := iteration_turn opts nonRepeaters peers n st
    have hcounted := ResponseTurn.counted (p := (n, st)) hturn (congrArg Prod.fst hit) hr
    have hone := hcounted.calls
    have hbound := hcounted.rows
    -- the last iteration of the run
    have hlast : iteration opts nonRepeaters peers n st = (ys, none) →
        st.totalRows + (((walkFrom opts nonRepeaters peers (fuel + 1) n st).heads.flatMap
          (dataOf opts nonRepeaters peers)).flatMap WalkYield.varBinds).length ≤ opts.maxRows ∧
        st.totalCalls + ((walkFrom opts nonRepeaters peers (fuel + 1) n st).heads.flatMap
          (dataOf opts nonRepeaters peers)).length ≤ opts.maxCalls := by
      intro hit
      rw [walkFrom_of_last hit, List.flatMap_singleton]
      exact ⟨hbound, by omega⟩
    cases control with
    | returned => exact hlast hit
    | suspended st' =>
      dsimp only at hit
      rw [hplain n] at hit
      cases hnext : afterYield opts [] st' with
      | none => exact hlast (hnext ▸ hit)
      | some st'' =>
        -- the next iteration starts below the limits again
        rw [hnext] at hit
        obtain ⟨rfl, hrows', hcalls'⟩ := afterYield_nil hnext
        obtain ⟨htotal, hcount, -⟩ := hcounted.next st'' rfl
        dsimp only at htotal hcount
        obtain ⟨hrest, hrestCalls⟩ := ih (n + 1) st'' (by omega) (by omega)
        rw [walkFrom_of_next hit, List.flatMap_cons, List.flatMap_append, List.length_append,
          List.length_append]
        exact ⟨by omega, by omega⟩

/-- Every iteration of a walk with limits starts below them. -/
theorem heads_below (hplain : ∀ n, peers.send n = []) (hrows : 0 < opts.maxRows) (fuel n : ℕ)
    {st : WalkState} (h : st.totalRows < opts.maxRows) (maxRepetitions : ℕ)
    (hreps : 1 ≤ maxRepetitions → 1 ≤ st.maxRepetitions) :
    ∀ p ∈ (walkFrom opts nonRepeaters peers fuel n st).heads,
      p.2.totalRows < opts.maxRows ∧ (1 ≤ maxRepetitions → 1 ≤ p.2.maxRepetitions) := by
  refine forall_heads (I := fun _ st => st.totalRows < opts.maxRows ∧
    (1 ≤ maxRepetitions → 1 ≤ st.maxRepetitions)) ?_ fuel n ⟨h, hreps⟩
  rintro n st ys st' ⟨hbelow, hreps⟩ hnext
  obtain ⟨ys', control, hturn, hit⟩ := iteration_turn opts nonRepeaters peers n st
  have hcounted := ResponseTurn.counted (p := (n, st)) hturn (congrArg Prod.fst hit) hbelow
  rw [hit] at hnext
  cases control with
  | returned => cases hnext
  | suspended st'' =>
    rw [hplain n] at hnext
    obtain ⟨rfl, hrows', -⟩ := afterYield_nil (Prod.ext_iff.mp hnext).2
    obtain ⟨-, -, hreps'⟩ := hcounted.next st' rfl
    exact ⟨by omega, fun hpos => hreps' (hreps hpos)⟩

/-- **The limits of rows and calls hold for every responder**: any data, timeouts and errors, in
any order. -/
theorem multiBulkWalkCmd_limited (opts : WalkOptions) (hrows : 0 < opts.maxRows)
    (hcalls : 0 < opts.maxCalls) (nonRepeaters : ℤ) (maxRepetitions : ℕ) (varBinds : List Oid)
    (respond : ℕ → BulkRequest → BulkResponse V) (fuel : ℕ) :
    Limited opts nonRepeaters maxRepetitions (.plain respond)
      (multiBulkWalkCmd opts nonRepeaters maxRepetitions varBinds (.plain respond) fuel) := by
  have hplain : ∀ n, (Peers.plain respond).send n = [] := fun _ => rfl
  have hstart : (WalkState.init maxRepetitions varBinds).totalRows < opts.maxRows := hrows
  obtain ⟨htotal, hcount⟩ := @walkFrom_counted V opts nonRepeaters (.plain respond) hplain hrows
    hcalls fuel 0 (.init maxRepetitions varBinds) hrows hcalls
  have hheads := @heads_below V opts nonRepeaters (.plain respond) hplain hrows fuel 0 _ hstart
    maxRepetitions fun h => h
  refine ⟨?_, ?_, ?_, ?_, ?_⟩
  · exact (Nat.le_add_left _ _).trans htotal
  · exact (List.length_filter_le _ _).trans ((Nat.le_add_left _ _).trans hcount)
  · intro p hp table htable y hy
    obtain ⟨ys, control, hturn, hit⟩ := iteration_turn opts nonRepeaters (.plain respond) p.1 p.2
    have hys : yieldsOf opts nonRepeaters (.plain respond) p = ys := congrArg Prod.fst hit
    rw [hys] at hy
    rw [validResults_eq]
    exact ResponseTurn.cut hturn htable y hy
  · intro p hp table htable hbeyond
    have hbelow := (hheads p hp).1
    have hne : 0 < (p.2.validResults opts nonRepeaters table).length :=
      List.length_pos_iff.mpr hbeyond.1
    have hover := hbeyond.2.2.2
    omega
  · intro hpos p hp
    exact maxRepetitions_limitRepetitions ((hheads p hp).2 hpos)

/-- An agent that is slow at first, and then sends three varbinds of a table whatever is asked. -/
def slowTableAgent (n : ℕ) (_ : BulkRequest) : BulkResponse ℕ :=
  if n = 0 then ⟨some .requestTimedOut, 0, 0, []⟩
  else ⟨none, 0, 0, [⟨[1, 3, 6, 1, 2, 1, 1, 1], .value 7⟩, ⟨[1, 3, 6, 1, 2, 1, 1, 2], .value 8⟩,
    ⟨[1, 3, 6, 1, 2, 1, 1, 3], .value 9⟩]⟩

theorem multiBulkWalkCmd_limited_slowTable : 0 < 4 ∧ 0 < 5 ∧
    Limited { maxRows := 4, maxCalls := 5 } 0 10 (.plain slowTableAgent)
      (multiBulkWalkCmd { maxRows := 4, maxCalls := 5 } 0 10 [[1, 3, 6, 1, 2, 1, 1]]
        (.plain slowTableAgent) 6) :=
  ⟨by decide, by decide, multiBulkWalkCmd_limited { maxRows := 4, maxCalls := 5 } (by decide)
    (by decide) 0 10 [[1, 3, 6, 1, 2, 1, 1]] slowTableAgent 6⟩

end Limits

end Sc4snmp
