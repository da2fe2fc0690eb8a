import Mathlib.Data.Finset.Card
import Mathlib.Data.List.Nodup
import Sc4snmp.Snmp.WalkBatches

/-!
# Progress against any responder

The walk goes on from the last OID it has accepted of each root.  It would come to an
end with every responder if each accepted OID were above the one before.  The code
leaves that to the engine: nothing in the loop over a response compares OIDs.  So the
accepted OIDs ascend exactly when those in the responses do, and the walk of a cycling
agent ends exactly for that reason.

Ascending OIDs of a finite set are no more than its elements, so that a walk can go
through only so many responses; timeouts are not counted.

## Main definitions

* `acceptedOf` — what an iteration accepts, each varbind with its column.
* `AscendsFrom` — the OIDs of a column's varbinds ascend, up to the one that ends it.
* `AnswerAscends` — so they do in the answer to the request of an iteration.
* `MakesProgress` — the OIDs accepted for a root ascend, and cycles end.

## Main results

* `ascending_iff` — **the accepted OIDs ascend exactly if those of the answers do**.
* `returns_of_ascending` — a walk through finitely many OIDs ends.
* `multiBulkWalkCmd_progress_iff` — **when a misbehaving agent cannot loop the walk**.
-/

namespace Sc4snmp

variable {V : Type*}

/-! ### Ascending lists -/

/-- A list that goes on where another one stops ascends when both do. -/
theorem pairwise_cons_append_iff {α : Type*} [LinearOrder α] (a : α) (l l' : List α) :
    (a :: (l ++ l')).Pairwise (· < ·) ↔
      (a :: l).Pairwise (· < ·) ∧ (l.getLast?.getD a :: l').Pairwise (· < ·) := by
  induction l generalizing a with
  | nil => simp
  | cons b l ih =>
    have hlast : (b :: l).getLast?.getD a = l.getLast?.getD b := by
      rw [List.getLast?_cons, Option.getD_some]
    rw [hlast, List.cons_append, List.pairwise_cons, ih b, List.pairwise_cons (l := b :: l)]
    constructor
    · rintro ⟨habove, hl, hl'⟩
      refine ⟨⟨fun x hx => habove x ?_, hl⟩, hl'⟩
      rw [← List.cons_append]
      exact List.mem_append_left _ hx
    · rintro ⟨⟨habove, hl⟩, hl'⟩
      refine ⟨fun x hx => ?_, hl, hl'⟩
      rw [← List.cons_append] at hx
      rcases List.mem_append.mp hx with hx | hx
      · exact habove x hx
      · -- the second list is above the last element of the first
        have hbx := (List.pairwise_cons.mp ((ih b).mpr ⟨hl, hl'⟩)).1 x (List.mem_append_right _ hx)
        exact (habove b List.mem_cons_self).trans hbx

/-- A list of pairs with few pairs for each of `m` first components is short. -/
theorem length_le_of_ownVarBinds {m bound : ℕ} {l : List (ℕ × ObjectType V)}
    (hindex : ∀ q ∈ l, q.1 < m) (hown : ∀ i, (ownVarBinds i l).length ≤ bound) :
    l.length ≤ m * bound := by
  induction m generalizing l with
  | zero =>
    have hnil : l = [] := List.eq_nil_iff_forall_not_mem.mpr fun q hq =>
      absurd (hindex q hq) (Nat.not_lt_zero _)
    simp [hnil]
  | succ m ih =>
    have hsplit := List.length_eq_length_filter_add (l := l) fun q => decide (q.1 = m)
    have hlast : (l.filter fun q => decide (q.1 = m)).length ≤ bound := by
      have h := hown m
      rwa [ownVarBinds, List.length_map] at h
    have hrest : (l.filter fun q => !decide (q.1 = m)).length ≤ m * bound := by
      refine ih ?_ ?_
      · intro q hq
        obtain ⟨hq, hne⟩ := List.mem_filter.mp hq
        have hlt := hindex q hq
        have hne' : q.1 ≠ m := by simpa using hne
        omega
      · intro i
        refine le_trans ?_ (hown i)
        rw [ownVarBinds, ownVarBinds, List.length_map, List.length_map]
        exact (List.filter_sublist.filter _).length_le
    rw [hsplit, Nat.succ_mul]
    omega

/-! ### What is accepted -/

/-- What an iteration accepts of the answer to its request, each varbind with the column it is
attributed to. -/
def acceptedOf (opts : WalkOptions) (nonRepeaters : ℤ) (peers : Peers V) (p : ℕ × WalkState) :
    List (ℕ × ObjectType V) :=
  p.2.accepted opts nonRepeaters (walkTable opts nonRepeaters peers p)

/-- What a run has accepted. -/
def WalkRun.accepted (opts : WalkOptions) (nonRepeaters : ℤ) (peers : Peers V) (run : WalkRun V) :
    List (ℕ × ObjectType V) :=
  run.heads.flatMap (acceptedOf opts nonRepeaters peers)

/-- The varbinds of the answer to the request of an iteration for one column. -/
def ownAnswer (opts : WalkOptions) (nonRepeaters : ℤ) (peers : Peers V) (p : ℕ × WalkState)
    (i : ℕ) : List (ObjectType V) :=
  ownVarBinds i (p.2.attributed nonRepeaters (walkTable opts nonRepeaters peers p))

/-- The OIDs of the varbinds ascend from `last` on, up to the varbind that ends the column. -/
def AscendsFrom (opts : WalkOptions) (c : Column) : Oid → List (ObjectType V) → Prop
  | _, [] => True
  | last, vb :: vbs =>
    endsColumn opts c vb = true ∨ (last < vb.name ∧ AscendsFrom opts c vb.name vbs)

/-- In the answer to the request of an iteration the OIDs for each open column ascend from the last
OID of the column on, up to the varbind that ends it. -/
def AnswerAscends (opts : WalkOptions) (nonRepeaters : ℤ) (peers : Peers V) (p : ℕ × WalkState) :
    Prop :=
  ∀ i c, p.2.columns[i]? = some c → c.completed = false →
    AscendsFrom opts c c.lastOid (ownAnswer opts nonRepeaters peers p i)

section Progress

variable {opts : WalkOptions} {nonRepeaters : ℤ} {peers : Peers V}

/-- The OIDs a column takes ascend exactly if those of its varbinds do. -/
theorem ascendsFrom_iff {c : Column} (last : Oid) (vbs : List (ObjectType V)) :
    AscendsFrom opts c last vbs ↔
      (last :: (vbs.takeWhile fun vb => !endsColumn opts c vb).map ObjectType.name).Pairwise
        (· < ·) := by
  induction vbs generalizing last with
  | nil => simp [AscendsFrom]
  | cons vb vbs ih =>
    rw [AscendsFrom]
    cases hends : endsColumn opts c vb with
    | true =>
      rw [List.takeWhile_cons_of_neg (by simp [hends])]
      exact iff_of_true (Or.inl rfl) (List.pairwise_singleton _ _)
    | false =>
      rw [List.takeWhile_cons_of_pos (by simp [hends]), List.map_cons, or_iff_right (by decide),
        ih vb.name]
      have hone := pairwise_cons_append_iff last [vb.name]
        ((vbs.takeWhile fun vb => !endsColumn opts c vb).map ObjectType.name)
      rw [List.singleton_append] at hone
      rw [hone]
      simp

theorem answerAscends_iff (p : ℕ × WalkState) :
    AnswerAscends opts nonRepeaters peers p ↔ ∀ i (c : Column), p.2.columns[i]? = some c →
      (c.lastOid :: (c.accepted opts (ownAnswer opts nonRepeaters peers p i)).map
        ObjectType.name).Pairwise (· < ·) := by
  unfold AnswerAscends
  refine forall₂_congr fun i c => imp_congr_right fun hc => ?_
  cases hdone : c.completed with
  | true =>
    rw [Column.accepted_of_completed hdone]
    exact iff_of_true (fun h => absurd h (by decide)) (List.pairwise_singleton _ _)
  | false =>
    rw [ascendsFrom_iff, Column.accepted, hdone]
    simp

/-- What an iteration accepts for one column. -/
theorem ownVarBinds_acceptedOf {p : ℕ × WalkState} {i : ℕ} {c : Column}
    (hc : p.2.columns[i]? = some c) :
    ownVarBinds i (acceptedOf opts nonRepeaters peers p) =
      c.accepted opts (ownAnswer opts nonRepeaters peers p i) := by
  rw [acceptedOf, WalkState.accepted, ownVarBinds_accepted, hc]
  rfl

/-- **The columns after a turn**: each has been through its own varbinds. -/
theorem ResponseTurn.columns {p : ℕ × WalkState} {ys : List (WalkYield V)} {st' : WalkState}
    (hturn : ResponseTurn opts nonRepeaters (peers.bulkCmd p.1) p.2 (ys, .suspended st')) (i : ℕ) :
    st'.columns[i]? = p.2.columns[i]?.map fun c =>
      (ownAnswer opts nonRepeaters peers p i).foldl (Column.scan opts) c := by
  -- without an answer free of errors there is nothing to go through
  have hnone : walkTable? opts nonRepeaters peers p = none →
      p.2.columns[i]? = p.2.columns[i]?.map fun c =>
        (ownAnswer opts nonRepeaters peers p i).foldl (Column.scan opts) c := by
    intro hnone
    have hempty : ownAnswer opts nonRepeaters peers p i = [] := by
      rw [ownAnswer, walkTable, hnone]
      rfl
    simp [hempty]
  cases hturn with
  | idle h => exact hnone (by simp [walkTable?, answerTo, h])
  | timedOut r hr he =>
    rw [columns_limitRepetitions]
    exact hnone (walkTable?_of_error hr fun h => by rw [h.1] at he; cases he)
  | batch r table hr htable h hlimit =>
    have hwalk : walkTable opts nonRepeaters peers p = table := by
      rw [walkTable, walkTable?_of_table hr htable, Option.getD_some]
    rw [ownAnswer, hwalk]
    exact getElem?_foldl_modify opts _ _ i

/-- **Along a run the accepted OIDs ascend exactly if those of the answers do.** By induction on
the run, from any state. -/
theorem ascending_iff (hplain : ∀ n, peers.send n = []) :
    ∀ (fuel n : ℕ) (st : WalkState),
      (∀ p ∈ (walkFrom opts nonRepeaters peers fuel n st).heads,
        AnswerAscends opts nonRepeaters peers p) ↔
      ∀ i c, st.columns[i]? = some c →
        (c.lastOid :: (ownVarBinds i ((walkFrom opts nonRepeaters peers fuel n st).accepted
          opts nonRepeaters peers)).map ObjectType.name).Pairwise (· < ·) := by
  intro fuel
  induction fuel with
  | zero =>
    intro n st
    refine iff_of_true (fun p hp => absurd hp List.not_mem_nil) fun i c _ => ?_
    exact List.pairwise_singleton _ _
  | succ fuel ih =>
    intro n st
    obtain ⟨ys, control, hturn, hit⟩ := iteration_turn opts nonRepeaters peers n st
    -- the last iteration of the run
    have hlast : iteration opts nonRepeaters peers n st = (ys, none) →
        ((∀ p ∈ (walkFrom opts nonRepeaters peers (fuel + 1) n st).heads,
          AnswerAscends opts nonRepeaters peers p) ↔ ∀ i c, st.columns[i]? = some c →
            (c.lastOid :: (ownVarBinds i ((walkFrom opts nonRepeaters peers (fuel + 1) n
              st).accepted opts nonRepeaters peers)).map ObjectType.name).Pairwise (· < ·)) := by
      intro hit
      rw [walkFrom_of_last hit]
      simp only [WalkRun.accepted, List.flatMap_singleton, List.mem_singleton, forall_eq]
      rw [answerAscends_iff]
      refine forall₂_congr fun i c => imp_congr_right fun hc => ?_
      rw [ownVarBinds_acceptedOf (p := (n, st)) hc]
    cases control with
    | returned => exact hlast hit
    | suspended st' =>
      dsimp only at hit
      rw [hplain n] at hit
      cases hnext : afterYield opts [] st' with
      | none => exact hlast (hnext ▸ hit)
      | some st'' =>
        rw [hnext] at hit
        obtain ⟨rfl, -, -⟩ := afterYield_nil hnext
        have hcolumns := ResponseTurn.columns (p := (n, st)) hturn
        rw [walkFrom_of_next hit]
        simp only [WalkRun.accepted, List.flatMap_cons, List.mem_cons, forall_eq_or_imp]
        rw [answerAscends_iff, ih (n + 1) st'']
        -- column by column: what this answer brings, and what comes after it
        have hsplit : ∀ i c, st.columns[i]? = some c →
            ((c.lastOid :: (ownVarBinds i (acceptedOf opts nonRepeaters peers (n, st) ++
              (walkFrom opts nonRepeaters peers fuel (n + 1) st'').accepted opts nonRepeaters
                peers)).map ObjectType.name).Pairwise (· < ·) ↔
            (c.lastOid :: (c.accepted opts (ownAnswer opts nonRepeaters peers (n, st) i)).map
              ObjectType.name).Pairwise (· < ·) ∧
            ((((ownAnswer opts nonRepeaters peers (n, st) i).foldl (Column.scan opts)
              c).lastOid) :: (ownVarBinds i ((walkFrom opts nonRepeaters peers fuel (n + 1)
                st'').accepted opts nonRepeaters peers)).map ObjectType.name).Pairwise
                  (· < ·)) := by
          intro i c hc
          rw [ownVarBinds_append, ownVarBinds_acceptedOf (p := (n, st)) hc, List.map_append,
            pairwise_cons_append_iff, ← Column.lastOid_foldl_scan]
        constructor
        · rintro ⟨hfirst, hrest⟩ i c hc
          refine (hsplit i c hc).mpr ⟨hfirst i c hc, hrest i _ ?_⟩
          rw [hcolumns i, hc]
          rfl
        · intro h
          refine ⟨fun i c hc => ((hsplit i c hc).mp (h i c hc)).1, fun i c' hc' => ?_⟩
          rw [hcolumns i] at hc'
          obtain ⟨c, hc, rfl⟩ := Option.map_eq_some_iff.mp hc'
          exact ((hsplit i c hc).mp (h i c hc)).2

/-! ### Runs end -/

/-- A turn leaves the roots alone. -/
theorem ResponseTurn.roots {p : ℕ × WalkState} {ys : List (WalkYield V)} {st' : WalkState}
    (hturn : ResponseTurn opts nonRepeaters (peers.bulkCmd p.1) p.2 (ys, .suspended st')) :
    st'.columns.map Column.initialVar = p.2.columns.map Column.initialVar := by
  refine List.ext_getElem? fun i => ?_
  rw [List.getElem?_map, List.getElem?_map, ResponseTurn.columns hturn i, Option.map_map]
  cases p.2.columns[i]? with
  | none => rfl
  | some c => exact congrArg some (Column.initialVar_foldl_scan opts c _)

theorem ResponseTurn.hasVarBinds {p : ℕ × WalkState} {ys : List (WalkYield V)} {st' : WalkState}
    (hturn : ResponseTurn opts nonRepeaters (peers.bulkCmd p.1) p.2 (ys, .suspended st')) :
    st'.hasVarBinds = p.2.hasVarBinds := by
  cases hturn with
  | idle h => rfl
  | timedOut r hr he => exact hasVarBinds_limitRepetitions opts p.2
  | batch r table hr htable h hlimit => exact hasVarBinds_limitRepetitions opts p.2

/-- An iteration that goes on: its turn, and the state it leaves. -/
theorem turn_of_next (hplain : ∀ n, peers.send n = []) {n : ℕ} {st st' : WalkState}
    {ys : List (WalkYield V)} (h : iteration opts nonRepeaters peers n st = (ys, some st')) :
    ResponseTurn opts nonRepeaters (peers.bulkCmd n) st (ys, .suspended st') := by
  obtain ⟨ys', control, hturn, hit⟩ := iteration_turn opts nonRepeaters peers n st
  rw [hit] at h
  obtain ⟨rfl, hnext⟩ := Prod.ext_iff.mp h
  cases control with
  | returned => cases hnext
  | suspended st'' =>
    dsimp only at hnext
    rw [hplain n] at hnext
    obtain ⟨rfl, -, -⟩ := afterYield_nil hnext
    exact hturn

/-- Every iteration of a run walks the same roots. -/
theorem heads_roots (hplain : ∀ n, peers.send n = []) (fuel n : ℕ) (st : WalkState) :
    ∀ p ∈ (walkFrom opts nonRepeaters peers fuel n st).heads,
      p.2.columns.map Column.initialVar = st.columns.map Column.initialVar := by
  refine forall_heads (I := fun _ st' => st'.columns.map Column.initialVar =
    st.columns.map Column.initialVar) ?_ fuel n rfl
  intro n st' ys st'' h hnext
  exact (ResponseTurn.roots (p := (n, st')) (turn_of_next hplain hnext)).trans h

theorem lt_length_of_mem_acceptedOf {p : ℕ × WalkState} {q : ℕ × ObjectType V}
    (h : q ∈ acceptedOf opts nonRepeaters peers p) : q.1 < p.2.columns.length := by
  have hown : q.2 ∈ ownVarBinds q.1 (acceptedOf opts nonRepeaters peers p) :=
    List.mem_map.mpr ⟨q, List.mem_filter.mpr ⟨h, by simp⟩, rfl⟩
  rw [acceptedOf, WalkState.accepted, ownVarBinds_accepted] at hown
  by_contra hge
  rw [List.getElem?_eq_none_iff.mpr (not_lt.mp hge)] at hown
  exact absurd hown List.not_mem_nil

/-- A run accepts varbinds for its columns only. -/
theorem lt_length_of_mem_accepted (hplain : ∀ n, peers.send n = []) {fuel n : ℕ} {st : WalkState}
    {q : ℕ × ObjectType V}
    (h : q ∈ (walkFrom opts nonRepeaters peers fuel n st).accepted opts nonRepeaters peers) :
    q.1 < st.columns.length := by
  obtain ⟨p, hp, hq⟩ := List.mem_flatMap.mp h
  have hlength := congrArg List.length (heads_roots hplain fuel n st p hp)
  rw [List.length_map, List.length_map] at hlength
  exact hlength ▸ lt_length_of_mem_acceptedOf hq

/-- The answer of a responder that answers in time. -/
theorem effectiveError_ne_requestTimedOut {bulkCmd : BulkRequest → BulkResponse V} {st : WalkState}
    {r : BulkResponse V} (hr : answerTo opts nonRepeaters bulkCmd st = some r)
    (h : ∀ req, (bulkCmd req).errorIndication ≠ some .requestTimedOut) :
    r.effectiveError opts ≠ some .requestTimedOut := by
  unfold answerTo at hr
  split at hr
  · obtain rfl := Option.some.inj hr
    unfold BulkResponse.effectiveError
    split
    · exact nofun
    · exact h _
  · cases hr

/-- **A run that has not returned has accepted a varbind in each iteration**, or waited out a
timeout. -/
theorem fuel_le_of_not_returned (hplain : ∀ n, peers.send n = []) {N : ℕ}
    (hanswers : ∀ n, N ≤ n → ∀ req,
      (peers.bulkCmd n req).errorIndication ≠ some .requestTimedOut) :
    ∀ (fuel n : ℕ) (st : WalkState), st.hasVarBinds = true →
      (walkFrom opts nonRepeaters peers fuel n st).returned = false →
      fuel ≤ N - n + ((walkFrom opts nonRepeaters peers fuel n st).accepted opts nonRepeaters
        peers).length := by
  intro fuel
  induction fuel with
  | zero => exact fun n st _ _ => Nat.zero_le _
  | succ fuel ih =>
    intro n st hvar hgoing
    cases hit : iteration opts nonRepeaters peers n st with
    | mk ys next =>
      cases next with
      | none =>
        rw [walkFrom_of_last hit] at hgoing
        cases hgoing
      | some st' =>
        have hturn := turn_of_next hplain hit
        rw [walkFrom_of_next hit] at hgoing ⊢
        have hvar' : st'.hasVarBinds = true :=
          (ResponseTurn.hasVarBinds (p := (n, st)) hturn).trans hvar
        have hrest := ih (n + 1) st' hvar' hgoing
        have hlength : (WalkRun.accepted opts nonRepeaters peers
            ⟨ys ++ (walkFrom opts nonRepeaters peers fuel (n + 1) st').yields,
              (n, st) :: (walkFrom opts nonRepeaters peers fuel (n + 1) st').heads,
              (walkFrom opts nonRepeaters peers fuel (n + 1) st').returned⟩).length =
            (acceptedOf opts nonRepeaters peers (n, st)).length +
              ((walkFrom opts nonRepeaters peers fuel (n + 1) st').accepted opts nonRepeaters
                peers).length := by
          rw [WalkRun.accepted, List.flatMap_cons, List.length_append]
          rfl
        rw [hlength]
        cases hturn with
        | idle h => exact absurd (h.symm.trans hvar) Bool.false_ne_true
        | timedOut r hr he =>
          -- a timeout comes before `N`
          have hbefore : n < N := by
            by_contra hge
            exact effectiveError_ne_requestTimedOut hr (hanswers n (not_lt.mp hge)) he
          omega
        | batch r table hr htable h hlimit =>
          have hwalk : walkTable opts nonRepeaters peers (n, st) = table := by
            rw [walkTable, walkTable?_of_table (p := (n, st)) hr htable, Option.getD_some]
          have hsome : 0 < (acceptedOf opts nonRepeaters peers (n, st)).length := by
            rw [acceptedOf, hwalk]
            exact List.length_pos_iff.mpr h
          omega

/-- **A walk through finitely many OIDs ends** if those accepted for each root ascend. -/
theorem returns_of_ascending (hplain : ∀ n, peers.send n = []) {N : ℕ}
    (hanswers : ∀ n, N ≤ n → ∀ req,
      (peers.bulkCmd n req).errorIndication ≠ some .requestTimedOut)
    {st : WalkState} (hvar : st.hasVarBinds = true) (F : Finset Oid)
    (hF : ∀ fuel, ∀ q ∈ (walkFrom opts nonRepeaters peers fuel 0 st).accepted opts nonRepeaters
      peers, q.2.name ∈ F)
    (hascends : ∀ fuel i c, st.columns[i]? = some c →
      (c.lastOid :: (ownVarBinds i ((walkFrom opts nonRepeaters peers fuel 0 st).accepted
        opts nonRepeaters peers)).map ObjectType.name).Pairwise (· < ·)) :
    ∃ fuel, (walkFrom opts nonRepeaters peers fuel 0 st).returned = true := by
  refine ⟨N + st.columns.length * F.card + 1, ?_⟩
  by_contra hgoing
  have hfuel := fuel_le_of_not_returned hplain hanswers _ 0 st hvar (by simpa using hgoing)
  set acc := (walkFrom opts nonRepeaters peers (N + st.columns.length * F.card + 1) 0 st).accepted
    opts nonRepeaters peers with hacc
  have hindex : ∀ q ∈ acc, q.1 < st.columns.length := fun q hq =>
    lt_length_of_mem_accepted hplain (hacc ▸ hq)
  have hbound : acc.length ≤ st.columns.length * F.card := by
    refine length_le_of_ownVarBinds hindex fun i => ?_
    cases hc : st.columns[i]? with
    | none =>
      -- no varbind is accepted for a column that is not there
      have hnil : ownVarBinds i acc = [] := by
        rw [ownVarBinds, List.map_eq_nil_iff, List.filter_eq_nil_iff]
        intro q hq hqi
        have hlt := hindex q hq
        rw [of_decide_eq_true hqi] at hlt
        exact absurd (List.getElem?_eq_none_iff.mp hc) (not_le.mpr hlt)
      rw [hnil]
      exact Nat.zero_le _
    | some c =>
      have hnodup : ((ownVarBinds i acc).map ObjectType.name).Nodup :=
        ((List.pairwise_cons.mp (hascends _ i c hc)).2).imp fun h => h.ne
      have hsub : ((ownVarBinds i acc).map ObjectType.name).toFinset ⊆ F := by
        intro o ho
        obtain ⟨vb, hvb, rfl⟩ := List.mem_map.mp (List.mem_toFinset.mp ho)
        obtain ⟨q, hq, rfl⟩ := List.mem_map.mp hvb
        exact hF _ q (List.mem_filter.mp hq).1
      have hcard := Finset.card_le_card hsub
      rwa [List.toFinset_card_of_nodup hnodup, List.length_map] at hcard
  omega

end Progress

/-! ### The walk of a misbehaving agent -/

section Walk

variable (opts : WalkOptions) (nonRepeaters : ℤ) (maxRepetitions : ℕ) (roots : List Oid)
  (respond : ℕ → BulkRequest → BulkResponse V)

/-- **The walk cannot be looped**: the OIDs accepted for a root ascend from the root on, within a
response and over all of them, and the walk of a responder that knows finitely many OIDs ends,
however long it has timed out before. -/
structure MakesProgress : Prop where
  ascending : ∀ fuel i r, roots[i]? = some r →
    (r :: (ownVarBinds i ((multiBulkWalkCmd opts nonRepeaters maxRepetitions roots
      (.plain respond) fuel).accepted opts nonRepeaters (.plain respond))).map
        ObjectType.name).Pairwise (· < ·)
  ends : ∀ (F : Finset Oid) (N : ℕ),
    (∀ n req, ∀ vb ∈ (respond n req).varBindTable, vb.name ∈ F) →
    (∀ n, N ≤ n → ∀ req, (respond n req).errorIndication ≠ some .requestTimedOut) →
    ∃ fuel, (multiBulkWalkCmd opts nonRepeaters maxRepetitions roots (.plain respond)
      fuel).returned = true

/-- What is accepted has been sent. -/
theorem mem_varBindTable_of_mem_accepted {fuel : ℕ} {q : ℕ × ObjectType V}
    (h : q ∈ (multiBulkWalkCmd opts nonRepeaters maxRepetitions roots (.plain respond)
      fuel).accepted opts nonRepeaters (.plain respond)) :
    ∃ n req, q.2 ∈ (respond n req).varBindTable := by
  obtain ⟨p, -, hq⟩ := List.mem_flatMap.mp h
  have htable : q.2 ∈ walkTable opts nonRepeaters (.plain respond) p :=
    (map_snd_accepted_sublist opts nonRepeaters p.2 _).subset (List.mem_map_of_mem hq)
  unfold walkTable walkTable? at htable
  cases hanswer : answerTo opts nonRepeaters ((Peers.plain respond).bulkCmd p.1) p.2 with
  | none =>
    rw [hanswer] at htable
    exact absurd htable List.not_mem_nil
  | some r =>
    rw [hanswer, Option.bind_some] at htable
    unfold answerTo at hanswer
    split at hanswer
    · obtain rfl := Option.some.inj hanswer
      unfold BulkResponse.table? at htable
      split at htable
      · exact ⟨p.1, _, htable⟩
      · exact absurd htable List.not_mem_nil
    · cases hanswer

/-- **A misbehaving agent cannot loop the walk exactly if its OIDs ascend**: in each answer the OIDs
at the places of an open root, up to the one that ends the root, are each above the one before,
the first above the last one accepted. -/
theorem multiBulkWalkCmd_progress_iff :
    MakesProgress opts nonRepeaters maxRepetitions roots respond ↔
      ∀ fuel, ∀ p ∈ (multiBulkWalkCmd opts nonRepeaters maxRepetitions roots (.plain respond)
        fuel).heads, AnswerAscends opts nonRepeaters (.plain respond) p := by
  have hplain : ∀ n, (Peers.plain respond).send n = [] := fun _ => rfl
  have hiff := fun fuel => @ascending_iff V opts nonRepeaters (.plain respond) hplain fuel 0
    (.init maxRepetitions roots)
  have hstart : ∀ (i : ℕ) (c : Column), (WalkState.init maxRepetitions roots).columns[i]? = some c →
      ∃ r, roots[i]? = some r ∧ c = Column.start r := by
    intro i c hc
    rw [WalkState.init, List.getElem?_map] at hc
    obtain ⟨r, hr, rfl⟩ := Option.map_eq_some_iff.mp hc
    exact ⟨r, hr, rfl⟩
  constructor
  · intro h fuel
    refine (hiff fuel).mpr fun i c hc => ?_
    obtain ⟨r, hr, rfl⟩ := hstart i c hc
    exact h.ascending fuel i r hr
  · intro h
    refine ⟨fun fuel i r hr => ?_, fun F N hF hanswers => ?_⟩
    · refine (hiff fuel).mp (h fuel) i (Column.start r) ?_
      rw [WalkState.init, List.getElem?_map, hr]
      rfl
    · cases roots with
      | nil => exact ⟨1, by simp [multiBulkWalkCmd, walkFrom, iteration, loopBody, afterYield,
          WalkState.init, Peers.plain]⟩
      | cons r roots =>
        refine returns_of_ascending hplain hanswers rfl F ?_
          fun fuel i c hc => (hiff fuel).mp (h fuel) i c hc
        intro fuel q hq
        obtain ⟨n, req, hmem⟩ := mem_varBindTable_of_mem_accepted opts nonRepeaters maxRepetitions
          (r :: roots) respond hq
        exact hF n req q.2 hmem

end Walk

/-- An agent that answers every request with the same instance. -/
def cyclingAgent (_ : ℕ) (_ : BulkRequest) : BulkResponse ℕ :=
  ⟨none, 0, 0, [⟨[1, 3, 6, 1, 2, 1, 1, 3, 0], .value 5⟩]⟩

/-- The instance is accepted a second time, though the option is off. -/
theorem multiBulkWalkCmd_progress_fails :
    ¬ ∀ (opts : WalkOptions) (nonRepeaters : ℤ) (maxRepetitions : ℕ) (roots : List Oid)
      (respond : ℕ → BulkRequest → BulkResponse ℕ), opts.ignoreNonIncreasingOid = false →
      MakesProgress opts nonRepeaters maxRepetitions roots respond := by
  intro h
  have hascending := (h (subtreeOptions false) 0 10 [[1, 3, 6, 1, 2, 1, 1]] cyclingAgent
    rfl).ascending 2 0 [1, 3, 6, 1, 2, 1, 1] rfl
  have htwice : (ownVarBinds 0 ((multiBulkWalkCmd (subtreeOptions false) 0 10
      [[1, 3, 6, 1, 2, 1, 1]] (.plain cyclingAgent) 2).accepted (subtreeOptions false) 0
        (.plain cyclingAgent))).map ObjectType.name =
      [[1, 3, 6, 1, 2, 1, 1, 3, 0], [1, 3, 6, 1, 2, 1, 1, 3, 0]] := by decide
  rw [htwice] at hascending
  exact absurd hascending (by decide)

end Sc4snmp
