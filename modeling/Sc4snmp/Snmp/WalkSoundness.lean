import Sc4snmp.Snmp.WalkProgress

/-!
# Soundness of the walk with non-repeaters and truncated answers

An agent answers a GETBULK with the non-repeaters of the request once, then with
repetitions of the others, and may stop after any varbind.  The generator finds the
column of a varbind from its position in the answer.  Both sides count the same way:
the varbind at a position is the next one after what the agent has said before for the
column the generator finds.  So for each column the answer goes up through the MIB, and
what the generator makes of any responder whose OIDs ascend holds here: it ends, and
what it accepts for a root ascends.

## Main definitions

* `Mib.getBulkFor` — the full answer, each varbind with the position in the request of
  the OID it answers.
* `Mib.chain` — what a MIB says for one OID of a request.
* `yieldedOf` — what an iteration yields, each varbind with its column.
* `Sound` — the yielded varbinds are those of the columns they are attributed to.

## Main results

* `attributed_getBulk` — **the generator attributes an answer to the columns it answers**.
* `answerAscends_agent` — the answers of an agent ascend.
* `multiBulkWalkCmd_sound` — **the walk ends, and is sound**.
-/

namespace Sc4snmp

open Successor

variable {V : Type*}

/-! ### The answer, position by position -/

/-- Repetitions for the OIDs asked for, each varbind with the position of its OID. -/
def Mib.rowsFor (m : Mib V) : ℕ → List (Oid × ℕ) → List (ℕ × ObjectType V)
  | 0, _ => []
  | r + 1, asked =>
    asked.map (fun a => (a.2, m.getNext a.1)) ++
      m.rowsFor r (asked.map fun a => ((m.getNext a.1).name, a.2))

/-- The full answer to a request in wire order, each varbind with the position in the request of
the OID it answers. -/
def Mib.getBulkFor (m : Mib V) (req : BulkRequest) : List (ℕ × ObjectType V) :=
  let n := min req.nonRepeaters.toNat req.oids.length
  (req.oids.zipIdx.take n).map (fun a => (a.2, m.getNext a.1)) ++
    m.rowsFor req.maxRepetitions (req.oids.zipIdx.drop n)

/-- What a MIB says for an OID in `k` repetitions. -/
def Mib.chain (m : Mib V) : ℕ → Oid → List (ObjectType V)
  | 0, _ => []
  | k + 1, o => m.getNext o :: m.chain k (m.getNext o).name

section Answer

variable {m : Mib V}

theorem map_snd_rowsFor (m : Mib V) (r : ℕ) (asked : List (Oid × ℕ)) :
    (m.rowsFor r asked).map Prod.snd = m.repetitions r (asked.map Prod.fst) := by
  induction r generalizing asked with
  | zero => rfl
  | succ r ih =>
    rw [Mib.rowsFor, Mib.repetitions, List.map_append, ih, List.map_map, List.map_map, List.map_map,
      List.map_map]
    rfl

/-- Without the positions it is the answer. -/
theorem map_snd_getBulkFor (m : Mib V) (req : BulkRequest) :
    (m.getBulkFor req).map Prod.snd = m.getBulk req := by
  rw [Mib.getBulkFor, Mib.getBulk, List.map_append, map_snd_rowsFor, List.map_map, List.map_drop,
    List.zipIdx_map_fst]
  congr 1
  have hfirst : (req.oids.zipIdx.take (min req.nonRepeaters.toNat req.oids.length)).map Prod.fst =
      req.oids.take (min req.nonRepeaters.toNat req.oids.length) := by
    rw [List.map_take, List.zipIdx_map_fst]
  rw [← hfirst, List.map_map]
  rfl

/-- The positions are those the generator finds, the first varbind having index `idx`. -/
def AtPlaces (nonRepeaterCount numActive : ℕ) : ℕ → List (ℕ × ObjectType V) → Prop
  | _, [] => True
  | idx, q :: l =>
    activeVbIdx nonRepeaterCount numActive idx = some q.1 ∧
      AtPlaces nonRepeaterCount numActive (idx + 1) l

variable {nonRepeaterCount numActive : ℕ}

theorem AtPlaces.take {l : List (ℕ × ObjectType V)} {idx : ℕ}
    (h : AtPlaces nonRepeaterCount numActive idx l) (k : ℕ) :
    AtPlaces nonRepeaterCount numActive idx (l.take k) := by
  induction l generalizing idx k with
  | nil => simp [AtPlaces]
  | cons q l ih =>
    cases k with
    | zero => simp [AtPlaces]
    | succ k => exact ⟨h.1, ih h.2 k⟩

theorem AtPlaces.append {l l' : List (ℕ × ObjectType V)} {idx : ℕ}
    (h : AtPlaces nonRepeaterCount numActive idx l)
    (h' : AtPlaces nonRepeaterCount numActive (idx + l.length) l') :
    AtPlaces nonRepeaterCount numActive idx (l ++ l') := by
  induction l generalizing idx with
  | nil => exact h'
  | cons q l ih =>
    refine ⟨h.1, ih h.2 ?_⟩
    rw [List.length_cons, Nat.add_comm l.length 1, ← Nat.add_assoc] at h'
    exact h'

/-- One row of an answer. -/
theorem atPlaces_map {asked : List (Oid × ℕ)} {idx : ℕ}
    (h : ∀ k a, asked[k]? = some a → activeVbIdx nonRepeaterCount numActive (idx + k) = some a.2) :
    AtPlaces nonRepeaterCount numActive idx (asked.map fun a => (a.2, m.getNext a.1)) := by
  induction asked generalizing idx with
  | nil => trivial
  | cons a asked ih =>
    refine ⟨h 0 a rfl, ih fun k b hb => ?_⟩
    rw [Nat.add_assoc, Nat.add_comm 1 k]
    exact h (k + 1) b hb

/-- The rows of an answer, from repetition `r` on. -/
theorem atPlaces_rowsFor {base : ℕ} (reps : ℕ) {asked : List (Oid × ℕ)} (r : ℕ)
    (h : ∀ k a, asked[k]? = some a →
      ∀ r, activeVbIdx nonRepeaterCount numActive (base + r * asked.length + k) = some a.2) :
    AtPlaces nonRepeaterCount numActive (base + r * asked.length) (m.rowsFor reps asked) := by
  induction reps generalizing asked r with
  | zero => trivial
  | succ reps ih =>
    refine AtPlaces.append (atPlaces_map fun k a ha => h k a ha r) ?_
    have hlength : (asked.map fun a => ((m.getNext a.1).name, a.2)).length = asked.length :=
      List.length_map _
    have hrest := @ih (asked.map fun a => ((m.getNext a.1).name, a.2)) (r + 1) (by
      intro k a ha r'
      rw [hlength]
      rw [List.getElem?_map] at ha
      obtain ⟨b, hb, rfl⟩ := Option.map_eq_some_iff.mp ha
      exact h k b hb r')
    rw [hlength, Nat.succ_mul, ← Nat.add_assoc] at hrest
    rwa [List.length_map]

/-- **Both sides count the same way.** -/
theorem atPlaces_getBulkFor (m : Mib V) (req : BulkRequest) :
    AtPlaces (min req.nonRepeaters.toNat req.oids.length) req.oids.length 0
      (m.getBulkFor req) := by
  unfold Mib.getBulkFor
  dsimp only
  set n := min req.nonRepeaters.toNat req.oids.length with hn
  have hle : n ≤ req.oids.length := min_le_right _ _
  have hlength : (req.oids.zipIdx.drop n).length = req.oids.length - n := by
    rw [List.length_drop, List.length_zipIdx]
  refine AtPlaces.append (atPlaces_map fun k a ha => ?_) ?_
  · -- a non-repeater, once
    rw [List.getElem?_take] at ha
    split at ha
    · next hk =>
      rw [List.getElem?_zipIdx] at ha
      obtain ⟨o, -, rfl⟩ := Option.map_eq_some_iff.mp ha
      rw [activeVbIdx, if_neg (by omega), if_pos (by omega)]
    · cases ha
  · have hfirst : 0 + ((req.oids.zipIdx.take n).map fun a => (a.2, m.getNext a.1)).length = n := by
      rw [List.length_map, List.length_take, List.length_zipIdx]
      omega
    rw [hfirst]
    have hrows : AtPlaces n req.oids.length (n + 0 * (req.oids.zipIdx.drop n).length)
        (m.rowsFor req.maxRepetitions (req.oids.zipIdx.drop n)) :=
      atPlaces_rowsFor req.maxRepetitions 0 (by
        intro k a ha r
        rw [List.getElem?_drop, List.getElem?_zipIdx] at ha
        obtain ⟨o, ho, rfl⟩ := Option.map_eq_some_iff.mp ha
        have hk : n + k < req.oids.length := (List.getElem?_eq_some_iff.mp ho).1
        have hmod : (r * (req.oids.length - n) + k) % (req.oids.length - n) = k := by
          rw [Nat.mul_comm, Nat.mul_add_mod, Nat.mod_eq_of_lt (by omega)]
        rw [hlength, activeVbIdx]
        by_cases hzero : n = 0
        · rw [if_pos hzero]
          simpa [hzero] using hmod
        · have hsub : n + r * (req.oids.length - n) + k - n = r * (req.oids.length - n) + k := by
            omega
          rw [if_neg hzero, if_neg (by omega), if_pos (by omega), hsub, hmod, Nat.zero_add])
    simpa using hrows

/-- An answer whose positions the generator finds is attributed to the columns at these
positions of the request. -/
theorem attributed_of_atPlaces {active : List ℕ} {l : List (ℕ × ObjectType V)} {idx : ℕ}
    (h : AtPlaces nonRepeaterCount active.length idx l) :
    attributed active nonRepeaterCount idx (l.map Prod.snd) =
      l.map fun q => (active.getD q.1 0, q.2) := by
  induction l generalizing idx with
  | nil => rfl
  | cons q l ih =>
    rw [List.map_cons, List.map_cons, attributed, h.1]
    exact congrArg _ (ih h.2)

end Answer

/-! ### What the answer says for one column -/

/-- The varbinds of a row for one position. -/
theorem ownVarBinds_map (m : Mib V) (j : ℕ) (asked : List (Oid × ℕ)) :
    ownVarBinds j (asked.map fun a => (a.2, m.getNext a.1)) =
      (asked.filter fun a => a.2 = j).map fun a => m.getNext a.1 := by
  rw [ownVarBinds, List.filter_map, List.map_map]
  rfl

theorem filter_map_getNext (m : Mib V) (j : ℕ) (asked : List (Oid × ℕ)) :
    (asked.map fun a => ((m.getNext a.1).name, a.2)).filter (fun a => decide (a.2 = j)) =
      (asked.filter fun a => a.2 = j).map fun a => ((m.getNext a.1).name, a.2) := by
  rw [List.filter_map]
  rfl

/-- A position that is not asked for is not answered. -/
theorem ownVarBinds_rowsFor_nil (m : Mib V) (reps : ℕ) {j : ℕ} {asked : List (Oid × ℕ)}
    (h : asked.filter (fun a => a.2 = j) = []) : ownVarBinds j (m.rowsFor reps asked) = [] := by
  induction reps generalizing asked with
  | zero => rfl
  | succ reps ih =>
    have hnext := filter_map_getNext m j asked
    rw [h] at hnext
    rw [Mib.rowsFor, ownVarBinds_append, ownVarBinds_map, h, ih hnext]
    rfl

/-- Repetitions for one position: each answers the OID of the one before. -/
theorem ownVarBinds_rowsFor (m : Mib V) (reps : ℕ) {o : Oid} {j : ℕ} {asked : List (Oid × ℕ)}
    (h : asked.filter (fun a => a.2 = j) = [(o, j)]) :
    ownVarBinds j (m.rowsFor reps asked) = m.chain reps o := by
  induction reps generalizing asked o with
  | zero => rfl
  | succ reps ih =>
    have hnext := filter_map_getNext m j asked
    rw [h] at hnext
    rw [Mib.rowsFor, ownVarBinds_append, ownVarBinds_map, h, ih hnext]
    rfl

/-- A list with indices has one entry for each index. -/
theorem filter_zipIdx {α : Type*} {l : List α} {j k : ℕ} {o : α} (h : l[j]? = some o) :
    (l.zipIdx k).filter (fun a => a.2 = k + j) = [(o, k + j)] := by
  induction l generalizing j k with
  | nil => cases h
  | cons a l ih =>
    rw [List.zipIdx_cons]
    cases j with
    | zero =>
      obtain rfl := Option.some.inj h
      have hrest : (l.zipIdx (k + 1)).filter (fun a => a.2 = k + 0) = [] := by
        rw [List.filter_eq_nil_iff]
        intro b hb hk
        have hge := List.le_snd_of_mem_zipIdx hb
        have hk' : b.2 = k + 0 := of_decide_eq_true hk
        omega
      rw [List.filter_cons_of_pos (by simp), hrest]
      rfl
    | succ j =>
      have hrest := ih (k := k + 1) h
      rw [Nat.add_assoc, Nat.add_comm 1 j] at hrest
      rw [List.filter_cons_of_neg (by simp), hrest]

/-- **What an answer says for one OID of the request**: once for a non-repeater, as often as there
are repetitions for another one. -/
theorem exists_chain (m : Mib V) (req : BulkRequest) {j : ℕ} {o : Oid}
    (h : req.oids[j]? = some o) : ∃ k, ownVarBinds j (m.getBulkFor req) = m.chain k o := by
  set n := min req.nonRepeaters.toNat req.oids.length with hn
  have hone := filter_zipIdx (k := 0) h
  rw [Nat.zero_add] at hone
  rw [← List.take_append_drop n req.oids.zipIdx, List.filter_append,
    List.append_eq_singleton_iff] at hone
  rw [Mib.getBulkFor, ← hn, ownVarBinds_append, ownVarBinds_map]
  rcases hone with ⟨hfirst, hrest⟩ | ⟨hfirst, hrest⟩
  · refine ⟨req.maxRepetitions, ?_⟩
    rw [hfirst, ownVarBinds_rowsFor m _ hrest]
    rfl
  · refine ⟨1, ?_⟩
    rw [hfirst, ownVarBinds_rowsFor_nil m _ hrest]
    rfl

/-! ### The answers ascend -/

section Ascent

variable {opts : WalkOptions}

/-- What the agent says after an OID is an instance above it, or the end of the MIB. -/
theorem getNext_cases (m : Mib V) (o : Oid) :
    m.getNext o = ⟨o, .endOfMibView⟩ ∨
      ∃ e ∈ m.entries, m.getNext o = instanceVarBind e ∧ o < e.1 := by
  unfold Mib.getNext
  cases h : m.next o with
  | none => exact Or.inl rfl
  | some e => exact Or.inr ⟨e, nextAfter_mem h, rfl, nextAfter_lt h⟩

theorem ascendsFrom_chain (m : Mib V) (c : Column) (k : ℕ) (o : Oid) :
    AscendsFrom opts c o (m.chain k o) := by
  induction k generalizing o with
  | zero => trivial
  | succ k ih =>
    rw [Mib.chain, AscendsFrom]
    rcases getNext_cases m o with h | ⟨e, -, h, hlt⟩
    · -- the end of the MIB ends the column
      rw [h]
      exact Or.inl (by simp [endsColumn])
    · refine Or.inr ⟨?_, ih _⟩
      rw [h]
      exact hlt

/-- An answer that ascends does so when it is cut. -/
theorem AscendsFrom.of_prefix {c : Column} {l l' : List (ObjectType V)} {last : Oid}
    (h : AscendsFrom opts c last l) (hinitial : l' <+: l) : AscendsFrom opts c last l' := by
  induction l' generalizing l last with
  | nil => trivial
  | cons vb l' ih =>
    obtain ⟨t, rfl⟩ := hinitial
    rcases h with hends | ⟨hlt, hrest⟩
    · exact Or.inl hends
    · exact Or.inr ⟨hlt, ih hrest (List.prefix_append l' t)⟩

theorem prefix_ownVarBinds {j : ℕ} {l l' : List (ℕ × ObjectType V)} (h : l' <+: l) :
    ownVarBinds j l' <+: ownVarBinds j l :=
  (h.filter _).map _

/-- Columns instead of positions: each column is asked for once. -/
theorem ownVarBinds_relabel {active : List ℕ} (hnodup : active.Nodup) {j : ℕ}
    (hj : j < active.length) {l : List (ℕ × ObjectType V)} (hl : ∀ q ∈ l, q.1 < active.length) :
    ownVarBinds (active.getD j 0) (l.map fun q => (active.getD q.1 0, q.2)) = ownVarBinds j l := by
  rw [ownVarBinds, List.filter_map, List.map_map, ownVarBinds]
  have hfilter : l.filter ((fun p : ℕ × ObjectType V => decide (p.1 = active.getD j 0)) ∘
      fun q => (active.getD q.1 0, q.2)) = l.filter fun q => decide (q.1 = j) := by
    refine List.filter_congr fun q hq => ?_
    refine decide_eq_decide.mpr ⟨fun h => ?_, congrArg (active.getD · 0)⟩
    dsimp only at h
    rw [List.getD_eq_getElem _ _ (hl q hq), List.getD_eq_getElem _ _ hj] at h
    exact hnodup.getElem_inj_iff.mp h
  rw [hfilter]
  rfl

theorem mem_rowsFor {m : Mib V} {reps : ℕ} {asked : List (Oid × ℕ)} {q : ℕ × ObjectType V}
    (h : q ∈ m.rowsFor reps asked) : (∃ a ∈ asked, q.1 = a.2) ∧ ∃ o, q.2 = m.getNext o := by
  induction reps generalizing asked with
  | zero => exact absurd h List.not_mem_nil
  | succ reps ih =>
    rcases List.mem_append.mp h with h | h
    · obtain ⟨a, ha, rfl⟩ := List.mem_map.mp h
      exact ⟨⟨a, ha, rfl⟩, a.1, rfl⟩
    · obtain ⟨⟨b, hb, hq⟩, hnext⟩ := ih h
      obtain ⟨a, ha, rfl⟩ := List.mem_map.mp hb
      exact ⟨⟨a, ha, hq⟩, hnext⟩

/-- An answer is made of what the MIB says next, for positions of the request. -/
theorem mem_getBulkFor {m : Mib V} {req : BulkRequest} {q : ℕ × ObjectType V}
    (h : q ∈ m.getBulkFor req) : q.1 < req.oids.length ∧ ∃ o, q.2 = m.getNext o := by
  have hindex : ∀ a ∈ req.oids.zipIdx, a.2 < req.oids.length := by
    intro a ha
    have hlt := List.snd_lt_of_mem_zipIdx ha
    omega
  rcases List.mem_append.mp h with h | h
  · obtain ⟨a, ha, rfl⟩ := List.mem_map.mp h
    exact ⟨hindex a (List.mem_of_mem_take ha), a.1, rfl⟩
  · obtain ⟨⟨a, ha, hq⟩, hnext⟩ := mem_rowsFor h
    exact ⟨hq ▸ hindex a (List.mem_of_mem_drop ha), hnext⟩

end Ascent

/-! ### The agent's answers -/

/-- The request of an iteration. -/
def requestOf (opts : WalkOptions) (nonRepeaters : ℤ) (p : ℕ × WalkState) : BulkRequest :=
  bulkRequest nonRepeaters (limitRepetitions opts p.2)

/-- The answer of an agent to the request of an iteration, each varbind with the column that the
OID it answers was asked for. -/
def TruncatingAgent.answerFor (a : TruncatingAgent V) (opts : WalkOptions) (nonRepeaters : ℤ)
    (p : ℕ × WalkState) : List (ℕ × ObjectType V) :=
  ((a.mib.getBulkFor (requestOf opts nonRepeaters p)).take
    (a.cut p.1 (requestOf opts nonRepeaters p))).map
      fun q => ((activeIndices p.2.columns).getD q.1 0, q.2)

section Agent

variable {opts : WalkOptions} {nonRepeaters : ℤ} {a : TruncatingAgent V} {p : ℕ × WalkState}

theorem oids_requestOf (opts : WalkOptions) (nonRepeaters : ℤ) (p : ℕ × WalkState) :
    (requestOf opts nonRepeaters p).oids =
      (activeIndices p.2.columns).map fun i => p.2.columns[i]?.elim [] Column.lastOid := by
  rw [requestOf, bulkRequest]
  dsimp only
  rw [columns_limitRepetitions]

theorem length_oids_requestOf (opts : WalkOptions) (nonRepeaters : ℤ) (p : ℕ × WalkState) :
    (requestOf opts nonRepeaters p).oids.length = (activeIndices p.2.columns).length := by
  rw [oids_requestOf, List.length_map]

/-- What an agent answers, if it is asked. -/
theorem walkTable_agent (a : TruncatingAgent V) (opts : WalkOptions) (nonRepeaters : ℤ)
    (p : ℕ × WalkState) : walkTable opts nonRepeaters a.peers p = [] ∨
      walkTable opts nonRepeaters a.peers p =
        (a.mib.getBulk (requestOf opts nonRepeaters p)).take
          (a.cut p.1 (requestOf opts nonRepeaters p)) := by
  unfold walkTable walkTable? answerTo
  split
  · exact Or.inr (by simp [BulkResponse.table?, BulkResponse.effectiveError,
      TruncatingAgent.peers, TruncatingAgent.bulkCmd, requestOf])
  · exact Or.inl rfl

/-- **The generator attributes an answer to the columns it answers.** -/
theorem attributed_getBulk (a : TruncatingAgent V) (opts : WalkOptions) (nonRepeaters : ℤ)
    (p : ℕ × WalkState) :
    p.2.attributed nonRepeaters ((a.mib.getBulk (requestOf opts nonRepeaters p)).take
      (a.cut p.1 (requestOf opts nonRepeaters p))) = a.answerFor opts nonRepeaters p := by
  have hplaces := atPlaces_getBulkFor a.mib (requestOf opts nonRepeaters p)
  rw [length_oids_requestOf] at hplaces
  rw [← map_snd_getBulkFor, ← List.map_take]
  exact attributed_of_atPlaces (hplaces.take (a.cut p.1 (requestOf opts nonRepeaters p)))

theorem attributed_walkTable (a : TruncatingAgent V) (opts : WalkOptions) (nonRepeaters : ℤ)
    (p : ℕ × WalkState) :
    (p.2.attributed nonRepeaters (walkTable opts nonRepeaters a.peers p)).Sublist
      (a.answerFor opts nonRepeaters p) := by
  rcases walkTable_agent a opts nonRepeaters p with h | h
  · rw [h]
    exact List.nil_sublist _
  · rw [h, attributed_getBulk]

/-- **The answers of an agent ascend.** -/
theorem answerAscends_agent (a : TruncatingAgent V) (opts : WalkOptions) (nonRepeaters : ℤ)
    (p : ℕ × WalkState) : AnswerAscends opts nonRepeaters a.peers p := by
  intro i c hc hopen
  rw [ownAnswer]
  rcases walkTable_agent a opts nonRepeaters p with h | h
  · rw [h]
    trivial
  · rw [h, attributed_getBulk, TruncatingAgent.answerFor]
    have hactive : i ∈ activeIndices p.2.columns := mem_activeIndices.mpr ⟨c, hc, hopen⟩
    obtain ⟨j, hj, rfl⟩ := List.mem_iff_getElem.mp hactive
    -- the column is asked for from its last OID on
    have hasked : (requestOf opts nonRepeaters p).oids[j]? = some c.lastOid := by
      rw [oids_requestOf, List.getElem?_map, List.getElem?_eq_getElem hj, Option.map_some, hc]
      rfl
    obtain ⟨k, hchain⟩ := exists_chain a.mib _ hasked
    have hown := ownVarBinds_relabel (nodup_activeIndices p.2.columns) hj
      (l := (a.mib.getBulkFor (requestOf opts nonRepeaters p)).take
        (a.cut p.1 (requestOf opts nonRepeaters p))) (by
          intro q hq
          rw [← length_oids_requestOf opts nonRepeaters p]
          exact (mem_getBulkFor (List.mem_of_mem_take hq)).1)
    rw [List.getD_eq_getElem _ _ hj] at hown
    rw [hown]
    have hall : AscendsFrom opts c c.lastOid (a.mib.chain k c.lastOid) :=
      ascendsFrom_chain a.mib c k c.lastOid
    rw [← hchain] at hall
    exact hall.of_prefix (prefix_ownVarBinds (List.take_prefix _ _))

/-- What is accepted is for a column that it does not end. -/
theorem exists_column_of_mem_acceptedOf {peers : Peers V} {q : ℕ × ObjectType V}
    (h : q ∈ acceptedOf opts nonRepeaters peers p) :
    ∃ c, p.2.columns[q.1]? = some c ∧ endsColumn opts c q.2 = false := by
  obtain ⟨c, hc⟩ : ∃ c, p.2.columns[q.1]? = some c :=
    ⟨_, List.getElem?_eq_getElem (lt_length_of_mem_acceptedOf h)⟩
  have hown : q.2 ∈ ownVarBinds q.1 (acceptedOf opts nonRepeaters peers p) :=
    List.mem_map.mpr ⟨q, List.mem_filter.mpr ⟨h, by simp⟩, rfl⟩
  rw [ownVarBinds_acceptedOf hc] at hown
  exact ⟨c, hc, Column.not_endsColumn_of_mem_accepted hown⟩

/-- What is accepted of an agent's answer is an instance of its MIB. -/
theorem mem_entries_of_mem_acceptedOf {q : ℕ × ObjectType V}
    (h : q ∈ acceptedOf opts nonRepeaters a.peers p) : ∃ e ∈ a.mib.entries, q.2.name = e.1 := by
  have hanswer : q ∈ a.answerFor opts nonRepeaters p :=
    ((accepted_sublist opts p.2.columns _).trans
      (attributed_walkTable a opts nonRepeaters p)).subset h
  obtain ⟨q', hq', rfl⟩ := List.mem_map.mp hanswer
  obtain ⟨o, ho⟩ := (mem_getBulkFor (List.mem_of_mem_take hq')).2
  rcases getNext_cases a.mib o with hend | ⟨e, he, hnext, -⟩
  · obtain ⟨c, -, hopen⟩ := exists_column_of_mem_acceptedOf h
    rw [ho, hend] at hopen
    simp [endsColumn] at hopen
  · exact ⟨e, he, by rw [ho, hnext]; rfl⟩

end Agent

/-! ### Runs -/

/-- What an iteration yields, each varbind with the column it is attributed to. -/
def yieldedOf (opts : WalkOptions) (nonRepeaters : ℤ) (peers : Peers V) (p : ℕ × WalkState) :
    List (ℕ × ObjectType V) :=
  (acceptedOf opts nonRepeaters peers p).take
    ((yieldsOf opts nonRepeaters peers p).flatMap WalkYield.varBinds).length

/-- **The walk is sound**: what it yields lies under the root it is attributed to, answers the
column of the request it is attributed to, and goes up for each root over the whole run. -/
structure Sound (opts : WalkOptions) (nonRepeaters : ℤ) (roots : List Oid) (a : TruncatingAgent V)
    (run : WalkRun V) : Prop where
  attribution :
    (run.heads.flatMap (yieldedOf opts nonRepeaters a.peers)).map Prod.snd = run.varBinds
  under : ∀ q ∈ run.heads.flatMap (yieldedOf opts nonRepeaters a.peers),
    ∃ r, roots[q.1]? = some r ∧ Under r q.2.name
  column : ∀ p ∈ run.heads, (yieldedOf opts nonRepeaters a.peers p).Sublist
    (a.answerFor opts nonRepeaters p)
  increasing : ∀ i r, roots[i]? = some r →
    (r :: (ownVarBinds i (run.heads.flatMap (yieldedOf opts nonRepeaters a.peers))).map
      ObjectType.name).Pairwise (· < ·)

section Runs

variable {opts : WalkOptions} {nonRepeaters : ℤ} {a : TruncatingAgent V} {p : ℕ × WalkState}

theorem yieldedOf_sublist (opts : WalkOptions) (nonRepeaters : ℤ) (peers : Peers V)
    (p : ℕ × WalkState) :
    (yieldedOf opts nonRepeaters peers p).Sublist (acceptedOf opts nonRepeaters peers p) :=
  List.take_sublist _ _

/-- An agent's answer is free of errors. -/
theorem not_error_agent {r : BulkResponse V}
    (hr : answerTo opts nonRepeaters (a.peers.bulkCmd p.1) p.2 = some r) :
    r.effectiveError opts = none ∧ r.errorStatus = 0 := by
  unfold answerTo at hr
  split at hr
  · obtain rfl := Option.some.inj hr
    exact ⟨by simp [BulkResponse.effectiveError, TruncatingAgent.peers, TruncatingAgent.bulkCmd],
      rfl⟩
  · cases hr

/-- **One turn** yields the first varbinds it accepts. -/
theorem map_snd_yieldedOf (a : TruncatingAgent V) (opts : WalkOptions) (nonRepeaters : ℤ)
    (p : ℕ × WalkState) :
    (yieldedOf opts nonRepeaters a.peers p).map Prod.snd =
      (yieldsOf opts nonRepeaters a.peers p).flatMap WalkYield.varBinds := by
  obtain ⟨ys, control, hturn, hiteration⟩ := iteration_turn opts nonRepeaters a.peers p.1 p.2
  have hys : yieldsOf opts nonRepeaters a.peers p = ys := congrArg Prod.fst hiteration
  rw [yieldedOf, hys]
  cases hturn with
  | idle h => rfl
  | exhausted hvar h => rfl
  | failed r e hr he hfinal =>
    rw [(not_error_agent hr).1] at he
    cases he
  | timedOut r hr he =>
    rw [(not_error_agent hr).1] at he
    cases he
  | refused r hr he hstatus => exact absurd (not_error_agent hr).2 hstatus
  | nothing r table hr htable h => rfl
  | beyond r table hr htable h hlimit => rfl
  | batch r table hr htable h hlimit =>
    have hwalk : walkTable opts nonRepeaters a.peers p = table := by
      rw [walkTable, walkTable?_of_table hr htable, Option.getD_some]
    rw [acceptedOf, hwalk]
    simp [List.map_take]

theorem ownVarBinds_sublist {i : ℕ} {l l' : List (ℕ × ObjectType V)} (h : l.Sublist l') :
    (ownVarBinds i l).Sublist (ownVarBinds i l') :=
  (h.filter _).map _

/-- **The parallel bulk walk is sound**, for every number of non-repeaters, wherever the agent
cuts its answers: the generator returns, and what it has yielded is sound at any time. -/
theorem multiBulkWalkCmd_sound (opts : WalkOptions) (hlex : opts.lexicographicMode = false)
    (nonRepeaters : ℤ) (maxRepetitions : ℕ) (roots : List Oid) (a : TruncatingAgent V) :
    (∃ fuel, (multiBulkWalkCmd opts nonRepeaters maxRepetitions roots a.peers fuel).returned =
      true) ∧
    ∀ fuel, Sound opts nonRepeaters roots a
      (multiBulkWalkCmd opts nonRepeaters maxRepetitions roots a.peers fuel) := by
  have hplain : ∀ n, a.peers.send n = [] := fun _ => rfl
  have hcolumns : ∀ i : ℕ, (WalkState.init maxRepetitions roots).columns[i]? =
      roots[i]?.map Column.start := fun i => List.getElem?_map
  -- the accepted OIDs of each column ascend
  have hascends : ∀ fuel i c, (WalkState.init maxRepetitions roots).columns[i]? = some c →
      (c.lastOid :: (ownVarBinds i ((multiBulkWalkCmd opts nonRepeaters maxRepetitions roots
        a.peers fuel).accepted opts nonRepeaters a.peers)).map ObjectType.name).Pairwise
          (· < ·) := fun fuel =>
    (ascending_iff hplain fuel 0 (.init maxRepetitions roots)).mp fun p _ =>
      answerAscends_agent a opts nonRepeaters p
  have hincreasing : ∀ fuel i r, roots[i]? = some r →
      (r :: (ownVarBinds i ((multiBulkWalkCmd opts nonRepeaters maxRepetitions roots a.peers
        fuel).heads.flatMap (yieldedOf opts nonRepeaters a.peers))).map
          ObjectType.name).Pairwise (· < ·) := by
    intro fuel i r hr
    have hcolumn := hascends fuel i (Column.start r) (by rw [hcolumns, hr]; rfl)
    have hsub := flatMap_sublist (l := (multiBulkWalkCmd opts nonRepeaters maxRepetitions roots
      a.peers fuel).heads) fun p _ => yieldedOf_sublist opts nonRepeaters a.peers p
    exact hcolumn.sublist (((ownVarBinds_sublist hsub).map _).cons_cons r)
  refine ⟨?_, fun fuel => ⟨?_, ?_, ?_, hincreasing fuel⟩⟩
  · cases roots with
    | nil => exact ⟨1, by simp [multiBulkWalkCmd, walkFrom, iteration, loopBody, afterYield,
        WalkState.init, TruncatingAgent.peers]⟩
    | cons r roots =>
      -- the instances of the MIB are finitely many
      have hanswers : ∀ n, 0 ≤ n → ∀ req,
          (a.peers.bulkCmd n req).errorIndication ≠ some .requestTimedOut := by
        intro n _ req htimeout
        cases htimeout
      refine returns_of_ascending hplain hanswers rfl
        (a.mib.entries.map Prod.fst).toFinset ?_ hascends
      intro fuel q hq
      obtain ⟨p, -, hq⟩ := List.mem_flatMap.mp hq
      obtain ⟨e, he, hname⟩ := mem_entries_of_mem_acceptedOf hq
      rw [List.mem_toFinset, hname]
      exact List.mem_map_of_mem he
  · rw [WalkRun.varBinds, multiBulkWalkCmd, yields_walkFrom, List.flatMap_assoc, List.map_flatMap]
    exact congrArg (List.flatMap · _) (funext fun p => map_snd_yieldedOf a opts nonRepeaters p)
  · intro q hq
    obtain ⟨p, hp, hqp⟩ := List.mem_flatMap.mp hq
    obtain ⟨c, hc, hopen⟩ := exists_column_of_mem_acceptedOf
      ((yieldedOf_sublist opts nonRepeaters a.peers p).subset hqp)
    -- the column walks the root of its place
    have hroot : roots[q.1]? = some c.initialVar := by
      have hroots := heads_roots hplain fuel 0 (.init maxRepetitions roots) p hp
      have hplace := congrArg (fun l : List Oid => l[q.1]?) hroots
      rw [List.getElem?_map, List.getElem?_map, hc, hcolumns, Option.map_map] at hplace
      rw [Option.map_some] at hplace
      rw [hplace]
      cases roots[q.1]? <;> rfl
    refine ⟨c.initialVar, hroot, ?_, ?_⟩
    · simp only [endsColumn, hlex, Bool.or_eq_false_iff, Bool.not_false, Bool.true_and,
        Bool.not_eq_false'] at hopen
      exact List.isPrefixOf_iff_prefix.mp hopen.2
    · have hpairwise := List.pairwise_cons.mp (hincreasing fuel q.1 c.initialVar hroot)
      refine (hpairwise.1 q.2.name (List.mem_map_of_mem (List.mem_map.mpr ⟨q, ?_, rfl⟩))).ne
      exact List.mem_filter.mpr ⟨hq, by simp⟩
  · intro p _
    exact ((yieldedOf_sublist opts nonRepeaters a.peers p).trans
      (accepted_sublist opts p.2.columns _)).trans (attributed_walkTable a opts nonRepeaters p)

/-- Both roots non-repeaters, and one varbind an answer. -/
theorem multiBulkWalkCmd_sound_oneVarBindAgent : (subtreeOptions false).lexicographicMode = false ∧
    (∃ fuel, (multiBulkWalkCmd (subtreeOptions false) 5 10 systemAndInterfaces
      oneVarBindAgent.peers fuel).returned = true) ∧
    ∀ fuel, Sound (subtreeOptions false) 5 systemAndInterfaces oneVarBindAgent
      (multiBulkWalkCmd (subtreeOptions false) 5 10 systemAndInterfaces oneVarBindAgent.peers
        fuel) :=
  ⟨rfl, multiBulkWalkCmd_sound (subtreeOptions false) rfl 5 10 systemAndInterfaces oneVarBindAgent⟩

end Runs

end Sc4snmp
