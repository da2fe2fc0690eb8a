import Mathlib.Algebra.GroupWithZero.Nat
import Mathlib.Data.List.GetD
import Sc4snmp.Snmp.MultiBulkWalk

/-!
# Completeness of the parallel walk under truncated answers

An agent may cut its answer to a GETBULK request at any varbind.  The walk keeps
an exact account of every column through such cuts: a column's last OID is where
the agent will go on from, and a column is completed only when nothing under its
root is left.  What it gets wrong is when to stop.  It returns as soon as one
answer brings nothing new, also when the answer was cut before it reached the
columns that are still open.

`WalkInv` is the account, kept by every varbind scanned (`Visit.walkInv`), and
`openWork` the measure that every request decreases, so the walk always returns.
The walk is complete exactly when no answer is cut short of every open column
that still has something to give while an instance is missing.

## Main definitions

* `Under r x` — the instance `x` lies under the root `r`.
* `NextInScope m c` — the agent's next varbind for the column is still under its
  root.
* `WalkInv m roots cols out` — the account of the columns against the MIB.
* `ReachesOpenSubtree a n st` — the answer to the request of `st` goes as far as
  a column with something to give.
* `Missing m cols e` — an instance under a root that no column has come to.

## Main results

* `multiBulkWalkCmd_returns` — the walk always returns.
* `multiBulkWalkCmd_complete_iff` — **when it has collected everything.**
* `multiBulkWalkCmd_incomplete` — an agent it misses an instance of.
-/

namespace Sc4snmp

open Successor

variable {V : Type*}

/-- The options of a walk confined to the subtrees of its roots, without limits. -/
def subtreeOptions (ignoreNonIncreasingOid : Bool) : WalkOptions :=
  { lexicographicMode := false, ignoreNonIncreasingOid }

/-- The instance `x` lies under the root `r`. -/
def Under (r x : Oid) : Prop := r <+: x ∧ r ≠ x

/-- The agent's next varbind for the column is still under its root. -/
def NextInScope (m : Mib V) (c : Column) : Prop :=
  ∃ e, m.next c.lastOid = some e ∧ c.initialVar <+: e.1

/-! ### One varbind -/

theorem endsColumn_getNext (b : Bool) (m : Mib V) (c : Column) :
    endsColumn (subtreeOptions b) c (m.getNext c.lastOid) = false ↔ NextInScope m c := by
  unfold NextInScope Mib.getNext endsColumn
  cases h : m.next c.lastOid with
  | none => simp
  | some e => simp [subtreeOptions, instanceVarBind]

/-- What a varbind of column `i` does to the scan when it is the one the agent
comes to after the column's last OID. -/
inductive Visit (m : Mib V) (i : ℕ) (s : Scan V) : Scan V → Prop
  /-- The column is completed: the varbind is dropped. -/
  | skip (h : ∀ c, s.columns[i]? = some c → c.completed = true) : Visit m i s s
  /-- The column moves on to the next instance under its root. -/
  | accept (c : Column) (e : Oid × V) (hc : s.columns[i]? = some c) (ho : c.completed = false)
      (he : m.next c.lastOid = some e) (hs : c.initialVar <+: e.1) :
      Visit m i s ⟨s.columns.set i { c with lastOid := e.1 },
        s.validResults ++ [instanceVarBind e], false⟩
  /-- The column has nothing left under its root. -/
  | close (c : Column) (hc : s.columns[i]? = some c) (ho : c.completed = false)
      (hs : ¬ NextInScope m c) :
      Visit m i s { s with columns := s.columns.set i { c with completed := true } }

theorem scanVarBind_visit {b : Bool} {m : Mib V} {i : ℕ} {vb : ObjectType V} {s : Scan V}
    (h : ∀ c, s.columns[i]? = some c → c.completed = false → vb = m.getNext c.lastOid) :
    Visit m i s (scanVarBind (subtreeOptions b) i vb s) := by
  unfold scanVarBind
  cases hc : s.columns[i]? with
  | none => exact .skip (by simp [hc])
  | some c =>
    cases ho : c.completed with
    | true => simpa [ho] using Visit.skip (m := m) (i := i) (s := s) (by simpa [hc] using ho)
    | false =>
      obtain rfl := h c hc ho
      cases hend : endsColumn (subtreeOptions b) c (m.getNext c.lastOid) with
      | true =>
        have hs : ¬ NextInScope m c := by
          rw [← endsColumn_getNext b, hend]; decide
        simpa [ho, hend] using Visit.close c hc ho hs
      | false =>
        obtain ⟨e, he, hs⟩ := (endsColumn_getNext b m c).mp hend
        have hget : m.getNext c.lastOid = instanceVarBind e := by simp [Mib.getNext, he]
        have hname : (instanceVarBind e).name = e.1 := rfl
        rw [hget] at hend ⊢
        simpa [ho, hend, hname] using Visit.accept c e hc ho he hs

/-! ### The account -/

/-- The columns account for the MIB: a column stands inside its subtree, a
completed one at its end, and the varbinds yielded so far are those between the
roots and the columns' last OIDs. -/
structure WalkInv (m : Mib V) (roots : List Oid) (cols : List Column)
    (out : List (ObjectType V)) : Prop where
  roots_eq : cols.map Column.initialVar = roots
  under : ∀ c ∈ cols, c.initialVar <+: c.lastOid
  done : ∀ c ∈ cols, c.completed = true →
    ∀ e ∈ m.entries, c.initialVar <+: e.1 → e.1 ≤ c.lastOid
  collected : ∀ c ∈ cols, ∀ e ∈ m.entries, Under c.initialVar e.1 → e.1 ≤ c.lastOid →
    instanceVarBind e ∈ out
  sound : ∀ vb ∈ out, ∃ e ∈ m.entries, vb = instanceVarBind e ∧
    ∃ c ∈ cols, Under c.initialVar e.1 ∧ e.1 ≤ c.lastOid

/-- Changing a column moves it on, and leaves its root alone. -/
theorem exists_mem_set {cols : List Column} {i : ℕ} {c d : Column} (hc : cols[i]? = some c)
    (c' : Column) (hr : c'.initialVar = c.initialVar) (hl : c.lastOid ≤ c'.lastOid)
    (hd : d ∈ cols) :
    ∃ d' ∈ cols.set i c', d'.initialVar = d.initialVar ∧ d.lastOid ≤ d'.lastOid := by
  obtain ⟨k, hk, rfl⟩ := List.mem_iff_getElem.mp hd
  have hi : i < cols.length := (List.getElem?_eq_some_iff.mp hc).1
  by_cases hki : i = k
  · subst hki
    have hck : cols[i] = c := (List.getElem?_eq_some_iff.mp hc).2
    exact ⟨c', List.mem_set hi c', by rw [hck, hr], by rw [hck]; exact hl⟩
  · refine ⟨cols[k], List.mem_iff_getElem.mpr ⟨k, by simpa using hk, ?_⟩, rfl, le_rfl⟩
    rw [List.getElem_set_ne hki]

/-- Changing a column keeps the list of roots. -/
theorem map_initialVar_set {cols : List Column} {i : ℕ} {c : Column} (hc : cols[i]? = some c)
    (c' : Column) (hr : c'.initialVar = c.initialVar) :
    (cols.set i c').map Column.initialVar = cols.map Column.initialVar := by
  obtain ⟨hi, rfl⟩ := List.getElem?_eq_some_iff.mp hc
  have hi' : i < (cols.map Column.initialVar).length := by simpa using hi
  rw [List.map_set, hr, ← List.getElem_map Column.initialVar (h := hi'), List.set_getElem_self]

/-- A column whose next varbind is out of scope has nothing left. -/
theorem le_lastOid_of_not_nextInScope {m : Mib V} {c : Column} {e : Oid × V}
    (hu : c.initialVar <+: c.lastOid) (h : ¬ NextInScope m c) (he : e ∈ m.entries)
    (hre : c.initialVar <+: e.1) : e.1 ≤ c.lastOid :=
  le_of_nextAfter_not_isPrefix m.sorted hu (fun b hb hrb => h ⟨b, hb, hrb⟩) he hre

/-- **Scanning a varbind keeps the account.** -/
theorem Visit.walkInv {m : Mib V} {roots : List Oid} {out : List (ObjectType V)} {i : ℕ}
    {s s' : Scan V} (hv : Visit m i s s') (h : WalkInv m roots s.columns (out ++ s.validResults)) :
    WalkInv m roots s'.columns (out ++ s'.validResults) := by
  cases hv with
  | skip _ => exact h
  | close c hc ho hs =>
    have hmem : c ∈ s.columns := List.mem_of_getElem? hc
    have hset : ∀ d ∈ s.columns.set i { c with completed := true },
        d ∈ s.columns ∨ d = { c with completed := true } := fun d => List.mem_or_eq_of_mem_set
    refine ⟨?_, ?_, ?_, ?_, ?_⟩
    · exact (map_initialVar_set hc { c with completed := true } rfl).trans h.roots_eq
    · intro d hd
      rcases hset d hd with hd | rfl
      · exact h.under d hd
      · exact h.under c hmem
    · intro d hd hdone e he hre
      rcases hset d hd with hd | rfl
      · exact h.done d hd hdone e he hre
      · exact le_lastOid_of_not_nextInScope (h.under c hmem) hs he hre
    · intro d hd e he hre hle
      rcases hset d hd with hd | rfl
      · exact h.collected d hd e he hre hle
      · exact h.collected c hmem e he hre hle
    · intro vb hvb
      obtain ⟨e, he, rfl, d, hd, hde, hle⟩ := h.sound vb hvb
      obtain ⟨d', hd', hr, hl⟩ :=
        exists_mem_set hc { c with completed := true } rfl le_rfl hd
      exact ⟨e, he, rfl, d', hd', by rwa [hr], hle.trans hl⟩
  | accept c e hc ho he hs =>
    have hmem : c ∈ s.columns := List.mem_of_getElem? hc
    have hlt : c.lastOid < e.1 := nextAfter_lt he
    have hem : e ∈ m.entries := nextAfter_mem he
    have hset : ∀ d ∈ s.columns.set i { c with lastOid := e.1 },
        d ∈ s.columns ∨ d = { c with lastOid := e.1 } := fun d => List.mem_or_eq_of_mem_set
    rw [← List.append_assoc]
    refine ⟨?_, ?_, ?_, ?_, ?_⟩
    · exact (map_initialVar_set hc { c with lastOid := e.1 } rfl).trans h.roots_eq
    · intro d hd
      rcases hset d hd with hd | rfl
      · exact h.under d hd
      · exact hs
    · intro d hd hdone f hf hrf
      rcases hset d hd with hd | rfl
      · exact h.done d hd hdone f hf hrf
      · exact absurd hdone (by simp [ho])
    · intro d hd f hf hrf hle
      rcases hset d hd with hd | rfl
      · exact List.mem_append_left _ (h.collected d hd f hf hrf hle)
      · -- between the old last OID and the new one there is only `e`
        rcases le_or_gt f.1 c.lastOid with hfl | hfl
        · exact List.mem_append_left _ (h.collected c hmem f hf hrf hfl)
        · have hfe : f.1 = e.1 := le_antisymm hle (nextAfter_le m.sorted he hf hfl)
          rw [eq_of_key_eq m.sorted hf hem hfe]
          exact List.mem_append_right _ (List.mem_singleton.mpr rfl)
    · intro vb hvb
      rcases List.mem_append.mp hvb with hvb | hvb
      · obtain ⟨f, hf, rfl, d, hd, hdf, hle⟩ := h.sound vb hvb
        obtain ⟨d', hd', hr, hl⟩ :=
          exists_mem_set hc { c with lastOid := e.1 } rfl hlt.le hd
        exact ⟨f, hf, rfl, d', hd', by rwa [hr], hle.trans hl⟩
      · have hi : i < s.columns.length := (List.getElem?_eq_some_iff.mp hc).1
        have hne : c.initialVar ≠ e.1 :=
          ((le_of_isPrefix (h.under c hmem)).trans_lt hlt).ne
        exact ⟨e, hem, List.mem_singleton.mp hvb, { c with lastOid := e.1 },
          List.mem_set hi _, ⟨hs, hne⟩, le_rfl⟩

/-! ### The measure -/

/-- What a column may still ask for: the instances after its last OID, and the
answer that closes it. -/
def openWork (m : Mib V) (c : Column) : ℕ :=
  if c.completed then 0 else 1 + (m.entries.filter fun e => decide (c.lastOid < e.1)).length

theorem openWork_pos {m : Mib V} {c : Column} (h : c.completed = false) : 0 < openWork m c := by
  rw [openWork, h, if_neg (by decide)]
  omega

theorem openWork_close (m : Mib V) (c : Column) :
    openWork m { c with completed := true } = 0 := rfl

theorem openWork_accept {m : Mib V} {c : Column} {e : Oid × V} (ho : c.completed = false)
    (he : m.next c.lastOid = some e) : openWork m { c with lastOid := e.1 } < openWork m c := by
  have hlt : c.lastOid < e.1 := nextAfter_lt he
  have hem : e ∈ m.entries := nextAfter_mem he
  simp only [openWork, ho]
  have hsub : (m.entries.filter fun f => decide (e.1 < f.1)).Sublist
      (m.entries.filter fun f => decide (c.lastOid < f.1)) := by
    refine List.monotone_filter_right _ ?_
    intro f hf
    exact decide_eq_true (hlt.trans (of_decide_eq_true hf))
  have hne : (m.entries.filter fun f => decide (e.1 < f.1)).length ≠
      (m.entries.filter fun f => decide (c.lastOid < f.1)).length := by
    intro hlen
    have hmem : e ∈ m.entries.filter fun f => decide (e.1 < f.1) := by
      rw [hsub.eq_of_length hlen]
      exact List.mem_filter.mpr ⟨hem, decide_eq_true hlt⟩
    exact absurd (of_decide_eq_true (List.mem_filter.mp hmem).2) (lt_irrefl _)
  have := hsub.length_le
  simp only [Bool.false_eq_true, if_false]
  omega

/-- The work left over all columns. -/
def totalWork (m : Mib V) (cols : List Column) : ℕ := (cols.map (openWork m)).sum

theorem totalWork_set (m : Mib V) {cols : List Column} {i : ℕ} {c : Column}
    (hc : cols[i]? = some c) (c' : Column) :
    totalWork m (cols.set i c') + openWork m c = totalWork m cols + openWork m c' := by
  obtain ⟨hi, rfl⟩ := List.getElem?_eq_some_iff.mp hc
  have hsplit : cols = cols.take i ++ cols[i] :: cols.drop (i + 1) := by simp
  have hset : cols.set i c' = cols.take i ++ c' :: cols.drop (i + 1) := by
    rw [List.set_eq_take_append_cons_drop, if_pos hi]
  rw [hset]
  conv_rhs => rw [hsplit]
  simp only [totalWork, List.map_append, List.map_cons, List.sum_append, List.sum_cons]
  omega

/-- Scanning a varbind never adds work, and takes some off an open column. -/
theorem Visit.work {m : Mib V} {i : ℕ} {s s' : Scan V} (hv : Visit m i s s') :
    totalWork m s'.columns ≤ totalWork m s.columns ∧
      ((∃ d, s.columns[i]? = some d ∧ d.completed = false) →
        totalWork m s'.columns < totalWork m s.columns) := by
  cases hv with
  | skip h =>
    refine ⟨le_rfl, ?_⟩
    rintro ⟨d, hd, hopen⟩
    exact absurd (h d hd) (by simp [hopen])
  | close c hc ho hs =>
    have hset := totalWork_set m hc { c with completed := true }
    have hpos := openWork_pos (m := m) ho
    rw [openWork_close] at hset
    have hlt : totalWork m (s.columns.set i { c with completed := true }) <
        totalWork m s.columns := by omega
    exact ⟨hlt.le, fun _ => hlt⟩
  | accept c e hc ho he hs =>
    have hset := totalWork_set m hc { c with lastOid := e.1 }
    have hacc := openWork_accept ho he
    have hlt : totalWork m (s.columns.set i { c with lastOid := e.1 }) <
        totalWork m s.columns := by omega
    exact ⟨hlt.le, fun _ => hlt⟩

/-! ### One answer -/

/-- The column at index `i` has nothing to give. -/
def Stuck (m : Mib V) (cols : List Column) (i : ℕ) : Prop :=
  ∀ c, cols[i]? = some c → c.completed = true ∨ ¬ NextInScope m c

theorem Visit.stopFlag {m : Mib V} {i : ℕ} {s s' : Scan V} (hv : Visit m i s s')
    (h : s.stopFlag = s.validResults.isEmpty) : s'.stopFlag = s'.validResults.isEmpty := by
  cases hv with
  | skip _ => exact h
  | close _ _ _ _ => exact h
  | accept _ _ _ _ _ _ => simp

theorem Visit.validResults {m : Mib V} {i : ℕ} {s s' : Scan V} (hv : Visit m i s s') :
    s.validResults <+: s'.validResults ∧
      (s'.validResults = s.validResults ↔ Stuck m s.columns i) := by
  cases hv with
  | skip h => exact ⟨List.prefix_rfl, iff_of_true rfl fun c hc => Or.inl (h c hc)⟩
  | close c hc ho hs =>
    refine ⟨List.prefix_rfl, iff_of_true rfl fun d hd => Or.inr ?_⟩
    obtain rfl : c = d := Option.some.inj (hc.symm.trans hd)
    exact hs
  | accept c e hc ho he hs =>
    refine ⟨List.prefix_append _ _, iff_of_false (by simp) fun h => ?_⟩
    rcases h c hc with h | h
    · exact absurd h (by simp [ho])
    · exact h ⟨e, he, hs⟩

/-- A varbind that brings nothing new leaves the other columns as they are, and
its own column stuck. -/
theorem Visit.stuck_iff {m : Mib V} {i k : ℕ} {s s' : Scan V} (hv : Visit m i s s')
    (hi : Stuck m s.columns i) : Stuck m s'.columns k ↔ Stuck m s.columns k := by
  cases hv with
  | skip _ => exact Iff.rfl
  | accept c e hc ho he hs =>
    rcases hi c hc with h | h
    · exact absurd h (by simp [ho])
    · exact absurd ⟨e, he, hs⟩ h
  | close c hc ho hs =>
    by_cases hik : i = k
    · subst hik
      refine iff_of_true (fun d hd => Or.inl ?_) hi
      have hlt : i < s.columns.length := (List.getElem?_eq_some_iff.mp hc).1
      rw [List.getElem?_set_self hlt] at hd
      exact (Option.some.inj hd) ▸ rfl
    · simp only [Stuck, List.getElem?_set_ne hik]

/-- The varbinds follow the cursors `cur` of the request's columns, the first one
being for column `j`: each is the agent's next one for its column. -/
def Follows (m : Mib V) : List Oid → ℕ → List (ObjectType V) → Prop
  | _, _, [] => True
  | cur, j, vb :: rest => vb = m.getNext (cur.getD j []) ∧
      Follows m (cur.set j vb.name) ((j + 1) % cur.length) rest

theorem Follows.take {m : Mib V} : ∀ {l : List (ObjectType V)} {cur : List Oid} {j k : ℕ},
    Follows m cur j l → Follows m cur j (l.take k) := by
  intro l
  induction l with
  | nil => intro cur j k _; simp [Follows]
  | cons vb l ih =>
    intro cur j k h
    cases k with
    | zero => simp [Follows]
    | succ k => exact ⟨h.1, ih h.2⟩

/-- One row: the columns from `pre.length` on are answered in order. -/
theorem follows_row {m : Mib V} : ∀ {suf : List Oid} (pre : List Oid) {rest : List (ObjectType V)},
    suf ≠ [] → Follows m (pre ++ suf.map fun o => (m.getNext o).name) 0 rest →
      Follows m (pre ++ suf) pre.length (suf.map m.getNext ++ rest) := by
  intro suf
  induction suf with
  | nil => intro pre rest h _; exact absurd rfl h
  | cons o suf ih =>
    intro pre rest _ hrest
    refine ⟨by simp, ?_⟩
    have hset : (pre ++ o :: suf).set pre.length (m.getNext o).name =
        (pre ++ [(m.getNext o).name]) ++ suf := by
      rw [List.set_append_right _ _ le_rfl]
      simp
    rw [hset]
    cases suf with
    | nil => simpa using hrest
    | cons o' suf =>
      have hmod : (pre.length + 1) % (pre ++ o :: o' :: suf).length =
          (pre ++ [(m.getNext o).name]).length := by
        rw [Nat.mod_eq_of_lt (by simp)]
        simp
      rw [hmod]
      exact ih _ (List.cons_ne_nil _ _) (by simpa using hrest)

/-- The full answer follows the cursors of the request. -/
theorem follows_repetitions {m : Mib V} : ∀ {reps : ℕ} {oids : List Oid}, oids ≠ [] →
    Follows m oids 0 (m.repetitions reps oids) := by
  intro reps
  induction reps with
  | zero => intro oids _; trivial
  | succ reps ih =>
    intro oids hne
    exact follows_row [] hne (ih (by simpa using hne))

/-- The cursors stand at the last OIDs of the open columns. -/
def Tied (active : List ℕ) (cols : List Column) (cur : List Oid) : Prop :=
  ∀ j < active.length, ∀ c, cols[active.getD j 0]? = some c → c.completed = false →
    cur.getD j [] = c.lastOid

theorem getD_ne_of_nodup {active : List ℕ} (hnd : active.Nodup) {j k : ℕ}
    (hj : j < active.length) (hk : k < active.length) (hjk : j ≠ k) :
    active.getD j 0 ≠ active.getD k 0 := by
  rw [List.getD_eq_getElem _ _ hj, List.getD_eq_getElem _ _ hk]
  exact fun h => hjk ((List.Nodup.getElem_inj_iff hnd).mp h)

theorem Visit.tied {m : Mib V} {active : List ℕ} {cur : List Oid} {j : ℕ} {s s' : Scan V}
    (hnd : active.Nodup) (hlen : cur.length = active.length) (hj : j < active.length)
    (ht : Tied active s.columns cur) (hv : Visit m (active.getD j 0) s s') :
    Tied active s'.columns (cur.set j (m.getNext (cur.getD j [])).name) := by
  intro k hk c' hc' ho'
  -- the cursor of the column that is visited moves with it, the others stay
  by_cases hjk : j = k
  · subst hjk
    rw [List.getD_eq_getElem _ _ (by simpa [hlen] using hj), List.getElem_set_self]
    cases hv with
    | skip h => exact absurd (h c' hc') (by simp [ho'])
    | close c hc ho hs =>
      have hlt : active.getD j 0 < s.columns.length := (List.getElem?_eq_some_iff.mp hc).1
      rw [List.getElem?_set_self hlt] at hc'
      rw [← Option.some.inj hc'] at ho'
      exact absurd ho' (by simp)
    | accept c e hc ho he hs =>
      have hlt : active.getD j 0 < s.columns.length := (List.getElem?_eq_some_iff.mp hc).1
      rw [List.getElem?_set_self hlt] at hc'
      rw [← Option.some.inj hc', ht j hj c hc ho]
      simp [Mib.getNext, he, instanceVarBind]
  · have hne := getD_ne_of_nodup hnd hj hk hjk
    have hget : (cur.set j (m.getNext (cur.getD j [])).name).getD k [] = cur.getD k [] := by
      rw [List.getD_eq_getElem?_getD, List.getElem?_set_ne hjk, ← List.getD_eq_getElem?_getD]
    rw [hget]
    refine ht k hk c' ?_ ho'
    cases hv with
    | skip _ => exact hc'
    | close c hc ho hs => rwa [List.getElem?_set_ne hne] at hc'
    | accept c e hc ho he hs => rwa [List.getElem?_set_ne hne] at hc'

/-- What scanning `len` varbinds does, the first one being for active column
`j`. -/
structure ScanSpec (m : Mib V) (roots : List Oid) (out : List (ObjectType V))
    (active : List ℕ) (j len : ℕ) (s s' : Scan V) : Prop where
  inv : WalkInv m roots s'.columns (out ++ s'.validResults)
  work_le : totalWork m s'.columns ≤ totalWork m s.columns
  work_lt : 0 < len → (∃ d, s.columns[active.getD j 0]? = some d ∧ d.completed = false) →
    totalWork m s'.columns < totalWork m s.columns
  grows : s.validResults <+: s'.validResults
  flag : s'.stopFlag = s'.validResults.isEmpty
  nothing_new : s'.validResults = s.validResults ↔
    ∀ k < len, Stuck m s.columns (active.getD ((j + k) % active.length) 0)

/-- **Scanning an answer that follows the columns**: by induction on the answer,
each varbind being a visit of its column. -/
theorem scanTable_spec (b : Bool) {m : Mib V} {roots : List Oid} (out : List (ObjectType V))
    {active : List ℕ} (hnd : active.Nodup) : ∀ (l : List (ObjectType V)) (cur : List Oid)
    (idx j : ℕ) (s : Scan V), cur.length = active.length → j < active.length →
      idx % active.length = j → Follows m cur j l → Tied active s.columns cur →
      s.stopFlag = s.validResults.isEmpty → WalkInv m roots s.columns (out ++ s.validResults) →
      ScanSpec m roots out active j l.length s
        (scanTable (subtreeOptions b) active 0 idx l s) := by
  intro l
  induction l with
  | nil =>
    intro cur idx j s _ _ _ _ _ hflag hinv
    exact ⟨hinv, le_rfl, fun h => absurd h (lt_irrefl 0), List.prefix_rfl, hflag,
      iff_of_true rfl fun k hk => absurd hk (Nat.not_lt_zero k)⟩
  | cons vb l ih =>
    intro cur idx j s hlen hj hidx hfol ht hflag hinv
    obtain ⟨rfl, hfol⟩ := hfol
    have hv : Visit m (active.getD j 0) s (scanVarBind (subtreeOptions b) (active.getD j 0)
        (m.getNext (cur.getD j [])) s) :=
      scanVarBind_visit fun c hc ho => by rw [ht j hj c hc ho]
    have hj' : (j + 1) % active.length < active.length := Nat.mod_lt _ (by omega)
    have hidx' : (idx + 1) % active.length = (j + 1) % active.length := by
      rw [Nat.add_mod, hidx, Nat.add_mod j 1, Nat.mod_eq_of_lt hj]
    have hih := ih (cur.set j (m.getNext (cur.getD j [])).name) (idx + 1)
      ((j + 1) % active.length) _ (by simpa using hlen) hj' hidx' (by rw [← hlen]; exact hfol)
      (hv.tied hnd hlen hj ht) (hv.stopFlag hflag) (hv.walkInv hinv)
    set s₁ := scanVarBind (subtreeOptions b) (active.getD j 0) (m.getNext (cur.getD j [])) s
    have hscan : scanTable (subtreeOptions b) active 0 idx (m.getNext (cur.getD j []) :: l) s =
        scanTable (subtreeOptions b) active 0 (idx + 1) l s₁ := by
      rw [scanTable, activeVbIdx, if_pos rfl, hidx]
    rw [hscan]
    refine ⟨hih.inv, hih.work_le.trans hv.work.1, fun _ hd => hih.work_le.trans_lt (hv.work.2 hd),
      hv.validResults.1.trans hih.grows, hih.flag, ?_⟩
    -- nothing new from the whole answer: nothing from its head, and then nothing
    -- from its tail
    have hsplit : (scanTable (subtreeOptions b) active 0 (idx + 1) l s₁).validResults
            = s.validResults ↔ Stuck m s.columns (active.getD j 0) ∧
        (scanTable (subtreeOptions b) active 0 (idx + 1) l s₁).validResults
            = s₁.validResults := by
      rw [← hv.validResults.2]
      constructor
      · intro h
        have hle := hv.validResults.1
        have hge := hih.grows
        rw [h] at hge
        have heq := hle.eq_of_length (le_antisymm hle.length_le hge.length_le)
        exact ⟨heq.symm, h.trans heq⟩
      · rintro ⟨h1, h2⟩
        exact h2.trans h1
    rw [hsplit, hih.nothing_new]
    constructor
    · rintro ⟨hstuck, hrest⟩ k hk
      cases k with
      | zero => rwa [Nat.add_zero, Nat.mod_eq_of_lt hj]
      | succ k =>
        have := (hv.stuck_iff hstuck).mp (hrest k (by simpa using hk))
        rwa [Nat.mod_add_mod, Nat.add_right_comm, Nat.add_assoc] at this
    · intro h
      have hstuck : Stuck m s.columns (active.getD j 0) := by
        have := h 0 (by simp)
        rwa [Nat.add_zero, Nat.mod_eq_of_lt hj] at this
      refine ⟨hstuck, fun k hk => (hv.stuck_iff hstuck).mpr ?_⟩
      have := h (k + 1) (by simpa using hk)
      rwa [Nat.mod_add_mod, Nat.add_right_comm, Nat.add_assoc]

/-! ### One iteration -/

theorem mem_activeIndices {cols : List Column} {i : ℕ} :
    i ∈ activeIndices cols ↔ ∃ c, cols[i]? = some c ∧ c.completed = false := by
  rw [activeIndices, List.mem_filter, List.mem_range]
  constructor
  · rintro ⟨hi, h⟩
    rw [List.getElem?_eq_getElem hi] at h ⊢
    exact ⟨_, rfl, by simpa using h⟩
  · rintro ⟨c, hc, ho⟩
    exact ⟨(List.getElem?_eq_some_iff.mp hc).1, by simp [hc, ho]⟩

theorem nodup_activeIndices (cols : List Column) : (activeIndices cols).Nodup :=
  List.nodup_range.filter _

theorem tied_bulkRequest (st : WalkState) :
    Tied (activeIndices st.columns) st.columns (bulkRequest 0 st).oids := by
  intro j hj c hc _
  have hj' : j < (bulkRequest 0 st).oids.length := by simpa [bulkRequest] using hj
  rw [List.getD_eq_getElem _ _ hj] at hc
  rw [List.getD_eq_getElem _ _ hj']
  simp [bulkRequest, hc]

/-- The answer to the request of `st`. -/
def TruncatingAgent.answer (a : TruncatingAgent V) (n : ℕ) (st : WalkState) :
    List (ObjectType V) :=
  (a.bulkCmd n (bulkRequest 0 st)).varBindTable

theorem TruncatingAgent.answer_eq (a : TruncatingAgent V) (n : ℕ) (st : WalkState) :
    a.answer n st = (a.mib.repetitions st.maxRepetitions (bulkRequest 0 st).oids).take
      (a.cut n (bulkRequest 0 st)) := by
  simp [answer, bulkCmd, Mib.getBulk, bulkRequest]

theorem length_repetitions (m : Mib V) : ∀ (reps : ℕ) (oids : List Oid),
    (m.repetitions reps oids).length = reps * oids.length := by
  intro reps
  induction reps with
  | zero => intro oids; simp [Mib.repetitions]
  | succ reps ih =>
    intro oids
    rw [Mib.repetitions, List.length_append, ih, List.length_map, List.length_map,
      Nat.succ_mul, Nat.add_comm]

/-- The answer to the request of `st` goes as far as a column that has something
to give. -/
def ReachesOpenSubtree (a : TruncatingAgent V) (n : ℕ) (st : WalkState) : Prop :=
  ∃ i ∈ (activeIndices st.columns).take (a.cut n (bulkRequest 0 st)),
    ∃ c, st.columns[i]? = some c ∧ NextInScope a.mib c

/-- The columns an answer visits are the active ones before its cut. -/
theorem forall_stuck_iff {a : TruncatingAgent V} {n : ℕ} {st : WalkState}
    (hreps : 0 < st.maxRepetitions) :
    (∀ k < (a.answer n st).length, Stuck a.mib st.columns
      ((activeIndices st.columns).getD ((0 + k) % (activeIndices st.columns).length) 0)) ↔
        ¬ ReachesOpenSubtree a n st := by
  have hlen : (a.answer n st).length =
      min (a.cut n (bulkRequest 0 st)) (st.maxRepetitions * (activeIndices st.columns).length) := by
    rw [a.answer_eq, List.length_take, length_repetitions]
    simp [bulkRequest]
  constructor
  · rintro hstuck ⟨i, hi, c, hc, hs⟩
    obtain ⟨k, hk, rfl⟩ := List.mem_iff_getElem.mp hi
    rw [List.length_take, Nat.lt_min] at hk
    have hkL : k < (a.answer n st).length := by
      have := Nat.le_mul_of_pos_left (activeIndices st.columns).length hreps
      omega
    have hst := hstuck k hkL
    rw [Nat.zero_add, Nat.mod_eq_of_lt hk.2, List.getD_eq_getElem _ _ hk.2] at hst
    rw [List.getElem_take] at hc
    obtain ⟨d, hd, ho⟩ := mem_activeIndices.mp (List.getElem_mem hk.2)
    obtain rfl : c = d := Option.some.inj (hc.symm.trans hd)
    rcases hst c hc with h | h
    · exact absurd h (by simp [ho])
    · exact h hs
  · -- every varbind of the answer is of a column the first row reaches
    intro hno k hk c hc
    rw [Nat.zero_add] at hc
    by_contra hcon
    rw [not_or, not_not] at hcon
    have hpos : 0 < (activeIndices st.columns).length := by
      rcases Nat.eq_zero_or_pos (activeIndices st.columns).length with h | h
      · rw [hlen, h] at hk
        omega
      · exact h
    have hmod : k % (activeIndices st.columns).length < (activeIndices st.columns).length :=
      Nat.mod_lt _ hpos
    have hle : k % (activeIndices st.columns).length ≤ k := Nat.mod_le _ _
    have htake : k % (activeIndices st.columns).length <
        ((activeIndices st.columns).take (a.cut n (bulkRequest 0 st))).length := by
      rw [List.length_take]
      omega
    refine hno ⟨_, List.getElem_mem htake, c, ?_, hcon.2⟩
    rw [List.getElem_take]
    rwa [List.getD_eq_getElem _ _ hmod] at hc

/-- The scan of the answer to the request of `st`. -/
def TruncatingAgent.scan (a : TruncatingAgent V) (b : Bool) (n : ℕ) (st : WalkState) : Scan V :=
  scanTable (subtreeOptions b) (activeIndices st.columns) 0 0 (a.answer n st)
    ⟨st.columns, [], true⟩

/-- The state after a request of the walk. -/
def TruncatingAgent.nextState (a : TruncatingAgent V) (b : Bool) (n : ℕ) (st : WalkState) :
    WalkState :=
  { st with
    columns := (a.scan b n st).columns
    totalRows := st.totalRows + (a.scan b n st).validResults.length
    totalCalls := st.totalCalls + 1 }

theorem answer_ne_nil {a : TruncatingAgent V} {n : ℕ} {st : WalkState}
    (hreps : 0 < st.maxRepetitions) (hact : activeIndices st.columns ≠ []) :
    0 < (a.answer n st).length := by
  have hpos : 0 < (activeIndices st.columns).length := List.length_pos_iff.mpr hact
  rw [a.answer_eq, List.length_take, length_repetitions, Nat.lt_min]
  exact ⟨a.cut_pos _ _, Nat.mul_pos hreps (by simpa [bulkRequest] using hpos)⟩

/-- What one iteration of the walk does. -/
theorem scan_spec {a : TruncatingAgent V} {b : Bool} {n : ℕ} {st : WalkState} {roots : List Oid}
    {out : List (ObjectType V)} (hreps : 0 < st.maxRepetitions)
    (hact : activeIndices st.columns ≠ []) (hinv : WalkInv a.mib roots st.columns out) :
    WalkInv a.mib roots (a.scan b n st).columns (out ++ (a.scan b n st).validResults) ∧
      totalWork a.mib (a.scan b n st).columns < totalWork a.mib st.columns ∧
      (a.scan b n st).stopFlag = (a.scan b n st).validResults.isEmpty ∧
      ((a.scan b n st).validResults = [] ↔ ¬ ReachesOpenSubtree a n st) := by
  have hpos : 0 < (activeIndices st.columns).length := List.length_pos_iff.mpr hact
  have hoids : (bulkRequest 0 st).oids.length = (activeIndices st.columns).length := by
    simp [bulkRequest]
  have hfol : Follows a.mib (bulkRequest 0 st).oids 0 (a.answer n st) := by
    rw [a.answer_eq]
    exact (follows_repetitions (List.length_pos_iff.mp (by omega))).take
  have hspec := scanTable_spec b out (nodup_activeIndices st.columns)
    (a.answer n st) (bulkRequest 0 st).oids 0 0 ⟨st.columns, [], true⟩ hoids hpos
    (Nat.zero_mod _) hfol (tied_bulkRequest st) rfl (by simpa using hinv)
  refine ⟨hspec.inv, hspec.work_lt (answer_ne_nil hreps hact) ?_, hspec.flag,
    hspec.nothing_new.trans (forall_stuck_iff hreps)⟩
  rw [List.getD_eq_getElem _ _ hpos]
  exact mem_activeIndices.mp (List.getElem_mem hpos)

theorem iteration_eq {a : TruncatingAgent V} {b : Bool} {n : ℕ} {st : WalkState}
    (hreps : 0 < st.maxRepetitions) (hvar : st.hasVarBinds = true)
    (hact : activeIndices st.columns ≠ [])
    (hflag : (a.scan b n st).stopFlag = (a.scan b n st).validResults.isEmpty) :
    iteration (subtreeOptions b) 0 a.peers n st =
      if (a.scan b n st).validResults = [] then ([], none)
      else ([⟨none, some 0, some 0, (a.scan b n st).validResults⟩],
        if (a.nextState b n st).columns.all Column.completed then none
        else some (a.nextState b n st)) := by
  have hact' : (activeIndices st.columns).isEmpty = false := by simpa using hact
  have htable : (a.answer n st).isEmpty = false := by
    rw [List.isEmpty_eq_false_iff]
    exact List.length_pos_iff.mp (answer_ne_nil hreps hact)
  -- without `maxRows` the repetitions are not limited
  have hlim : limitRepetitions (subtreeOptions b) st = st := by
    simp [limitRepetitions, subtreeOptions]
  have hresp : processResponse (subtreeOptions b) 0 st (a.peers.bulkCmd n (bulkRequest 0 st)) =
      if (a.scan b n st).validResults = [] then ([], .returned)
      else ([⟨none, some 0, some 0, (a.scan b n st).validResults⟩],
        .suspended (a.nextState b n st)) := by
    have htab : processResponse (subtreeOptions b) 0 st (a.peers.bulkCmd n (bulkRequest 0 st)) =
        processTable (subtreeOptions b) 0 st ⟨none, 0, 0, a.answer n st⟩ := by
      simp [processResponse, TruncatingAgent.peers, TruncatingAgent.bulkCmd,
        TruncatingAgent.answer]
    have hscan : scanTable (subtreeOptions b) (activeIndices st.columns)
        (min (0 : ℤ).toNat (activeIndices st.columns).length) 0 (a.answer n st)
          ⟨st.columns, [], true⟩ = a.scan b n st := by
      simp [TruncatingAgent.scan]
    rw [htab, processTable]
    simp only [htable, Bool.false_eq_true, if_false, hscan, hflag]
    by_cases hv : (a.scan b n st).validResults = []
    · simp [hv]
    · simp [hv, subtreeOptions, TruncatingAgent.nextState]
  rw [iteration, loopBody, if_pos hvar, hlim]
  simp only [hact', Bool.false_eq_true, if_false, hresp]
  by_cases hv : (a.scan b n st).validResults = []
  · simp [hv]
  · simp [hv, afterYield, TruncatingAgent.peers, subtreeOptions]

/-! ### Runs -/

/-- Everything under the roots has been yielded. -/
def Complete (m : Mib V) (roots : List Oid) (out : List (ObjectType V)) : Prop :=
  ∀ r ∈ roots, ∀ e ∈ m.entries, Under r e.1 → instanceVarBind e ∈ out

/-- The instance lies under a root, and no column has come to it. -/
def Missing (cols : List Column) (e : Oid × V) : Prop :=
  (∃ c ∈ cols, Under c.initialVar e.1) ∧ ∀ c ∈ cols, Under c.initialVar e.1 → c.lastOid < e.1

theorem complete_iff_not_missing {m : Mib V} {roots : List Oid} {cols : List Column}
    {out : List (ObjectType V)} (h : WalkInv m roots cols out) :
    Complete m roots out ↔ ∀ e ∈ m.entries, ¬ Missing cols e := by
  constructor
  · rintro hcomp e he ⟨⟨c, hc, hce⟩, hnone⟩
    have hroot : c.initialVar ∈ roots := h.roots_eq ▸ List.mem_map_of_mem hc
    obtain ⟨f, hf, hfe, d, hd, hdf, hle⟩ := h.sound _ (hcomp _ hroot e he hce)
    have hname : e.1 = f.1 := congrArg ObjectType.name hfe
    rw [← hname] at hdf hle
    exact absurd (hnone d hd hdf) (not_lt.mpr hle)
  · intro hnone r hr e he hre
    rw [← h.roots_eq] at hr
    obtain ⟨c, hc, rfl⟩ := List.mem_map.mp hr
    by_contra hout
    refine hnone e he ⟨⟨c, hc, hre⟩, fun d hd hde => not_le.mp fun hle => ?_⟩
    exact hout (h.collected d hd e he hde hle)

theorem complete_of_completed {m : Mib V} {roots : List Oid} {cols : List Column}
    {out : List (ObjectType V)} (h : WalkInv m roots cols out)
    (hall : ∀ c ∈ cols, c.completed = true) : Complete m roots out := by
  rw [complete_iff_not_missing h]
  rintro e he ⟨⟨c, hc, hce⟩, hnone⟩
  exact absurd (hnone c hc hce) (not_lt.mpr (h.done c hc (hall c hc) e he hce.1))

theorem completed_of_activeIndices_eq_nil {cols : List Column} (h : activeIndices cols = []) :
    ∀ c ∈ cols, c.completed = true := by
  intro c hc
  obtain ⟨i, hi, rfl⟩ := List.mem_iff_getElem.mp hc
  by_contra hopen
  have hmem : i ∈ activeIndices cols :=
    mem_activeIndices.mpr ⟨_, List.getElem?_eq_getElem hi, by simpa using hopen⟩
  rw [h] at hmem
  exact absurd hmem List.not_mem_nil

/-- The condition on the start of an iteration: the answer to its request goes as
far as a column with something to give, or nothing is missing any more. -/
def ServesOpenSubtree (a : TruncatingAgent V) (p : ℕ × WalkState) : Prop :=
  ReachesOpenSubtree a p.1 p.2 ∨ ∀ e ∈ a.mib.entries, ¬ Missing p.2.columns e

/-- The walk from any accounted state, by strong induction on the work left. -/
theorem walkFrom_spec (a : TruncatingAgent V) (b : Bool) {roots : List Oid} :
    ∀ (w n : ℕ) (st : WalkState) (out : List (ObjectType V)), totalWork a.mib st.columns ≤ w →
      0 < st.maxRepetitions → st.hasVarBinds = true → WalkInv a.mib roots st.columns out →
      ∃ fuel, (walkFrom (subtreeOptions b) 0 a.peers fuel n st).returned = true ∧
        (Complete a.mib roots
            (out ++ (walkFrom (subtreeOptions b) 0 a.peers fuel n st).varBinds) ↔
          ∀ p ∈ (walkFrom (subtreeOptions b) 0 a.peers fuel n st).heads,
            ServesOpenSubtree a p) := by
  intro w
  induction w using Nat.strong_induction_on with
  | _ w ih =>
    intro n st out hw hreps hvar hinv
    by_cases hact : activeIndices st.columns = []
    · -- every column is completed: the generator returns at once
      have hcomp : Complete a.mib roots out :=
        complete_of_completed hinv (completed_of_activeIndices_eq_nil hact)
      have hiter : iteration (subtreeOptions b) 0 a.peers n st = ([], none) := by
        have hlim : limitRepetitions (subtreeOptions b) st = st := by
          simp [limitRepetitions, subtreeOptions]
        simp [iteration, loopBody, hvar, hlim, hact]
      refine ⟨1, by simp [walkFrom, hiter], ?_⟩
      simp only [walkFrom, hiter, WalkRun.varBinds, List.flatMap_nil, List.append_nil,
        List.mem_singleton, forall_eq]
      exact iff_of_true hcomp (Or.inr ((complete_iff_not_missing hinv).mp hcomp))
    · obtain ⟨hinv', hwork, hflag, hnew⟩ := scan_spec (b := b) (n := n) hreps hact hinv
      have hiter := iteration_eq hreps hvar hact hflag
      by_cases hvalid : (a.scan b n st).validResults = []
      · -- nothing new: the generator returns, whatever is left
        rw [if_pos hvalid] at hiter
        refine ⟨1, by simp [walkFrom, hiter], ?_⟩
        simp only [walkFrom, hiter, WalkRun.varBinds, List.flatMap_nil, List.append_nil,
          List.mem_singleton, forall_eq]
        rw [complete_iff_not_missing hinv]
        exact ⟨Or.inr, fun h => h.resolve_left (hnew.mp hvalid)⟩
      · rw [if_neg hvalid] at hiter
        have hserves : ServesOpenSubtree a (n, st) :=
          Or.inl (by_contra fun h => hvalid (hnew.mpr h))
        by_cases hall : (a.nextState b n st).columns.all Column.completed = true
        · -- every column has come to its end
          rw [if_pos hall] at hiter
          have hcomp : Complete a.mib roots (out ++ (a.scan b n st).validResults) :=
            complete_of_completed hinv' (List.all_eq_true.mp hall)
          refine ⟨1, by simp [walkFrom, hiter], ?_⟩
          simp only [walkFrom, hiter, WalkRun.varBinds, List.flatMap_cons, List.flatMap_nil,
            List.append_nil, List.mem_singleton, forall_eq]
          exact iff_of_true hcomp hserves
        · rw [if_neg hall] at hiter
          obtain ⟨fuel, hret, hiff⟩ := ih (totalWork a.mib (a.scan b n st).columns)
            (lt_of_lt_of_le hwork hw) (n + 1) (a.nextState b n st)
            (out ++ (a.scan b n st).validResults) le_rfl hreps hvar hinv'
          refine ⟨fuel + 1, by simp [walkFrom, hiter, hret], ?_⟩
          rw [List.append_assoc] at hiff
          simp only [walkFrom, hiter, WalkRun.varBinds, List.flatMap_append, List.flatMap_cons,
            List.flatMap_nil, List.append_nil, List.mem_cons, forall_eq_or_imp] at hiff ⊢
          exact hiff.trans ⟨fun h => ⟨hserves, h⟩, fun h => h.2⟩

/-- A generator that has returned does nothing more. -/
theorem walkFrom_of_returned {opts : WalkOptions} {nonRepeaters : ℤ} {peers : Peers V} :
    ∀ (fuel k n : ℕ) (st : WalkState),
      (walkFrom opts nonRepeaters peers fuel n st).returned = true →
      walkFrom opts nonRepeaters peers (fuel + k) n st =
        walkFrom opts nonRepeaters peers fuel n st := by
  intro fuel
  induction fuel with
  | zero => intro k n st h; simp [walkFrom] at h
  | succ fuel ih =>
    intro k n st h
    rw [Nat.succ_add, walkFrom, walkFrom]
    rw [walkFrom] at h
    cases hit : iteration opts nonRepeaters peers n st with
    | mk ys next =>
      cases next with
      | none => rfl
      | some st' =>
        simp only [hit] at h ⊢
        rw [ih k (n + 1) st' h]

theorem walkFrom_unique {opts : WalkOptions} {nonRepeaters : ℤ} {peers : Peers V}
    {f g n : ℕ} {st : WalkState} (hf : (walkFrom opts nonRepeaters peers f n st).returned = true)
    (hg : (walkFrom opts nonRepeaters peers g n st).returned = true) :
    walkFrom opts nonRepeaters peers f n st = walkFrom opts nonRepeaters peers g n st := by
  rw [← walkFrom_of_returned f g n st hf, Nat.add_comm, walkFrom_of_returned g f n st hg]

theorem walkInv_init (m : Mib V) (roots : List Oid) :
    WalkInv m roots (roots.map Column.start) [] := by
  refine ⟨?_, ?_, ?_, ?_, by simp⟩
  · rw [List.map_map]
    exact List.map_id _
  · intro c hc
    obtain ⟨r, -, rfl⟩ := List.mem_map.mp hc
    exact List.prefix_rfl
  · intro c hc hdone
    obtain ⟨r, -, rfl⟩ := List.mem_map.mp hc
    exact absurd hdone (by simp [Column.start])
  · intro c hc e _ hre hle
    obtain ⟨r, -, rfl⟩ := List.mem_map.mp hc
    exact absurd (le_antisymm (le_of_isPrefix hre.1) hle) hre.2

/-- The walk of the subtrees of `roots` against a truncating agent. -/
def TruncatingAgent.walk (a : TruncatingAgent V) (b : Bool) (reps : ℕ) (roots : List Oid)
    (fuel : ℕ) : WalkRun V :=
  multiBulkWalkCmd (subtreeOptions b) 0 reps roots a.peers fuel

/-- The walk returns, and it is complete exactly when each of its requests is
served: for some number of iterations. -/
theorem walk_spec (a : TruncatingAgent V) (b : Bool) {reps : ℕ} (hreps : 0 < reps)
    (roots : List Oid) : ∃ fuel, (a.walk b reps roots fuel).returned = true ∧
      (Complete a.mib roots (a.walk b reps roots fuel).varBinds ↔
        ∀ p ∈ (a.walk b reps roots fuel).heads, ServesOpenSubtree a p) := by
  cases roots with
  | nil =>
    -- without varbinds the generator yields once, and returns
    refine ⟨1, rfl, iff_of_true (by simp [Complete]) ?_⟩
    intro p hp
    have hp' : p ∈ [((0 : ℕ), WalkState.init reps [])] := hp
    obtain rfl := List.mem_singleton.mp hp'
    exact Or.inr (by simp [Missing, WalkState.init])
  | cons r roots =>
    exact walkFrom_spec a b _ 0 (.init reps (r :: roots)) [] le_rfl hreps rfl
      (walkInv_init a.mib (r :: roots))

/-- **The walk always returns.** -/
theorem multiBulkWalkCmd_returns (a : TruncatingAgent V) (b : Bool) {reps : ℕ}
    (hreps : 0 < reps) (roots : List Oid) :
    ∃ fuel, (a.walk b reps roots fuel).returned = true :=
  let ⟨fuel, hret, _⟩ := walk_spec a b hreps roots
  ⟨fuel, hret⟩

/-- **When the walk has collected everything**: it returns, and what it has
yielded then contains every instance under its roots exactly when each of its
requests, as long as an instance is missing, is answered at least as far as a
column whose next instance is under its root. -/
theorem multiBulkWalkCmd_complete_iff (a : TruncatingAgent V) (b : Bool) {reps : ℕ}
    (hreps : 0 < reps) (roots : List Oid) :
    (∃ fuel, (a.walk b reps roots fuel).returned = true) ∧
      ∀ fuel, (a.walk b reps roots fuel).returned = true →
        (Complete a.mib roots (a.walk b reps roots fuel).varBinds ↔
          ∀ p ∈ (a.walk b reps roots fuel).heads, ServesOpenSubtree a p) := by
  obtain ⟨fuel, hret, hiff⟩ := walk_spec a b hreps roots
  refine ⟨⟨fuel, hret⟩, fun g hg => ?_⟩
  have heq : a.walk b reps roots g = a.walk b reps roots fuel := walkFrom_unique hg hret
  rw [heq]
  exact hiff

/-! ### An agent the walk misses an instance of -/

/-- A device without anything under the first root and with one instance under
the second, sending one varbind per answer. -/
def oneVarBindAgent : TruncatingAgent ℕ where
  mib :=
    { entries := [([1, 3, 6, 1, 2, 1, 2, 1, 0], 24)]
      sorted := List.pairwise_singleton _ _ }
  cut := fun _ _ => 1
  cut_pos := fun _ _ => Nat.one_pos

/-- The roots `system` and `interfaces` of the standard MIB. -/
def systemAndInterfaces : List Oid := [[1, 3, 6, 1, 2, 1, 1], [1, 3, 6, 1, 2, 1, 2]]

/-- The one varbind of the first answer ends the first column; the walk returns,
and never asks for the instance of the second. -/
theorem multiBulkWalkCmd_incomplete : systemAndInterfaces.Nodup ∧
    ¬ ∃ fuel, (oneVarBindAgent.walk false 10 systemAndInterfaces fuel).returned = true ∧
      Complete oneVarBindAgent.mib systemAndInterfaces
        (oneVarBindAgent.walk false 10 systemAndInterfaces fuel).varBinds := by
  refine ⟨by decide, ?_⟩
  rintro ⟨fuel, hret, hcomp⟩
  have hone : oneVarBindAgent.walk false 10 systemAndInterfaces fuel =
      oneVarBindAgent.walk false 10 systemAndInterfaces 1 := walkFrom_unique hret (by decide)
  have hmem := hcomp [1, 3, 6, 1, 2, 1, 2] (by decide) ([1, 3, 6, 1, 2, 1, 2, 1, 0], 24)
    (by decide) ⟨by decide, by decide⟩
  rw [hone] at hmem
  exact absurd hmem (by decide)

theorem multiBulkWalkCmd_complete_iff_oneVarBindAgent : 0 < 10 ∧
    (∃ fuel, (oneVarBindAgent.walk false 10 systemAndInterfaces fuel).returned = true) ∧
      ∀ fuel, (oneVarBindAgent.walk false 10 systemAndInterfaces fuel).returned = true →
        (Complete oneVarBindAgent.mib systemAndInterfaces
            (oneVarBindAgent.walk false 10 systemAndInterfaces fuel).varBinds ↔
          ∀ p ∈ (oneVarBindAgent.walk false 10 systemAndInterfaces fuel).heads,
            ServesOpenSubtree oneVarBindAgent p) :=
  ⟨by decide, multiBulkWalkCmd_complete_iff oneVarBindAgent false (by decide) systemAndInterfaces⟩

end Sc4snmp
