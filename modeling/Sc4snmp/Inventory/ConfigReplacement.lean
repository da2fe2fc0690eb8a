import Sc4snmp.Inventory.SetupPoller
import Sc4snmp.Lib.Run

/-!
# Reading a collection while it is replaced

`update_collection` deletes the documents of a collection and inserts the new ones,
each write on its own, and `return_collection` reads the collection up to three times
until it finds something.  The reader meets the collection as it was, empty, or as it
is going to be; it takes an empty one for the answer when its three finds all fall
between the two writes.  A task that sets up polls with it deletes the polls of every
host.

## Main definitions

* `Turn`, `Replacement.step` — the writer and the reader taking turns.
* `writesBefore` — how far the writer is at each turn of the reader.
* `ReadsWhole` — the reader gets the old collection or the new one, and the task that
  reads keeps the polls of unchanged hosts.

## Main results

* `reads_final` — what the finds of a run return.
* `readsWhole_iff` — **a run reads a whole collection exactly when the three finds do not
  all meet the empty one**.
-/

namespace Sc4snmp

/-! ### Turns -/

/-- Whose turn it is. -/
inductive Turn
  | writer
  | reader
  deriving DecidableEq, Repr

/-- The update of a collection under way, and what the finds of a reader have returned. -/
structure Replacement (ν : Type) where
  database : Database ν
  pending : List (DatabaseOp ν)
  finds : List (List (String × ν))

section Turns

variable {ν : Type}

/-- The loop of `return_collection` is over: a find returned something, or three did not. -/
def readDone (finds : List (List (String × ν))) : Bool :=
  decide (3 ≤ finds.length) || finds.any fun documents => !documents.isEmpty

namespace Replacement

/-- An update begins. -/
def begin (documents : List (String × ν)) (elements : Dict String ν) : Replacement ν :=
  ⟨{ documents }, updateCollectionOps elements, []⟩

/-- One turn: the next operation of the writer, or the next find of the reader. -/
def step (st : Replacement ν) : Turn → Replacement ν
  | .writer =>
    match st.pending with
    | [] => st
    | op :: ops => { st with database := st.database.perform op, pending := ops }
  | .reader =>
    if readDone st.finds then st else { st with finds := st.finds ++ [st.database.documents] }

theorem finds_writer (st : Replacement ν) : (st.step .writer).finds = st.finds := by
  simp only [step]
  split <;> rfl

/-- What `return_collection` has returned. -/
def result (st : Replacement ν) : Option (Dict String ν) :=
  if readDone st.finds then some (returnCollection st.finds) else none

end Replacement

/-- The number of turns the writer has had before each turn of the reader. -/
def writesBefore : List Turn → List ℕ
  | [] => []
  | .writer :: turns => (writesBefore turns).map (· + 1)
  | .reader :: turns => 0 :: writesBefore turns

/-- The finds the reader makes of those it could make: no more than allowed, and none
after one that returned something. -/
def takeFinds : ℕ → List (List (String × ν)) → List (List (String × ν))
  | 0, _ => []
  | _, [] => []
  | n + 1, documents :: finds =>
    documents :: if documents.isEmpty then takeFinds n finds else []

/-- The documents after the first operations of the writer. -/
def documentsAt (db : Database ν) (ops : List (DatabaseOp ν)) (n : ℕ) : List (String × ν) :=
  documentsAfter db (ops.take n)

theorem final_finds_of_done {st : Replacement ν} (h : readDone st.finds = true)
    (turns : List Turn) : (Run.final Replacement.step st turns).finds = st.finds := by
  induction turns generalizing st with
  | nil => rfl
  | cons turn turns ih =>
    have hstep : (st.step turn).finds = st.finds := by
      cases turn with
      | writer => exact st.finds_writer
      | reader => simp [Replacement.step, h]
    rw [Run.final_cons, ih (by rwa [hstep]), hstep]

/-- What the finds of a run return: the documents at the turns of the reader, until it
is done. -/
theorem reads_final (st : Replacement ν) (turns : List Turn)
    (hempty : ∀ documents ∈ st.finds, documents = []) :
    (Run.final Replacement.step st turns).finds = st.finds ++
      takeFinds (3 - st.finds.length)
        ((writesBefore turns).map (documentsAt st.database st.pending)) := by
  induction turns generalizing st with
  | nil => cases 3 - st.finds.length <;> simp [writesBefore, takeFinds]
  | cons turn turns ih =>
    rw [Run.final_cons]
    cases turn with
    | writer =>
      -- the writer moves: the documents of later finds are the same, counted from here
      have hdocuments : ∀ n, documentsAt (st.step .writer).database (st.step .writer).pending n =
          documentsAt st.database st.pending (n + 1) := by
        intro n
        unfold Replacement.step
        cases hpending : st.pending with
        | nil => simp [hpending, documentsAt]
        | cons op ops => rfl
      have hfinds := st.finds_writer
      rw [ih _ (by rwa [hfinds]), hfinds, writesBefore, List.map_map]
      congr 2
      exact List.map_congr_left fun n _ => hdocuments n
    | reader =>
      by_cases hdone : readDone st.finds = true
      · have hlength : 3 ≤ st.finds.length := by
          unfold readDone at hdone
          rw [Bool.or_eq_true, decide_eq_true_eq, List.any_eq_true] at hdone
          refine hdone.resolve_right ?_
          rintro ⟨documents, hmem, hne⟩
          rw [hempty documents hmem] at hne
          cases hne
        have hsame : st.step .reader = st := if_pos hdone
        rw [hsame, final_finds_of_done hdone, Nat.sub_eq_zero_of_le hlength, takeFinds,
          List.append_nil]
      · have hlength : st.finds.length < 3 := by
          by_contra hge
          exact hdone (by simp [readDone, Nat.le_of_not_lt hge])
        obtain ⟨n, hn⟩ : ∃ n, 3 - st.finds.length = n + 1 := ⟨2 - st.finds.length, by omega⟩
        have hfinds : (st.step .reader) =
            { st with finds := st.finds ++ [st.database.documents] } := if_neg hdone
        have hnow : documentsAt st.database st.pending 0 = st.database.documents := by
          simp [documentsAt, documentsAfter]
        rw [hfinds, writesBefore, List.map_cons, hnow, hn, takeFinds]
        cases hdocuments : st.database.documents with
        | nil =>
          have hrest : 3 - (st.finds ++ [([] : List (String × ν))]).length = n := by
            rw [List.length_append, List.length_singleton]
            omega
          rw [ih _ (by simpa [or_imp, forall_and] using hempty), hrest, List.append_assoc]
          rfl
        | cons document documents =>
          rw [final_finds_of_done (by simp [readDone])]
          simp

/-- A reader that finds nothing uses its finds up. -/
theorem takeFinds_eq_take {n : ℕ} {finds : List (List (String × ν))}
    (h : (∀ documents ∈ takeFinds n finds, documents = []) ∨
      ∀ documents ∈ finds.take n, documents = []) :
    takeFinds n finds = finds.take n := by
  induction n generalizing finds with
  | zero => rfl
  | succ n ih =>
    cases finds with
    | nil => rfl
    | cons documents finds =>
      rw [takeFinds, List.take_succ_cons]
      have hnil : documents = [] := by
        rcases h with h | h
        · exact h documents (by simp [takeFinds])
        · exact h documents (by simp)
      subst hnil
      rw [List.isEmpty_nil, if_pos rfl, ih]
      rcases h with h | h
      · exact Or.inl fun documents hmem => h documents (by simp [takeFinds, hmem])
      · exact Or.inr fun documents hmem => h documents (by simp [hmem])

theorem mem_of_mem_takeFinds {n : ℕ} {finds : List (List (String × ν))}
    {documents : List (String × ν)} (h : documents ∈ takeFinds n finds) : documents ∈ finds := by
  induction n generalizing finds with
  | zero => cases h
  | succ n ih =>
    cases finds with
    | nil => cases h
    | cons first finds =>
      rw [takeFinds] at h
      rcases List.mem_cons.mp h with rfl | h
      · exact List.mem_cons_self
      · split at h
        · exact List.mem_cons_of_mem _ (ih h)
        · cases h

/-! ### The documents on the way -/

/-- The documents while a collection is replaced: the old ones, none, and the new ones. -/
theorem documentsAt_cases (documents : List (String × ν)) (elements : Dict String ν) (n : ℕ) :
    documentsAt { documents } (updateCollectionOps elements) n = documents ∨
      documentsAt { documents } (updateCollectionOps elements) n = [] ∨
      documentsAt { documents } (updateCollectionOps elements) n = elements.entries := by
  unfold updateCollectionOps
  split
  · rcases n with _ | n
    · exact Or.inl rfl
    · exact Or.inr (Or.inl (by simp [documentsAt, documentsAfter, Database.perform,
        CollectionWrite.apply]))
  · rcases n with _ | _ | _ | _ | n
    · exact Or.inl rfl
    · exact Or.inl rfl
    · exact Or.inr (Or.inl rfl)
    · exact Or.inr (Or.inr rfl)
    · exact Or.inr (Or.inr (by simp [documentsAt, documentsAfter, Database.perform,
        CollectionWrite.apply]))

/-- Between two collections that are not empty, none is only there after the delete. -/
theorem documentsAt_eq_nil_iff {documents : List (String × ν)} {elements : Dict String ν}
    (hold : documents ≠ []) (hnew : elements.entries ≠ []) (n : ℕ) :
    documentsAt { documents } (updateCollectionOps elements) n = [] ↔ n = 2 := by
  have hops : elements.entries.isEmpty = false := by
    rw [← Bool.not_eq_true, List.isEmpty_iff]
    exact hnew
  simp only [updateCollectionOps, hops]
  rcases n with _ | _ | _ | _ | n <;>
    simp [documentsAt, documentsAfter, Database.perform, CollectionWrite.apply, hold, hnew]

/-- All three finds of the reader come after the delete and before the insert. -/
def Starved (turns : List Turn) : Prop := (writesBefore turns).take 3 = [2, 2, 2]

/-- The reader of a run comes back with nothing though neither collection is empty exactly
when it is starved. -/
theorem finds_empty_iff {documents : List (String × ν)} {elements : Dict String ν}
    (hold : documents ≠ []) (hnew : elements.entries ≠ []) (turns : List Turn) :
    (readDone (Run.final Replacement.step (.begin documents elements) turns).finds = true ∧
      ∀ found ∈ (Run.final Replacement.step (.begin documents elements) turns).finds, found = []) ↔
      Starved turns := by
  have hfinds := reads_final (.begin documents elements) turns
    (fun found hmem => absurd hmem List.not_mem_nil)
  have hnil := documentsAt_eq_nil_iff hold hnew
  simp only [Replacement.begin, List.nil_append, List.length_nil, Nat.sub_zero] at hfinds ⊢
  rw [hfinds, Starved]
  constructor
  · rintro ⟨hdone, hempty⟩
    have htake := takeFinds_eq_take (Or.inl hempty)
    rw [htake] at hdone hempty
    -- three finds, since none of them has found anything
    have hlength : ((writesBefore turns).take 3).length = 3 := by
      unfold readDone at hdone
      rw [Bool.or_eq_true, decide_eq_true_eq, List.any_eq_true] at hdone
      rcases hdone with hlength | ⟨found, hmem, hne⟩
      · rw [← List.map_take, List.length_map] at hlength
        have hle := List.length_take_le 3 (writesBefore turns)
        omega
      · rw [hempty found hmem] at hne
        cases hne
    have htwo : ∀ n ∈ (writesBefore turns).take 3, n = 2 := by
      intro n hn
      rw [← List.map_take] at hempty
      exact (hnil n).mp (hempty _ (List.mem_map_of_mem hn))
    exact List.eq_replicate_iff.mpr ⟨hlength, htwo⟩
  · intro hstarved
    have htake : ((writesBefore turns).map
        (documentsAt { documents } (updateCollectionOps elements))).take 3 = [[], [], []] := by
      rw [← List.map_take, hstarved]
      simp [(hnil 2).mpr rfl]
    rw [takeFinds_eq_take (Or.inr (by simp [htake])), htake]
    exact ⟨rfl, by simp⟩

end Turns

/-! ### Whole collections -/

/-- The profiles of a host are assigned in the same way from both collections. -/
def UnchangedHost (env : PollerEnv) (host : PollerHost) (address : String)
    (old new : Dict String ProfileBody) (assigned : AssignedProfiles) : Prop :=
  ∀ documents, (setupProfiles env host address old documents).2 = .ok assigned ∧
    (setupProfiles env host address new documents).2 = .ok assigned

/-- What a reader owes while a collection of profiles is replaced: it returns the old
collection or the new one, and the task that reads it keeps the polls of the hosts that
are the same in both. -/
structure ReadsWhole (documents : List (String × ProfileBody)) (elements : Dict String ProfileBody)
    (turns : List Turn) : Prop where
  whole : ∀ profiles,
    (Run.final Replacement.step (.begin documents elements) turns).result = some profiles →
      profiles = returnCollectionOnce documents ∨ profiles = elements
  pollsKept : ∀ profiles,
    (Run.final Replacement.step (.begin documents elements) turns).result = some profiles →
      ∀ env host work assigned, UnchangedHost env host work.address
          (returnCollectionOnce documents) elements assigned →
        ∀ (s s' : ScheduleStore) (written : List (String × ProfileBody)), s.Readable →
          (inventorySetupPoller env host work profiles written s).2 = .ok s' →
            ∀ period ∈ assigned.keys, (s.lookup? (pollKey work.address period)).isSome →
              (s'.lookup? (pollKey work.address period)).isSome

/-- A task that reads a whole collection schedules the polls of an unchanged host again. -/
theorem pollsKept_of_whole {env : PollerEnv} {host : PollerHost} {work : PollWork}
    {old new profiles : Dict String ProfileBody} {assigned : AssignedProfiles}
    (hprofiles : profiles = old ∨ profiles = new)
    (hunchanged : UnchangedHost env host work.address old new assigned) {s s' : ScheduleStore}
    {written : List (String × ProfileBody)} (hs : s.Readable)
    (hrun : (inventorySetupPoller env host work profiles written s).2 = .ok s') {period : ℤ}
    (hperiod : period ∈ assigned.keys) : (s'.lookup? (pollKey work.address period)).isSome := by
  have hassigned : (setupProfiles env host work.address profiles written).2 = .ok assigned := by
    rcases hprofiles with rfl | rfl
    · exact (hunchanged written).1
    · exact (hunchanged written).2
  unfold inventorySetupPoller at hrun
  split at hrun
  · next heq =>
    rw [heq] at hassigned
    cases hassigned
  · next heq =>
    rw [heq] at hassigned
    cases hassigned
    obtain ⟨s₁, hreconcile, hafter⟩ := reconcilePolls_spec work assigned hs
    cases hreconcile.symm.trans hrun
    obtain ⟨ps, hps⟩ := Dict.mem_keys_iff.mp hperiod
    rw [hafter.scheduled period ps hps]
    rfl

/-- **A run reads a whole collection exactly when its three finds do not all meet the empty
one** between two that are not. -/
theorem readsWhole_iff (documents : List (String × ProfileBody))
    (elements : Dict String ProfileBody) (turns : List Turn) :
    ReadsWhole documents elements turns ↔
      documents = [] ∨ elements.entries = [] ∨ ¬ Starved turns := by
  have hfinds := reads_final (.begin documents elements) turns
    (fun found hmem => absurd hmem List.not_mem_nil)
  constructor
  · intro h
    by_contra hneither
    rw [not_or, not_or, not_not] at hneither
    obtain ⟨hold, hnew, hstarved⟩ := hneither
    -- the three finds come between the two writes, and the reader gives up
    obtain ⟨hdone, hempty⟩ := (finds_empty_iff hold hnew turns).mpr hstarved
    have hresult : (Run.final Replacement.step (.begin documents elements) turns).result =
        some Dict.empty := by
      rw [Replacement.result, if_pos hdone]
      rcases returnCollection_cases
        (Run.final Replacement.step (.begin documents elements) turns).finds with
        ⟨-, hnone⟩ | ⟨found, hmem, hne, -⟩
      · rw [hnone]
      · exact absurd (hempty found hmem) hne
    rcases h.whole _ hresult with hold' | hnew'
    · have hisEmpty := isEmpty_returnCollectionOnce documents
      rw [← hold', eq_comm] at hisEmpty
      exact hold (List.isEmpty_iff.mp hisEmpty)
    · exact hnew (by rw [← hnew']; rfl)
  · intro h
    have hwhole : ∀ profiles,
        (Run.final Replacement.step (.begin documents elements) turns).result = some profiles →
          profiles = returnCollectionOnce documents ∨ profiles = elements := by
      intro profiles hresult
      rw [Replacement.result] at hresult
      split at hresult
      · next hdone =>
        cases hresult
        rcases returnCollection_cases
          (Run.final Replacement.step (.begin documents elements) turns).finds with
          ⟨hempty, hnone⟩ | ⟨found, hmem, hne, hread⟩
        · rw [hnone]
          by_cases hold : documents = []
          · exact Or.inl (by rw [hold]; rfl)
          by_cases hnew : elements.entries = []
          · exact Or.inr (Dict.eq_of_entries hnew).symm
          exact absurd ((finds_empty_iff hold hnew turns).mp ⟨hdone, hempty⟩)
            ((h.resolve_left hold).resolve_left hnew)
        · rw [hfinds] at hmem
          obtain ⟨n, -, hn⟩ := List.mem_map.mp (mem_of_mem_takeFinds hmem)
          rw [hread]
          -- what a find has seen is the old collection, none, or the new one
          rcases documentsAt_cases documents elements n with hat | hat | hat
          · exact Or.inl (by rw [← hn]; exact congrArg returnCollectionOnce hat)
          · exact absurd (hn.symm.trans hat) hne
          · refine Or.inr ?_
            rw [← hn]
            exact (congrArg returnCollectionOnce hat).trans (Dict.ofList_entries elements)
      · cases hresult
    exact ⟨hwhole, fun profiles hresult env host work assigned hunchanged s s' written hs hrun
      period hperiod _ => pollsKept_of_whole (hwhole profiles hresult) hunchanged hs hrun hperiod⟩

/-- An update between whose writes the reader makes its three finds. -/
theorem readsWhole_fails :
    ¬ ∀ (documents : List (String × ProfileBody)) (elements : Dict String ProfileBody)
      (turns : List Turn), ReadsWhole documents elements turns := by
  intro hclaim
  have h := hclaim [("BaseUpTime", { frequency := some 60 })]
    (Dict.ofList [("BaseUpTime", { frequency := some 60 })])
    [.writer, .writer, .reader, .reader, .reader, .writer, .writer]
  rcases h.whole Dict.empty (by decide) with hold | hnew
  · exact absurd hold (by decide)
  · exact absurd hnew (by decide)

end Sc4snmp
