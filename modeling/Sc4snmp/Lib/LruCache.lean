import Mathlib.Data.Finset.Card
import Mathlib.Data.List.Dedup
import Mathlib.Tactic.Common
import Sc4snmp.Lib.Run

/-!
# Caches that forget what was used least recently

A cache in front of a function keeps the results of the last calls, at most `n` of them.  A call
with a key that it knows takes the result from there, any other one computes it; a computation
that fails leaves nothing behind.

The calls that gave a result determine the keys of the cache: they are the first `n` of the keys
that were used, the last one first and each of them once.

## Main definitions

* `call`, `CallOf`, `step` — one call, and what a run of calls does.
* `recent` — the keys of a history, the last one first.

## Main results

* `keys_final` — **the cache has the keys used last.**
* `mem_take_recent_iff` — a key is among them if fewer than `n` others came after it.
* `provenance`, `computed_of_ok` — **every result was computed by a call of the run with that key.**
* `mem_of_few` — **a result stays while fewer than `n` other keys are used.**
-/

namespace LruCache

variable {κ ν ε : Type*} [DecidableEq κ]

/-! ### The keys of a history -/

/-- The keys of a history, the last call first, each of them once. -/
def recent : List κ → List κ
  | [] => []
  | k :: h => k :: (recent h).filter (· ≠ k)

@[simp] theorem recent_nil : recent ([] : List κ) = [] := rfl

@[simp] theorem recent_cons (k : κ) (h : List κ) :
    recent (k :: h) = k :: (recent h).filter (· ≠ k) := rfl

@[simp] theorem mem_recent {k : κ} {h : List κ} : k ∈ recent h ↔ k ∈ h := by
  induction h with
  | nil => simp
  | cons l h ih =>
    by_cases hkl : k = l
    · simp [hkl]
    · simp [hkl, ih]

theorem nodup_recent (h : List κ) : (recent h).Nodup := by
  induction h with
  | nil => exact List.nodup_nil
  | cons k h ih => exact List.nodup_cons.mpr ⟨by simp, ih.filter _⟩

/-- A key that was used before others stands behind these. -/
theorem recent_append_cons {k : κ} {h₁ h₂ : List κ} (hk : k ∉ h₁) :
    ∃ rest, recent (h₁ ++ k :: h₂) = recent h₁ ++ k :: rest := by
  induction h₁ with
  | nil => exact ⟨_, rfl⟩
  | cons l h₁ ih =>
    rw [List.mem_cons, not_or] at hk
    obtain ⟨rest, hrest⟩ := ih hk.2
    refine ⟨rest.filter (· ≠ l), ?_⟩
    rw [List.cons_append, recent_cons, hrest, List.filter_append, List.filter_cons_of_pos]
    · rfl
    · simpa using hk.1

/-- **A key is among the `n` used last** if fewer than `n` others have been used after it. -/
theorem mem_take_recent_iff {k : κ} {h : List κ} {n : ℕ} :
    k ∈ (recent h).take n ↔
      ∃ h₁ h₂, h = h₁ ++ k :: h₂ ∧ k ∉ h₁ ∧ (recent h₁).length < n := by
  constructor
  · intro hk
    obtain ⟨h₁, h₂, rfl, hk₁⟩ :=
      List.eq_append_cons_of_mem (mem_recent.mp (List.mem_of_mem_take hk))
    refine ⟨h₁, h₂, rfl, hk₁, ?_⟩
    obtain ⟨rest, hrest⟩ : ∃ rest, recent (h₁ ++ k :: h₂) = recent h₁ ++ k :: rest :=
      recent_append_cons hk₁
    rw [hrest] at hk
    by_contra hlen
    rw [List.take_append_of_le_length (by omega)] at hk
    exact hk₁ (mem_recent.mp (List.mem_of_mem_take hk))
  · rintro ⟨h₁, h₂, rfl, hk₁, hlen⟩
    obtain ⟨rest, hrest⟩ : ∃ rest, recent (h₁ ++ k :: h₂) = recent h₁ ++ k :: rest :=
      recent_append_cons hk₁
    rw [hrest, List.mem_take_iff_getElem]
    refine ⟨(recent h₁).length, ?_, ?_⟩
    · rw [List.length_append, List.length_cons]
      omega
    · simp

/-! ### The cache -/

/-- The result that is kept for a key. -/
def find? (k : κ) (entries : List (κ × ν)) : Option ν :=
  (entries.find? (·.1 = k)).map Prod.snd

/-- A call with a key, and what the function would give.  The entry used last comes first. -/
def call (n : ℕ) (k : κ) (computed : Except ε ν) (entries : List (κ × ν)) :
    Except ε ν × List (κ × ν) :=
  match find? k entries with
  | some v => (.ok v, (k, v) :: entries.filter (·.1 ≠ k))
  | none =>
    match computed with
    | .error e => (.error e, entries)
    | .ok v => (.ok v, ((k, v) :: entries).take n)

theorem find?_eq_none {k : κ} {entries : List (κ × ν)} :
    find? k entries = none ↔ k ∉ entries.map Prod.fst := by
  rw [find?, Option.map_eq_none_iff, List.find?_eq_none, List.mem_map]
  constructor
  · rintro h ⟨e, he, rfl⟩
    exact h e he (decide_eq_true rfl)
  · intro h e he hek
    exact h ⟨e, he, of_decide_eq_true hek⟩

theorem mem_of_find? {k : κ} {v : ν} {entries : List (κ × ν)} (h : find? k entries = some v) :
    (k, v) ∈ entries := by
  obtain ⟨e, he, rfl⟩ := Option.map_eq_some_iff.mp h
  have hk : e.1 = k := by simpa using List.find?_some he
  exact hk ▸ List.mem_of_find?_eq_some he

/-- **What a call does.**  It finds the key, it fails, or it computes. -/
theorem call_cases (n : ℕ) (k : κ) (computed : Except ε ν) (entries : List (κ × ν)) :
    (∃ v, (k, v) ∈ entries ∧
      call n k computed entries = (.ok v, (k, v) :: entries.filter (·.1 ≠ k))) ∨
    (k ∉ entries.map Prod.fst ∧ ∃ e, computed = .error e ∧
      call n k computed entries = (.error e, entries)) ∨
    (k ∉ entries.map Prod.fst ∧ ∃ v, computed = .ok v ∧
      call n k computed entries = (.ok v, ((k, v) :: entries).take n)) := by
  cases hfind : find? k entries with
  | some v => exact .inl ⟨v, mem_of_find? hfind, by simp only [call, hfind]⟩
  | none =>
    have hk := find?_eq_none.mp hfind
    cases computed with
    | error e => exact .inr (.inl ⟨hk, e, rfl, by simp only [call, hfind]⟩)
    | ok v => exact .inr (.inr ⟨hk, v, rfl, by simp only [call, hfind]⟩)

/-- What a call keeps and returns was there or has been computed. -/
theorem call_sound (n : ℕ) (k : κ) (computed : Except ε ν) (entries : List (κ × ν)) :
    (∀ e ∈ (call n k computed entries).2, e ∈ entries ∨ e.1 = k ∧ computed = .ok e.2) ∧
    (∀ v, (call n k computed entries).1 = .ok v → (k, v) ∈ entries ∨ computed = .ok v) ∧
    ∀ e, (call n k computed entries).1 = .error e → computed = .error e := by
  rcases call_cases n k computed entries with
    ⟨v, hmem, hcall⟩ | ⟨-, e, hfail, hcall⟩ | ⟨-, v, hok, hcall⟩
  · rw [hcall]
    refine ⟨fun e he => ?_, fun w hw => ?_, fun e he => by cases he⟩
    · rcases List.mem_cons.mp he with rfl | he
      · exact .inl hmem
      · exact .inl (List.mem_of_mem_filter he)
    · cases hw
      exact .inl hmem
  · rw [hcall]
    refine ⟨fun _ he => .inl he, fun w hw => (by cases hw), fun f hf => ?_⟩
    cases hf
    exact hfail
  · rw [hcall]
    refine ⟨fun e he => ?_, fun w hw => ?_, fun e he => by cases he⟩
    · rcases List.mem_cons.mp (List.mem_of_mem_take he) with rfl | he
      · exact .inr ⟨rfl, hok⟩
      · exact .inl he
    · cases hw
      exact .inr hok

/-- A call computes only if the key is not among the entries. -/
def computes (k : κ) (entries : List (κ × ν)) : Bool := (find? k entries).isNone

theorem computes_iff {k : κ} {entries : List (κ × ν)} :
    computes k entries = true ↔ k ∉ entries.map Prod.fst := by
  rw [computes, Option.isNone_iff_eq_none, find?_eq_none]

/-! ### Runs -/

/-- A call of a run. -/
structure CallOf (κ ν ε : Type*) where
  key : κ
  /-- What the function gives at that moment. -/
  computed : Except ε ν

/-- The entries, and the calls so far with their results, the last one first. -/
structure State (κ ν ε : Type*) where
  entries : List (κ × ν)
  log : List (CallOf κ ν ε × Except ε ν)

def step (n : ℕ) (s : State κ ν ε) (c : CallOf κ ν ε) : State κ ν ε where
  entries := (call n c.key c.computed s.entries).2
  log := (c, (call n c.key c.computed s.entries).1) :: s.log

def empty : State κ ν ε := ⟨[], []⟩

/-- The key of a call that gave a result. -/
def usedKey : CallOf κ ν ε × Except ε ν → Option κ
  | (c, .ok _) => some c.key
  | (_, .error _) => none

/-- The keys of the calls that gave a result, the last one first. -/
def State.used (s : State κ ν ε) : List κ := s.log.filterMap usedKey

theorem used_step_ok {n : ℕ} {s : State κ ν ε} {c : CallOf κ ν ε} {v : ν}
    (h : (call n c.key c.computed s.entries).1 = .ok v) :
    (step n s c).used = c.key :: s.used := by
  rw [State.used, step, h]
  rfl

theorem used_step_error {n : ℕ} {s : State κ ν ε} {c : CallOf κ ν ε} {e : ε}
    (h : (call n c.key c.computed s.entries).1 = .error e) : (step n s c).used = s.used := by
  rw [State.used, step, h]
  rfl

theorem filter_take {l : List κ} (hl : l.Nodup) {k : κ} {n : ℕ} (hk : k ∈ l.take n) :
    k :: (l.take n).filter (· ≠ k) = (k :: l.filter (· ≠ k)).take n := by
  cases n with
  | zero => simp at hk
  | succ n =>
    rw [List.take_succ_cons]
    congr 1
    induction l generalizing n with
    | nil => simp at hk
    | cons a l ih =>
      obtain ⟨ha, hl⟩ := List.nodup_cons.mp hl
      rw [List.take_succ_cons] at hk ⊢
      by_cases hak : a = k
      · subst hak
        have hfilter : ∀ m : List κ, a ∉ m → m.filter (· ≠ a) = m := fun m hm =>
          List.filter_eq_self.mpr fun b hb => by simpa using ne_of_mem_of_not_mem hb hm
        rw [List.filter_cons_of_neg (by simp), List.filter_cons_of_neg (by simp), hfilter _ ha,
          hfilter _ fun h => ha (List.mem_of_mem_take h)]
      · have hk : k ∈ l.take n := (List.mem_cons.mp hk).resolve_left (Ne.symm hak)
        rw [List.filter_cons_of_pos (by simpa using hak),
          List.filter_cons_of_pos (by simpa using hak)]
        cases n with
        | zero => simp at hk
        | succ n => rw [List.take_succ_cons, ih hl n hk]

theorem take_filter_of_notMem {l : List κ} {k : κ} {n : ℕ} (hk : k ∉ l.take n) :
    (k :: l.take n).take n = (k :: l.filter (· ≠ k)).take n := by
  cases n with
  | zero => rfl
  | succ n =>
    rw [List.take_succ_cons, List.take_succ_cons]
    congr 1
    induction l generalizing n with
    | nil => rfl
    | cons a l ih =>
      rw [List.take_succ_cons, List.mem_cons, not_or] at hk
      rw [List.filter_cons_of_pos (by simpa using Ne.symm hk.1)]
      cases n with
      | zero => rfl
      | succ n =>
        rw [List.take_succ_cons, List.take_succ_cons, List.take_succ_cons, ih n hk.2]

/-- The invariant of `keys_final`. -/
theorem keys_step {n : ℕ} {s : State κ ν ε}
    (h : s.entries.map Prod.fst = (recent s.used).take n) (c : CallOf κ ν ε) :
    (step n s c).entries.map Prod.fst = (recent (step n s c).used).take n := by
  have hkeys : ∀ k, (s.entries.filter (·.1 ≠ k)).map Prod.fst =
      (s.entries.map Prod.fst).filter (· ≠ k) := fun k => by rw [List.filter_map]; rfl
  rcases call_cases n c.key c.computed s.entries with
    ⟨v, hmem, hcall⟩ | ⟨-, e, -, hcall⟩ | ⟨hk, v, -, hcall⟩
  · have hused : (step n s c).used = c.key :: s.used := used_step_ok (by rw [hcall])
    have hk : c.key ∈ (recent s.used).take n := h ▸ List.mem_map.mpr ⟨_, hmem, rfl⟩
    rw [hused, recent_cons, ← filter_take (nodup_recent s.used) hk, ← h, ← hkeys]
    simp [step, hcall]
  · have hused : (step n s c).used = s.used := used_step_error (by rw [hcall])
    rw [hused, ← h]
    simp [step, hcall]
  · have hused : (step n s c).used = c.key :: s.used := used_step_ok (by rw [hcall])
    rw [hused, recent_cons, ← take_filter_of_notMem (h ▸ hk), ← h]
    simp [step, hcall, List.map_take]

/-- **The cache has the keys used last**, at most `n` of them. -/
theorem keys_final (n : ℕ) (cs : List (CallOf κ ν ε)) :
    (Run.final (step n) (empty : State κ ν ε) cs).entries.map Prod.fst =
      (recent (Run.final (step n) empty cs).used).take n :=
  Run.final_of_steps (I := fun s : State κ ν ε =>
    s.entries.map Prod.fst = (recent s.used).take n) (by simp [empty, State.used])
    fun c _ _ hs => keys_step hs c

/-- Entries and results are those of calls that computed them. -/
structure Provenance (s : State κ ν ε) : Prop where
  entries : ∀ e ∈ s.entries, ∃ c ∈ s.log, c.1.key = e.1 ∧ c.1.computed = .ok e.2
  log : ∀ c v, (c, .ok v) ∈ s.log → ∃ d ∈ s.log, d.1.key = c.key ∧ d.1.computed = .ok v
  failed : ∀ c e, (c, .error e) ∈ s.log → c.computed = .error e

theorem Provenance.step {n : ℕ} {s : State κ ν ε} (h : Provenance s) (c : CallOf κ ν ε) :
    Provenance (step n s c) := by
  obtain ⟨hkept, hok, herror⟩ := call_sound n c.key c.computed s.entries
  have hold : ∀ e ∈ s.entries, ∃ d ∈ (LruCache.step n s c).log,
      d.1.key = e.1 ∧ d.1.computed = .ok e.2 := by
    intro e he
    obtain ⟨d, hd, heq⟩ := h.entries e he
    exact ⟨d, List.mem_cons_of_mem _ hd, heq⟩
  refine ⟨fun e he => ?_, fun d v hd => ?_, fun d e hd => ?_⟩
  · rcases hkept e he with he | ⟨hkey, hcomputed⟩
    · exact hold e he
    · exact ⟨_, List.mem_cons_self, hkey.symm, hcomputed⟩
  · rcases List.mem_cons.mp hd with heq | hd
    · obtain ⟨rfl, heq⟩ := Prod.mk.inj heq
      rcases hok v heq.symm with hmem | hcomputed
      · exact hold _ hmem
      · exact ⟨_, List.mem_cons_self, rfl, hcomputed⟩
    · obtain ⟨d', hd', heq⟩ := h.log d v hd
      exact ⟨d', List.mem_cons_of_mem _ hd', heq⟩
  · rcases List.mem_cons.mp hd with heq | hd
    · obtain ⟨rfl, heq⟩ := Prod.mk.inj heq
      exact herror e heq.symm
    · exact h.failed d e hd

/-- **Every result was computed by a call of the run with that key**, and a call fails only if
its own computation does. -/
theorem provenance (n : ℕ) (cs : List (CallOf κ ν ε)) :
    Provenance (Run.final (step n) (empty : State κ ν ε) cs) :=
  Run.final_of_steps ⟨by simp [empty], by simp [empty], by simp [empty]⟩ fun c _ _ hs => hs.step c

theorem log_final (n : ℕ) (s : State κ ν ε) (cs : List (CallOf κ ν ε)) :
    (Run.final (step n) s cs).log.map Prod.fst = cs.reverse ++ s.log.map Prod.fst := by
  induction cs generalizing s with
  | nil => rfl
  | cons c cs ih => simp [ih, step]

/-- What a call after a run returns has been computed for its key, now or in the run. -/
theorem computed_of_ok {n : ℕ} {cs : List (CallOf κ ν ε)} {c : CallOf κ ν ε} {v : ν}
    (h : (call n c.key c.computed (Run.final (step n) empty cs).entries).1 = .ok v) :
    ∃ d ∈ cs ++ [c], d.key = c.key ∧ d.computed = .ok v := by
  rcases (call_sound n c.key c.computed _).2.1 v h with hmem | hcomputed
  · obtain ⟨d, hd, hkey, hcomputed⟩ := (provenance n cs).entries _ hmem
    have hdcs : d.1 ∈ (Run.final (step n) empty cs).log.map Prod.fst := List.mem_map_of_mem hd
    rw [log_final] at hdcs
    have hdcs : d.1 ∈ cs := by simpa [empty] using hdcs
    exact ⟨d.1, List.mem_append_left _ hdcs, hkey, hcomputed⟩
  · exact ⟨c, by simp, rfl, hcomputed⟩

/-! ### How long a result stays -/

theorem length_recent (h : List κ) : (recent h).length = h.toFinset.card := by
  rw [← List.toFinset_card_of_nodup (nodup_recent h)]
  congr 1
  ext k
  simp

/-- The keys that a run adds to those used before. -/
theorem used_final (n : ℕ) (s : State κ ν ε) (cs : List (CallOf κ ν ε)) :
    ∃ new, (Run.final (step n) s cs).used = new ++ s.used ∧ ∀ k ∈ new, k ∈ cs.map CallOf.key := by
  induction cs generalizing s with
  | nil => exact ⟨[], rfl, by simp⟩
  | cons c cs ih =>
    obtain ⟨new, hnew, hkeys⟩ := ih (step n s c)
    have hkeys' : ∀ k ∈ new, k ∈ (c :: cs).map CallOf.key := fun k hk =>
      List.mem_cons_of_mem _ (hkeys k hk)
    rw [Run.final_cons, hnew]
    cases hcall : (call n c.key c.computed s.entries).1 with
    | ok v =>
      refine ⟨new ++ [c.key], by simp [used_step_ok hcall], fun k hk => ?_⟩
      rcases List.mem_append.mp hk with hk | hk
      · exact hkeys' k hk
      · exact List.mem_singleton.mp hk ▸ List.mem_cons_self
    | error e => exact ⟨new, by rw [used_step_error hcall], hkeys'⟩

theorem nodup_final (n : ℕ) (cs : List (CallOf κ ν ε)) :
    ((Run.final (step n) (empty : State κ ν ε) cs).entries.map Prod.fst).Nodup := by
  rw [keys_final]
  exact (nodup_recent _).sublist (List.take_sublist _ _)

/-- A call with a key that is there takes its value, whatever the function would give. -/
theorem call_of_mem {n : ℕ} {k : κ} {v : ν} {entries : List (κ × ν)}
    (hnodup : (entries.map Prod.fst).Nodup) (hmem : (k, v) ∈ entries) (computed : Except ε ν) :
    computes k entries = false ∧ (call n k computed entries).1 = .ok v := by
  have hk : k ∈ entries.map Prod.fst := List.mem_map.mpr ⟨_, hmem, rfl⟩
  refine ⟨?_, ?_⟩
  · rw [← Bool.not_eq_true, computes_iff, not_not]
    exact hk
  · rcases call_cases n k computed entries with ⟨w, hw, hcall⟩ | ⟨hnot, -⟩ | ⟨hnot, -⟩
    · rw [hcall]
      exact congrArg (Except.ok ·.2) (List.inj_on_of_nodup_map hnodup hw hmem rfl)
    · exact absurd hk hnot
    · exact absurd hk hnot

/-- An entry whose key is still there has its value. -/
theorem mem_step_of_key {n : ℕ} {s : State κ ν ε} {k : κ} {v : ν} {c : CallOf κ ν ε}
    (hnodup : (s.entries.map Prod.fst).Nodup) (hmem : (k, v) ∈ s.entries)
    (hk : k ∈ (step n s c).entries.map Prod.fst) : (k, v) ∈ (step n s c).entries := by
  have hunique : ∀ w, (k, w) ∈ s.entries → w = v := fun w hw =>
    congrArg Prod.snd (List.inj_on_of_nodup_map hnodup hw hmem rfl)
  obtain ⟨e, he, rfl⟩ := List.mem_map.mp hk
  rcases (call_sound n c.key c.computed s.entries).1 e he with hold | ⟨hkey, -⟩
  · rwa [← hunique e.2 hold]
  · -- the call has this key, so it has found the entry
    rcases call_cases n c.key c.computed s.entries with
      ⟨w, hw, hcall⟩ | ⟨hnot, -⟩ | ⟨hnot, -⟩
    · rw [step, hcall, hkey]
      rw [← hkey] at hw
      rw [← hunique w hw]
      exact List.mem_cons_self
    · exact absurd (List.mem_map.mpr ⟨_, hmem, hkey⟩) hnot
    · exact absurd (List.mem_map.mpr ⟨_, hmem, hkey⟩) hnot

/-- **A result stays while fewer than `n` other keys are used.** -/
theorem mem_of_few {n : ℕ} {before after : List (CallOf κ ν ε)} {d : CallOf κ ν ε} {v : ν}
    (hd : (call n d.key d.computed (Run.final (step n) empty before).entries).1 = .ok v)
    (hfew : ((after.map CallOf.key).toFinset.erase d.key).card < n) :
    (d.key, v) ∈ (Run.final (step n) (empty : State κ ν ε) (before ++ d :: after)).entries := by
  induction after using List.reverseRecOn with
  | nil =>
    obtain ⟨n, rfl⟩ := Nat.exists_eq_succ_of_ne_zero (Nat.ne_zero_of_lt hfew)
    rw [Run.final_append, Run.final_cons, Run.final_nil, step]
    rcases call_cases (n + 1) d.key d.computed
      (Run.final (step (n + 1)) (empty : State κ ν ε) before).entries with
      ⟨w, -, hcall⟩ | ⟨-, e, -, hcall⟩ | ⟨-, w, -, hcall⟩
    · rw [hcall] at hd ⊢
      cases hd
      exact List.mem_cons_self
    · rw [hcall] at hd
      cases hd
    · rw [hcall] at hd ⊢
      cases hd
      exact List.mem_cons_self
  | append_singleton after c ih =>
    have hsub : (after.map CallOf.key).toFinset ⊆ ((after ++ [c]).map CallOf.key).toFinset := by
      intro k hk
      simp only [List.mem_toFinset, List.map_append, List.mem_append] at hk ⊢
      exact .inl hk
    have hmem := ih ((Finset.card_le_card (Finset.erase_subset_erase _ hsub)).trans_lt hfew)
    have hsplit : before ++ d :: (after ++ [c]) = (before ++ d :: after) ++ [c] := by simp
    have hkeys := keys_final (ε := ε) n (before ++ d :: (after ++ [c]))
    have hused : d.key ∈ (recent (Run.final (step n) (empty : State κ ν ε)
        (before ++ d :: (after ++ [c]))).used).take n := by
      rw [Run.final_append, Run.final_cons]
      obtain ⟨new, hnew, hnewKeys⟩ :=
        used_final n (step n (Run.final (step n) empty before) d) (after ++ [c])
      have hdused : (step n (Run.final (step n) empty before) d).used =
          d.key :: (Run.final (step n) empty before).used := used_step_ok hd
      rw [hnew, hdused, mem_take_recent_iff]
      by_cases hk : d.key ∈ new
      · obtain ⟨h₁, h₂, hsplit, hk₁⟩ := List.eq_append_cons_of_mem hk
        refine ⟨h₁, h₂ ++ d.key :: (Run.final (step n) empty before).used, by simp [hsplit],
          hk₁, ?_⟩
        rw [length_recent]
        refine (Finset.card_le_card fun k hk => ?_).trans_lt hfew
        rw [List.mem_toFinset] at hk
        exact Finset.mem_erase.mpr ⟨ne_of_mem_of_not_mem hk hk₁,
          List.mem_toFinset.mpr (hnewKeys k (by simp [hsplit, hk]))⟩
      · refine ⟨new, _, rfl, hk, ?_⟩
        rw [length_recent]
        refine (Finset.card_le_card fun k hk' => ?_).trans_lt hfew
        rw [List.mem_toFinset] at hk'
        exact Finset.mem_erase.mpr ⟨ne_of_mem_of_not_mem hk' hk,
          List.mem_toFinset.mpr (hnewKeys k hk')⟩
    rw [← hkeys] at hused
    rw [hsplit, Run.final_append, Run.final_cons, Run.final_nil] at hused ⊢
    exact mem_step_of_key (nodup_final n _) hmem hused

end LruCache
