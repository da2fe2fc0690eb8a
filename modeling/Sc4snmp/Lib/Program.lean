import Mathlib.Logic.Function.Basic
import Mathlib.Tactic.Common

/-!
# Programs that share a state

A program is a tree of atomic operations: it goes on from what its last operation found.
Several programs may share one state, and their operations then come in any order.

What the others do to the state between two operations of a program is only known to lie
in a preorder, and the program has to keep to the same one (*rely* and *guarantee*).

## Main definitions

* `Program`, `Program.run` — the programs, and what one does alone.
* `Program.Performs` — which operations a program performs, whatever they find.
* `Program.operations`, `Program.attempt` — the operations of a run alone, and a run whose
  operations act on more than the state the program sees, and may raise.
* `Program.runFor`, `Program.Always` — what an interrupted run leaves, and what holds
  whenever a run is interrupted.
* `Program.interleave`, `Program.trace` — several programs under a schedule, and the
  operations they perform.
* `Program.Throughout` — what holds at every turn of a schedule.
* `Program.Ensures` — what a program sees to among others that keep to a preorder.

## Main results

* `Performs.preserves` — what every operation preserves is preserved by a run.
* `run_bind` — a program that goes on as another one.
* `attempt_eq` — **operations that do not raise, and change what the program sees as it
  expects, leave it what it does alone**.
* `Always.bind`, `always_forEach` — the rules for a program in two parts and for a loop.
* `Always.resume` — **what a run keeps at every operation survives any interruptions**.
* `harmless_of_throughout` — the rule for operations that are harmless under a condition.
* `ensures_bind` — the rule for a program in two parts.
* `ensures_interleave`, `le_interleave` — **whatever the schedule, a program that has ended has
  seen to what it ensures**, and the state has grown.
-/

/-- A program: it is done, or it performs an operation and goes on from the state the
operation found. -/
inductive Program (ω σ α : Type)
  | done (a : α)
  | step (op : ω) (next : σ → Program ω σ α)

namespace Program

variable {ω σ α β ι : Type}

/-! ### One program -/

/-- One program after another. -/
def bind : Program ω σ α → (α → Program ω σ β) → Program ω σ β
  | done a, f => f a
  | step op next, f => step op fun s => (next s).bind f

instance : Monad (Program ω σ) where
  pure := done
  bind := bind

/-- The program of one operation, with the state it finds. -/
def perform (op : ω) : Program ω σ σ := step op done

@[simp] theorem pure_eq (a : α) : (pure a : Program ω σ α) = done a := rfl

@[simp] theorem done_bind (a : α) (f : α → Program ω σ β) : (done a >>= f) = f a := rfl

@[simp] theorem step_bind (op : ω) (next : σ → Program ω σ α) (f : α → Program ω σ β) :
    (step op next >>= f) = step op fun s => next s >>= f := rfl

section Run

variable (apply : ω → σ → σ)

/-- What a program does alone. -/
def run : Program ω σ α → σ → σ × α
  | done a, s => (s, a)
  | step op next, s => run (next s) (apply op s)

@[simp] theorem run_done (a : α) (s : σ) : run apply (done a) s = (s, a) := rfl

@[simp] theorem run_step (op : ω) (next : σ → Program ω σ α) (s : σ) :
    run apply (step op next) s = run apply (next s) (apply op s) := rfl

@[simp] theorem run_perform (op : ω) (s : σ) : run apply (perform op) s = (apply op s, s) := rfl

/-- The second part of a program starts where the first one ends. -/
@[simp] theorem run_bind (p : Program ω σ α) (f : α → Program ω σ β) (s : σ) :
    run apply (p >>= f) s = run apply (f (run apply p s).2) (run apply p s).1 := by
  induction p generalizing s with
  | done a => rfl
  | step op next ih => exact ih s (apply op s)

end Run

/-! ### The operations of a program -/

/-- Whatever the operations find, they are among some, and the program ends with a value
among some. -/
def Performs (P : ω → Prop) (R : α → Prop) : Program ω σ α → Prop
  | done a => R a
  | step op next => P op ∧ ∀ s, Performs P R (next s)

section Performs

variable {P : ω → Prop} {R : α → Prop}

theorem performs_perform_bind {op : ω} {f : σ → Program ω σ α} :
    Performs P R (perform op >>= f) ↔ P op ∧ ∀ s, Performs P R (f s) := Iff.rfl

theorem Performs.bind {R : β → Prop} (S : α → Prop) {p : Program ω σ α} {f : α → Program ω σ β}
    (h : Performs P S p) (hf : ∀ a, S a → Performs P R (f a)) : Performs P R (p >>= f) := by
  induction p with
  | done a => exact hf a h
  | step op next ih => exact ⟨h.1, fun s => ih s (h.2 s)⟩

theorem Performs.imp {R' : α → Prop} {p : Program ω σ α} (h : Performs P R p)
    (hR : ∀ a, R a → R' a) : Performs P R' p := by
  induction p with
  | done a => exact hR a h
  | step op next ih => exact ⟨h.1, fun s => ih s (h.2 s)⟩

theorem performs_true (p : Program ω σ α) : Performs (fun _ => True) (fun _ => True) p := by
  induction p with
  | done a => trivial
  | step op next ih => exact ⟨trivial, ih⟩

/-- **What every operation preserves is preserved by a run.** -/
theorem Performs.preserves {apply : ω → σ → σ} {I : σ → Prop}
    (hI : ∀ op s, P op → I s → I (apply op s)) {p : Program ω σ α} (h : Performs P R p) {s : σ}
    (hs : I s) : I (run apply p s).1 ∧ R (run apply p s).2 := by
  induction p generalizing s with
  | done a => exact ⟨hs, h⟩
  | step op next ih => exact ih s (h.2 s) (hI op s h.1 hs)

/-- What a run ends with. -/
theorem Performs.returns {apply : ω → σ → σ} {p : Program ω σ α} (h : Performs P R p) (s : σ) :
    R (run apply p s).2 := by
  induction p generalizing s with
  | done a => exact h
  | step op next ih => exact ih s (h.2 s) (apply op s)

end Performs

/-! ### The operations of a run -/

section Attempt

/-- The operations of a run. -/
def operations (apply : ω → σ → σ) : Program ω σ α → σ → List ω
  | done _, _ => []
  | step op next, s => op :: operations apply (next s) (apply op s)

@[simp] theorem operations_bind (apply : ω → σ → σ) (p : Program ω σ α) (f : α → Program ω σ β)
    (s : σ) : operations apply (p >>= f) s =
      operations apply p s ++ operations apply (f (run apply p s).2) (run apply p s).1 := by
  induction p generalizing s with
  | done a => rfl
  | step op next ih => exact congrArg (op :: ·) (ih s (apply op s))

/-- What is performed whatever is found is performed. -/
theorem Performs.mem_operations {apply : ω → σ → σ} {P : ω → Prop} {R : α → Prop}
    {p : Program ω σ α} (h : Performs P R p) (s : σ) : ∀ op ∈ operations apply p s, P op := by
  induction p generalizing s with
  | done a => exact List.forall_mem_nil _
  | step op next ih => exact List.forall_mem_cons.mpr ⟨h.1, ih s (h.2 s) (apply op s)⟩

variable {τ ε : Type}

/-- What a program does that sees a part of a state, when an operation that raises ends it. -/
def attempt (view : τ → σ) (apply : ω → τ → τ × Except ε Unit) :
    Program ω σ (Except ε α) → τ → τ × Except ε α
  | done r, t => (t, r)
  | step op next, t =>
    match apply op t with
    | (t', .ok ()) => attempt view apply (next (view t)) t'
    | (t', .error err) => (t', .error err)

/-- **Operations that do not raise, and change what the program sees as it expects, leave it
what it does alone.** -/
theorem attempt_eq {view : τ → σ} {apply : ω → τ → τ × Except ε Unit} {inner : ω → σ → σ}
    (hok : ∀ op t, (apply op t).2 = .ok ())
    (hview : ∀ op t, view (apply op t).1 = inner op (view t))
    (p : Program ω σ (Except ε α)) (t : τ) :
    attempt view apply p t =
      ((operations inner p (view t)).foldl (fun t op => (apply op t).1) t,
        (run inner p (view t)).2) := by
  induction p generalizing t with
  | done r => rfl
  | step op next ih =>
    have hstep : attempt view apply (step op next) t =
        attempt view apply (next (view t)) (apply op t).1 := by
      have hop := hok op t
      rw [attempt]
      split
      · next heq => rw [heq]
      · next heq =>
        rw [heq] at hop
        cases hop
    rw [hstep, ih, hview]
    rfl

end Attempt

/-! ### Interrupted runs -/

section Interrupted

variable (apply : ω → σ → σ)

/-- What a run leaves that is interrupted after a number of operations. -/
def runFor : ℕ → Program ω σ α → σ → σ
  | 0, _, s => s
  | _ + 1, done _, s => s
  | n + 1, step op next, s => runFor n (next s) (apply op s)

/-- What is left of a state by runs that are interrupted one after the other. -/
def interrupted (p : Program ω σ α) (s : σ) (cuts : List ℕ) : σ :=
  cuts.foldl (fun s n => runFor apply n p s) s

/-- Every state a run comes through has a property, and what it ends with another. -/
def Always (I : σ → Prop) (Q : α → σ → Prop) : Program ω σ α → σ → Prop
  | done a, s => I s ∧ Q a s
  | step op next, s => I s ∧ Always I Q (next s) (apply op s)

/-- A program for each element of a list. -/
def forEach (f : β → Program ω σ Unit) : List β → Program ω σ Unit
  | [] => done ()
  | b :: bs => f b >>= fun _ => forEach f bs

/-- One program after another that may raise. -/
def andThen {ε : Type} (p : Program ω σ (Except ε α)) (f : α → Program ω σ (Except ε β)) :
    Program ω σ (Except ε β) :=
  p >>= fun
    | .error err => done (.error err)
    | .ok a => f a

variable {apply} {I : σ → Prop} {Q Q' : α → σ → Prop}

theorem always_perform_bind {op : ω} {f : σ → Program ω σ α} {s : σ} :
    Always apply I Q (perform op >>= f) s ↔ I s ∧ Always apply I Q (f s) (apply op s) := Iff.rfl

theorem Always.imp {p : Program ω σ α} {s : σ} (h : Always apply I Q p s)
    (hQ : ∀ a s, I s → Q a s → Q' a s) : Always apply I Q' p s := by
  induction p generalizing s with
  | done a => exact ⟨h.1, hQ a s h.1 h.2⟩
  | step op next ih => exact ⟨h.1, ih s h.2⟩

theorem Always.weaken {I' : σ → Prop} {p : Program ω σ α} {s : σ} (h : Always apply I Q p s)
    (hI : ∀ s, I s → I' s) : Always apply I' Q p s := by
  induction p generalizing s with
  | done a => exact ⟨hI s h.1, h.2⟩
  | step op next ih => exact ⟨hI s h.1, ih s h.2⟩

/-- **A program in two parts**: the first leaves what the second needs. -/
theorem Always.bind {Q : β → σ → Prop} {R : α → σ → Prop} {p : Program ω σ α}
    {f : α → Program ω σ β} {s : σ} (h : Always apply I R p s)
    (hf : ∀ a s, I s → R a s → Always apply I Q (f a) s) : Always apply I Q (p >>= f) s := by
  induction p generalizing s with
  | done a => exact hf a s h.1 h.2
  | step op next ih => exact ⟨h.1, ih s h.2⟩

/-- **A loop**: what it has to keep may speak of the elements it has been through. -/
theorem always_forEach {f : β → Program ω σ Unit} {J : List β → σ → Prop} {bs : List β}
    (hI : ∀ before s, before <+: bs → J before s → I s)
    (hf : ∀ before b s, before ++ [b] <+: bs → J before s →
      Always apply I (fun _ => J (before ++ [b])) (f b) s)
    {s : σ} (hs : J [] s) : Always apply I (fun _ => J bs) (forEach f bs) s := by
  suffices h : ∀ before after s, before ++ after = bs → J before s →
      Always apply I (fun _ => J bs) (forEach f after) s from h [] bs s rfl hs
  intro before after
  -- the elements still to come go to the ones the loop has been through
  induction after generalizing before with
  | nil =>
    intro s hbs hJ
    rw [List.append_nil] at hbs
    subst hbs
    exact ⟨hI before s (List.prefix_refl _) hJ, hJ⟩
  | cons b after ih =>
    intro s hbs hJ
    have happend : before ++ [b] ++ after = bs := by
      rw [List.append_assoc, List.singleton_append, hbs]
    refine (hf before b s ⟨after, happend⟩ hJ).bind ?_
    intro _ s' _ hJ'
    exact ih (before ++ [b]) s' happend hJ'

/-- An interrupted run leaves a state it comes through. -/
theorem Always.runFor {p : Program ω σ α} {s : σ} (h : Always apply I Q p s) (n : ℕ) :
    I (runFor apply n p s) := by
  induction p generalizing s n with
  | done a =>
    cases n with
    | zero => exact h.1
    | succ n => exact h.1
  | step op next ih =>
    cases n with
    | zero => exact h.1
    | succ n => exact ih s h.2 n

/-- What a run ends with. -/
theorem Always.run {p : Program ω σ α} {s : σ} (h : Always apply I Q p s) :
    Q (run apply p s).2 (run apply p s).1 := by
  induction p generalizing s with
  | done a => exact h.2
  | step op next ih => exact ih s h.2

/-- **What a run keeps at every operation survives any interruptions**, and the run
after them ends with what a run ends with. -/
theorem Always.resume {p : Program ω σ α} (h : ∀ s, I s → Always apply I Q p s) {s : σ}
    (hs : I s) (cuts : List ℕ) : I (interrupted apply p s cuts) ∧
      Q (Program.run apply p (interrupted apply p s cuts)).2
        (Program.run apply p (interrupted apply p s cuts)).1 := by
  suffices hI : I (interrupted apply p s cuts) from ⟨hI, (h _ hI).run⟩
  induction cuts generalizing s with
  | nil => exact hs
  | cons n cuts ih => exact ih ((h s hs).runFor n)

end Interrupted

/-! ### Several programs -/

section Interleave

variable [DecidableEq ι] (apply : ω → σ → σ)

/-- What is left of the programs, and the state, when they have taken their steps in the
order of a schedule; a program that is done lets its turn pass. -/
def interleave : (ι → Program ω σ α) → σ → List ι → (ι → Program ω σ α) × σ
  | ps, s, [] => (ps, s)
  | ps, s, i :: is =>
    match ps i with
    | done _ => interleave ps s is
    | step op next => interleave (Function.update ps i (next s)) (apply op s) is

/-- The operations they perform, each with the state it finds. -/
def trace : (ι → Program ω σ α) → σ → List ι → List (σ × ω)
  | _, _, [] => []
  | ps, s, i :: is =>
    match ps i with
    | done _ => trace ps s is
    | step op next => (s, op) :: trace (Function.update ps i (next s)) (apply op s) is

/-- A condition on the programs, the state and whose turn it is holds at every turn. -/
def Throughout (C : (ι → Program ω σ α) → σ → ι → Prop) :
    (ι → Program ω σ α) → σ → List ι → Prop
  | _, _, [] => True
  | ps, s, i :: is => C ps s i ∧
    match ps i with
    | done _ => Throughout C ps s is
    | step op next => Throughout C (Function.update ps i (next s)) (apply op s) is

/-- **The rule for conditions**: an invariant that every turn under the condition keeps makes
the operations harmless that it makes harmless. -/
theorem harmless_of_throughout {C : (ι → Program ω σ α) → σ → ι → Prop}
    (harmless : σ → ω → Prop) {J : (ι → Program ω σ α) → σ → Prop}
    (hJ : ∀ ps s i op next, J ps s → C ps s i → ps i = step op next →
      harmless s op ∧ J (Function.update ps i (next s)) (apply op s))
    {ps : ι → Program ω σ α} {s : σ} (hs : J ps s) (schedule : List ι)
    (hC : Throughout apply C ps s schedule) :
    ∀ e ∈ trace apply ps s schedule, harmless e.1 e.2 := by
  induction schedule generalizing ps s with
  | nil => exact List.forall_mem_nil _
  | cons i schedule ih =>
    unfold trace
    unfold Throughout at hC
    cases hpi : ps i with
    | done a =>
      rw [hpi] at hC
      exact ih hs hC.2
    | step op next =>
      rw [hpi] at hC
      obtain ⟨hop, hs'⟩ := hJ ps s i op next hs hC.1 hpi
      exact List.forall_mem_cons.mpr ⟨hop, ih hs' hC.2⟩

end Interleave

/-! ### Rely and guarantee -/

section Ensures

variable (apply : ω → σ → σ) (harmless : σ → ω → Prop) (le : σ → σ → Prop)

/-- Among others that keep to a preorder, the program keeps to it as long as its operations
are harmless, and what it ends with has the property. -/
def Ensures (Q : α → σ → Prop) : Program ω σ α → σ → Prop
  | done a, s => ∀ s', le s s' → Q a s'
  | step op next, s => ∀ s', le s s' → harmless s' op →
    le s' (apply op s') ∧ Ensures Q (next s') (apply op s')

variable {apply harmless le} {Q Q' : α → σ → Prop}

/-- An operation, and what comes after it. -/
theorem ensures_perform_bind {op : ω} {f : σ → Program ω σ α} {s : σ} :
    Ensures apply harmless le Q (perform op >>= f) s ↔ ∀ s', le s s' → harmless s' op →
      le s' (apply op s') ∧ Ensures apply harmless le Q (f s') (apply op s') := Iff.rfl

/-- What a program ensures it still ensures after others have taken steps. -/
theorem Ensures.mono {p : Program ω σ α} {s s' : σ} (h : Ensures apply harmless le Q p s)
    (hs : le s s') (htrans : ∀ {a b c : σ}, le a b → le b c → le a c) :
    Ensures apply harmless le Q p s' := by
  cases p with
  | done a => exact fun s'' hs' => h s'' (htrans hs hs')
  | step op next => exact fun s'' hs' => h s'' (htrans hs hs')

theorem Ensures.imp (hQ : ∀ a s, Q a s → Q' a s) {p : Program ω σ α} {s : σ}
    (h : Ensures apply harmless le Q p s) : Ensures apply harmless le Q' p s := by
  induction p generalizing s with
  | done a => exact fun s' hs => hQ a s' (h s' hs)
  | step op next ih => exact fun s' hs hop => ⟨(h s' hs hop).1, ih s' (h s' hs hop).2⟩

/-- What a program ends with has grown from where it started. -/
theorem Ensures.grown {p : Program ω σ α} {s s₀ : σ} (h : Ensures apply harmless le Q p s)
    (hs : le s₀ s) (htrans : ∀ {a b c : σ}, le a b → le b c → le a c) :
    Ensures apply harmless le (fun a s' => Q a s' ∧ le s₀ s') p s := by
  induction p generalizing s with
  | done a => exact fun s' hs' => ⟨h s' hs', htrans hs hs'⟩
  | step op next ih =>
    intro s' hs' hop
    obtain ⟨hle, hnext⟩ := h s' hs' hop
    exact ⟨hle, ih s' hnext (htrans (htrans hs hs') hle)⟩

/-- Operations that all keep to the preorder. -/
theorem ensures_true (hkeeps : ∀ op s, harmless s op → le s (apply op s)) (p : Program ω σ α)
    (s : σ) : Ensures apply harmless le (fun _ _ => True) p s := by
  induction p generalizing s with
  | done a => exact fun _ _ => trivial
  | step op next ih => exact fun s' _ hop => ⟨hkeeps op s' hop, ih s' (apply op s')⟩

/-- **A program in two parts**: the first sees to what the second needs. -/
theorem ensures_bind (hrefl : ∀ s : σ, le s s) {Q : β → σ → Prop} {p : Program ω σ α}
    {f : α → Program ω σ β} {s : σ}
    (h : Ensures apply harmless le (fun a s => Ensures apply harmless le Q (f a) s) p s) :
    Ensures apply harmless le Q (p >>= f) s := by
  induction p generalizing s with
  | done a => exact h s (hrefl s)
  | step op next ih => exact fun s' hs hop => ⟨(h s' hs hop).1, ih s' (h s' hs hop).2⟩

/-- A program that does not raise, and what comes after it. -/
theorem ensures_andThen (hrefl : ∀ s : σ, le s s) {ε : Type} {Q : Except ε β → σ → Prop}
    {p : Program ω σ (Except ε α)} {f : α → Program ω σ (Except ε β)} {s : σ}
    (h : Ensures apply harmless le
      (fun r s => ∃ a, r = .ok a ∧ Ensures apply harmless le Q (f a) s) p s) :
    Ensures apply harmless le Q (p.andThen f) s := by
  refine ensures_bind hrefl (h.imp ?_)
  rintro _ s ⟨a, rfl, hf⟩
  exact hf

/-- A turn of one of several programs: for the others it is a harmless step of the environment. -/
theorem ensures_turn [DecidableEq ι] (hrefl : ∀ s : σ, le s s)
    (htrans : ∀ {a b c : σ}, le a b → le b c → le a c) {Q : ι → α → σ → Prop}
    {ps : ι → Program ω σ α} {s : σ} (hps : ∀ i, Ensures apply harmless le (Q i) (ps i) s)
    {j : ι} {op : ω} {next : σ → Program ω σ α} (hpj : ps j = step op next)
    (hop : harmless s op) : le s (apply op s) ∧
      ∀ i, Ensures apply harmless le (Q i) (Function.update ps j (next s) i) (apply op s) := by
  have hj := hps j
  rw [hpj] at hj
  obtain ⟨hle, hnext⟩ := hj s (hrefl s) hop
  refine ⟨hle, fun k => ?_⟩
  by_cases hk : k = j
  · subst hk
    rw [Function.update_self]
    exact hnext
  · rw [Function.update_of_ne hk]
    exact (hps k).mono hle htrans

/-- **Whatever the schedule, a program that has ended has seen to what it ensures**, if the
operations performed are harmless. -/
theorem ensures_interleave [DecidableEq ι] (hrefl : ∀ s : σ, le s s)
    (htrans : ∀ {a b c : σ}, le a b → le b c → le a c) {Q : ι → α → σ → Prop}
    {ps : ι → Program ω σ α} {s : σ} (schedule : List ι)
    (hps : ∀ i, Ensures apply harmless le (Q i) (ps i) s)
    (hharmless : ∀ e ∈ trace apply ps s schedule, harmless e.1 e.2) (i : ι) :
    Ensures apply harmless le (Q i) ((interleave apply ps s schedule).1 i)
      (interleave apply ps s schedule).2 := by
  induction schedule generalizing ps s with
  | nil => exact hps i
  | cons j schedule ih =>
    unfold interleave
    unfold trace at hharmless
    cases hpj : ps j with
    -- a turn of a program that is done changes nothing
    | done a =>
      rw [hpj] at hharmless
      exact ih hps hharmless
    | step op next =>
      rw [hpj] at hharmless
      rw [List.forall_mem_cons] at hharmless
      exact ih (ensures_turn hrefl htrans hps hpj hharmless.1).2 hharmless.2

/-- **Whatever the schedule, the state has grown**, also while programs have not ended. -/
theorem le_interleave [DecidableEq ι] (hrefl : ∀ s : σ, le s s)
    (htrans : ∀ {a b c : σ}, le a b → le b c → le a c) {Q : ι → α → σ → Prop}
    {ps : ι → Program ω σ α} {s : σ} (schedule : List ι)
    (hps : ∀ i, Ensures apply harmless le (Q i) (ps i) s)
    (hharmless : ∀ e ∈ trace apply ps s schedule, harmless e.1 e.2) :
    le s (interleave apply ps s schedule).2 := by
  induction schedule generalizing ps s with
  | nil => exact hrefl s
  | cons j schedule ih =>
    unfold interleave
    unfold trace at hharmless
    cases hpj : ps j with
    | done a =>
      rw [hpj] at hharmless
      exact ih hps hharmless
    | step op next =>
      rw [hpj] at hharmless
      rw [List.forall_mem_cons] at hharmless
      obtain ⟨hle, hps'⟩ := ensures_turn hrefl htrans hps hpj hharmless.1
      exact htrans hle (ih hps' hharmless.2)

end Ensures

end Program
