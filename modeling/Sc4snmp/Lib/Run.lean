import Mathlib.Tactic.Common

/-!
# Properties along a run

A state machine takes one action after the other.  `Along` says of a property of
the state before an action and the action that it holds at every step of a run.
Two such properties agree along every run as soon as they agree at the states of an
invariant that a step with the property keeps: the invariant may be lost at a step
without it, after which neither has anything left to say.

## Main definitions

* `Run.final`, `Run.Along`.

## Main results

* `along_iff` — the rule above.
* `final_of_steps`, `final_of_step` — what steps keep or bring about holds at the end.
* `final_of_along` — the same for steps with a property.
-/

namespace Run

variable {σ α : Type*} {step : σ → α → σ} {P Q : σ → α → Prop} {I : σ → Prop} {s : σ}

/-- The state a run ends in. -/
def final (step : σ → α → σ) (s : σ) (as : List α) : σ := as.foldl step s

/-- The property holds at every step of the run. -/
def Along (step : σ → α → σ) (P : σ → α → Prop) : σ → List α → Prop
  | _, [] => True
  | s, a :: as => P s a ∧ Along step P (step s a) as

@[simp] theorem final_nil : final step s [] = s := rfl

@[simp] theorem final_cons {a : α} {as : List α} :
    final step s (a :: as) = final step (step s a) as := rfl

@[simp] theorem along_nil : Along step P s [] := trivial

@[simp] theorem along_cons {a : α} {as : List α} :
    Along step P s (a :: as) ↔ P s a ∧ Along step P (step s a) as := Iff.rfl

/-- **Two properties agree along every run** when they agree at the states of an
invariant that steps with the property keep. -/
theorem along_iff (hiff : ∀ s a, I s → (P s a ↔ Q s a))
    (hkeep : ∀ s a, I s → P s a → I (step s a)) (hs : I s) (as : List α) :
    Along step P s as ↔ Along step Q s as := by
  induction as generalizing s with
  | nil => simp
  | cons a as ih =>
    rw [along_cons, along_cons, ← hiff s a hs]
    exact and_congr_right fun hP => ih (hkeep s a hs hP)

/-- **What every step of a run keeps holds at its end.** -/
theorem final_of_steps {as : List α} (hs : I s) (hkeep : ∀ a ∈ as, ∀ s, I s → I (step s a)) :
    I (final step s as) := by
  induction as generalizing s with
  | nil => exact hs
  | cons a as ih =>
    rw [List.forall_mem_cons] at hkeep
    exact ih (hkeep.1 s hs) hkeep.2

/-- What every step with a property keeps holds at the end of a run of such steps. -/
theorem final_of_along {as : List α} (hkeep : ∀ s a, I s → P s a → I (step s a)) (hs : I s)
    (h : Along step P s as) : I (final step s as) := by
  induction as generalizing s with
  | nil => exact hs
  | cons a as ih => exact ih (hkeep s a hs h.1) h.2

theorem final_append {as bs : List α} :
    final step s (as ++ bs) = final step (final step s as) bs := List.foldl_append

theorem along_append {as bs : List α} :
    Along step P s (as ++ bs) ↔ Along step P s as ∧ Along step P (final step s as) bs := by
  induction as generalizing s with
  | nil => simp
  | cons a as ih => simp [ih, and_assoc]

/-- What a step of a run brings about and every step keeps holds at its end. -/
theorem final_of_step {as : List α} {a : α} (ha : a ∈ as) (hnew : ∀ s, I (step s a))
    (hkeep : ∀ a s, I s → I (step s a)) (s : σ) : I (final step s as) := by
  induction as generalizing s with
  | nil => cases ha
  | cons b as ih =>
    rcases List.mem_cons.mp ha with rfl | ha
    · exact final_of_steps (s := step s a) (hnew s) fun b _ => hkeep b
    · exact ih ha (step s b)

end Run
