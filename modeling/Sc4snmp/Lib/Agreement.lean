import Mathlib.Data.List.Forall2

/-!
# Computations that end alike

Two computations over related inputs agree when both raise the same exception, or both
return and their results are related.

## Main definitions

* `EndsAlike R x y` — `x` and `y` raise alike or return results that `R` relates.

## Main results

* `EndsAlike.bind`, `EndsAlike.foldlM` — agreement through a sequence and through a loop.
-/

/-- Both computations return, and their results are related, or both raise the same. -/
inductive EndsAlike {ε α β : Type} (R : α → β → Prop) : Except ε α → Except ε β → Prop
  | returns {a : α} {b : β} : R a b → EndsAlike R (.ok a) (.ok b)
  | raises (err : ε) : EndsAlike R (.error err) (.error err)

namespace EndsAlike

variable {ε α β γ δ σ τ : Type} {R : α → β → Prop}

/-- A computation ends like itself, if its results are related to themselves. -/
theorem same {R : α → α → Prop} (x : Except ε α) (h : ∀ a, x = .ok a → R a a) :
    EndsAlike R x x := by
  cases x with
  | error err => exact raises err
  | ok a => exact returns (h a rfl)

/-- Sequences agree when their parts do. -/
theorem bind {S : γ → δ → Prop} {x : Except ε α} {y : Except ε β} {f : α → Except ε γ}
    {g : β → Except ε δ} (h : EndsAlike R x y) (hfg : ∀ a b, R a b → EndsAlike S (f a) (g b)) :
    EndsAlike S (x >>= f) (y >>= g) := by
  cases h with
  | returns hab => exact hfg _ _ hab
  | raises err => exact raises err

/-- Loops agree when their steps do. -/
theorem foldlM {V : σ → τ → Prop} {f : σ → α → Except ε σ} {g : τ → β → Except ε τ}
    {as : List α} {bs : List β} (hR : List.Forall₂ R as bs)
    (hstep : ∀ s t a b, R a b → V s t → EndsAlike V (f s a) (g t b)) {s : σ} {t : τ}
    (hV : V s t) : EndsAlike V (as.foldlM f s) (bs.foldlM g t) := by
  induction hR generalizing s t with
  | nil => exact returns hV
  | cons hab _ ih =>
    rw [List.foldlM_cons, List.foldlM_cons]
    exact (hstep _ _ _ _ hab hV).bind fun s' t' hV' => ih hV'

end EndsAlike
