import Mathlib.Algebra.Order.Ring.Rat
import Mathlib.Order.WithBot
import Sc4snmp.Lib.PyNumber
import Sc4snmp.Lib.PyVal

/-!
# The numbers doubles stand for

A double stands for a rational number, for one of the infinities, or for no number.
Integers and doubles are compared as the numbers they stand for.

## Main definitions

* `ExtendedRat` — the rational numbers between the two infinities.
* `PyFloat.value` — the number of a double.
* `PyFloat.toInt` — `int` of a double.

## Main results

* `truncate_of_value` — `int` of a double that stands for a natural number.
-/

/-- The rational numbers, with a least and a greatest one. -/
abbrev ExtendedRat := WithBot (WithTop ℚ)

namespace PyFloat

/-- A rational number among them. -/
def ofRat (q : ℚ) : ExtendedRat := ((q : WithTop ℚ) : WithBot (WithTop ℚ))

/-- The number `m * 2 ^ e`. -/
def scaled (m : ℕ) (e : ℤ) : ℚ :=
  if 0 ≤ e then (m * 2 ^ e.toNat : ℕ) else mkRat m (2 ^ (-e).toNat)

/-- The number a double stands for. -/
def value (x : Float) : Option ExtendedRat :=
  match x.toModel.unpack with
  | .notANumber => none
  | .infinity .positive => some ⊤
  | .infinity .negative => some ⊥
  | .zero _ => some (ofRat 0)
  | .finite .positive m e _ => some (ofRat (scaled m e))
  | .finite .negative m e _ => some (ofRat (-scaled m e))

example : value (scientific 15 (-1)) = some (ofRat (3 / 2)) ∧ value nan = none := by
  decide +kernel

/-! ### Integers -/

/-- `int` of a double. -/
def toInt (x : Float) : Except PyError ℤ :=
  match truncate x with
  | some n => .ok n
  | none => .error (if value x = none then .valueError else .other)

theorem scaled_pos {m : ℕ} (hm : 0 < m) (e : ℤ) : 0 < scaled m e := by
  unfold scaled
  split
  · exact_mod_cast Nat.mul_pos hm (Nat.pow_pos (by decide))
  · rw [Rat.mkRat_eq_div]
    have hpower : 0 < 2 ^ (-e).toNat := Nat.pow_pos (by decide)
    exact div_pos (by exact_mod_cast hm) (by exact_mod_cast hpower)

/-- A number `m * 2 ^ e` that is a natural number loses nothing when its fraction is dropped. -/
theorem whole_of_scaled {m n : ℕ} {e : ℤ} (h : scaled m e = n) :
    m * 2 ^ e.toNat / 2 ^ (-e).toNat = n := by
  unfold scaled at h
  split at h
  · next he =>
    have hexponent : (-e).toNat = 0 := by omega
    rw [hexponent, pow_zero, Nat.div_one]
    exact_mod_cast h
  · next he =>
    have hexponent : e.toNat = 0 := by omega
    rw [Rat.mkRat_eq_div, div_eq_iff (by positivity)] at h
    have hm : m = n * 2 ^ (-e).toNat := by exact_mod_cast h
    rw [hexponent, pow_zero, mul_one, hm]
    exact Nat.mul_div_cancel _ (Nat.pow_pos (by decide))

/-- `int` of a double that stands for a natural number is that number. -/
theorem truncate_of_value {x : Float} {n : ℕ} (h : value x = some (ofRat n)) :
    truncate x = some (n : ℤ) := by
  have hrat : ∀ q : ℚ, some (ofRat q) = some (ofRat n) → q = n := by
    intro q hq
    exact WithTop.coe_injective (WithBot.coe_injective (Option.some.inj hq))
  unfold value at h
  unfold truncate
  cases hx : x.toModel.unpack with
  | notANumber => rw [hx] at h; cases h
  | infinity sign => rw [hx] at h; cases sign <;> cases h
  | zero sign =>
    rw [hx] at h
    have hzero : (n : ℚ) = 0 := (hrat 0 h).symm
    obtain rfl : n = 0 := by exact_mod_cast hzero
    rfl
  | finite sign m e hm =>
    rw [hx] at h
    cases sign with
    | positive => exact congrArg (fun k : ℕ => some (k : ℤ)) (whole_of_scaled (hrat _ h))
    | negative =>
      -- a negative number is no natural one
      have hneg : -scaled m e = n := hrat _ h
      have hpos := scaled_pos hm e
      have hn : (0 : ℚ) ≤ n := Nat.cast_nonneg n
      rw [← hneg] at hn
      exact absurd hpos (not_lt.mpr (neg_nonneg.mp hn))

theorem toInt_of_value {x : Float} {n : ℕ} (h : value x = some (ofRat n)) :
    toInt x = .ok (n : ℤ) := by
  rw [toInt, truncate_of_value h]

end PyFloat
