import Sc4snmp.Lib.PyFloat

/-!
# Numbers that are not integers

Floating-point and decimal numbers of a dynamically typed language, as what its built-in
functions make of them: a truth value, a text and, unless they are infinite or no number at all,
an integer.

## Main definitions

* `PyNumber` — a number, with a text that is not blank.
* `PyNumber.ofFloat` — a double as one.

## Main results

* `PyFloat.isBlank_repr` — the text of a double is not blank.
-/

/-- A number: `bool`, `int` and `str` of it. -/
structure PyNumber where
  truthy : Bool
  toInt : Option ℤ
  text : String
  isBlank_text : Text.isBlank text = false
  deriving DecidableEq

namespace PyFloat

/-- `int` of a double drops its fraction. -/
def truncate (x : Float) : Option ℤ :=
  match x.toModel.unpack with
  | .notANumber => none
  | .infinity _ => none
  | .zero _ => some 0
  | .finite sign m e _ =>
    let whole : ℕ := m * 2 ^ e.toNat / 2 ^ (-e).toNat
    match sign with
    | .positive => some whole
    | .negative => some (-whole)

/-- Whether a double is a zero. -/
def isZero (x : Float) : Bool :=
  match x.toModel.unpack with
  | .zero _ => true
  | _ => false

/-- Digits are printed with a point or an exponent. -/
theorem exists_mem_layout (ds : List Char) (point : ℤ) :
    ∃ c ∈ layout ds point, c = '.' ∨ c = 'e' := by
  unfold layout
  split
  · exact ⟨'e', by simp, Or.inr rfl⟩
  split
  · exact ⟨'.', by simp, Or.inl rfl⟩
  split
  · exact ⟨'.', by simp, Or.inl rfl⟩
  · exact ⟨'.', by simp, Or.inl rfl⟩

/-- The text of a double is not blank. -/
theorem isBlank_repr (x : Float) : Text.isBlank (String.ofList (repr x)) = false := by
  suffices h : ∃ c ∈ repr x, Text.isSpace c = false by
    obtain ⟨c, hmem, hc⟩ := h
    exact Text.isBlank_of_mem (by rwa [String.toList_ofList]) hc
  unfold repr
  cases x.toModel.unpack with
  | notANumber => exact ⟨'n', by decide, by decide⟩
  | infinity sign => exact ⟨'i', by simp, by decide⟩
  | zero sign => exact ⟨'0', by simp, by decide⟩
  | finite sign m e hm =>
    obtain ⟨c, hmem, hc⟩ := exists_mem_layout (digits m e).1 (digits m e).2
    refine ⟨c, List.mem_append_right _ hmem, ?_⟩
    rcases hc with rfl | rfl <;> decide

end PyFloat

/-- A double. -/
def PyNumber.ofFloat (x : Float) : PyNumber where
  truthy := !PyFloat.isZero x
  toInt := PyFloat.truncate x
  text := String.ofList (PyFloat.repr x)
  isBlank_text := PyFloat.isBlank_repr x

example : (PyNumber.ofFloat (-161.75)).toInt = some (-161) := by decide +kernel
