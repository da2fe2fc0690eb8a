import Sc4snmp.Lib.Text

/-!
# Dynamically typed scalars

The scalar values of a dynamically typed language, with the conversions its
built-in functions make between them and the exceptions they raise.

## Main definitions

* `PyVal`, `PyError` — values and exceptions.
* `PyVal.truthy`, `PyVal.format`, `PyVal.toInt` — truth value, formatting, `int`.
-/

/-- A scalar value. -/
inductive PyVal
  | none
  | bool (b : Bool)
  | int (i : ℤ)
  | str (s : String)
  deriving DecidableEq, Repr, Inhabited

/-- The built-in exceptions, and all others. -/
inductive PyError
  | attributeError
  | indexError
  | keyError
  | typeError
  | valueError
  | other
  deriving DecidableEq, Repr

/-- A computation in two parts succeeds when both parts do. -/
theorem PyError.bind_eq_ok {ε α β : Type} {x : Except ε α} {f : α → Except ε β} {b : β} :
    (x >>= f) = .ok b ↔ ∃ a, x = .ok a ∧ f a = .ok b := by
  cases x <;> simp [bind, Except.bind]

/-- A computation over a list succeeds at every element, with their results. -/
theorem PyError.mapM_eq_ok {ε α β : Type} {f : α → Except ε β} {l : List α} {bs : List β}
    (h : l.mapM f = .ok bs) :
    (∀ a ∈ l, ∃ b, f a = .ok b) ∧ ∀ b, b ∈ bs ↔ ∃ a ∈ l, f a = .ok b := by
  induction l generalizing bs with
  | nil =>
    cases h
    simp
  | cons a l ih =>
    rw [List.mapM_cons] at h
    obtain ⟨b, hb, h⟩ := PyError.bind_eq_ok.mp h
    obtain ⟨bs, hbs, h⟩ := PyError.bind_eq_ok.mp h
    cases h
    obtain ⟨hall, hmem⟩ := ih hbs
    refine ⟨?_, ?_⟩
    · intro a' ha'
      rcases List.mem_cons.mp ha' with rfl | ha'
      · exact ⟨b, hb⟩
      · exact hall a' ha'
    · intro b'
      simp [hmem, hb, eq_comm]

/-- The results of a computation over a list stand where the elements stand. -/
theorem PyError.forall₂_of_mapM {ε α β : Type} {f : α → Except ε β} {l : List α} {bs : List β}
    (h : l.mapM f = .ok bs) : List.Forall₂ (fun a b => f a = .ok b) l bs := by
  induction l generalizing bs with
  | nil =>
    cases h
    exact List.Forall₂.nil
  | cons a l ih =>
    rw [List.mapM_cons] at h
    obtain ⟨b, hb, h⟩ := PyError.bind_eq_ok.mp h
    obtain ⟨bs, hbs, h⟩ := PyError.bind_eq_ok.mp h
    cases h
    exact List.Forall₂.cons hb (ih hbs)

/-- A computation over a list succeeds when it does at every element. -/
theorem PyError.mapM_returns_iff {ε α β : Type} {f : α → Except ε β} {l : List α} :
    (∃ bs, l.mapM f = .ok bs) ↔ ∀ a ∈ l, ∃ b, f a = .ok b := by
  constructor
  · rintro ⟨bs, h⟩
    exact (PyError.mapM_eq_ok h).1
  · intro h
    induction l with
    | nil => exact ⟨[], rfl⟩
    | cons a l ih =>
      rw [List.forall_mem_cons] at h
      obtain ⟨b, hb⟩ := h.1
      obtain ⟨bs, hbs⟩ := ih h.2
      exact ⟨b :: bs, by rw [List.mapM_cons, hb, hbs]; rfl⟩

/-- The results of a computation that succeeds at every element. -/
theorem PyError.eq_filterMap_of_mapM {ε α β : Type} {f : α → Except ε β} {l : List α} {bs : List β}
    (h : l.mapM f = .ok bs) : bs = l.filterMap fun a => (f a).toOption := by
  induction l generalizing bs with
  | nil =>
    cases h
    rfl
  | cons a l ih =>
    rw [List.mapM_cons] at h
    obtain ⟨b, hb, h⟩ := PyError.bind_eq_ok.mp h
    obtain ⟨bs, hbs, h⟩ := PyError.bind_eq_ok.mp h
    cases h
    rw [List.filterMap_cons, hb, ← ih hbs]
    rfl

/-- A loop whose steps succeed or not whatever the state is succeeds when all steps do. -/
theorem PyError.foldlM_returns_iff {ε σ α : Type} {f : σ → α → Except ε σ} {P : α → Prop}
    (h : ∀ s a, (∃ s', f s a = .ok s') ↔ P a) (l : List α) (s : σ) :
    (∃ s', l.foldlM f s = .ok s') ↔ ∀ a ∈ l, P a := by
  induction l generalizing s with
  | nil => exact iff_of_true ⟨s, rfl⟩ (by simp)
  | cons a l ih =>
    rw [List.foldlM_cons, List.forall_mem_cons, ← h s a]
    constructor
    · rintro ⟨s'', hrun⟩
      obtain ⟨s', ha, hl⟩ := PyError.bind_eq_ok.mp hrun
      exact ⟨⟨s', ha⟩, (ih s').mp ⟨s'', hl⟩⟩
    · rintro ⟨⟨s', ha⟩, hl⟩
      obtain ⟨s'', hrun⟩ := (ih s').mpr hl
      exact ⟨s'', PyError.bind_eq_ok.mpr ⟨s', ha, hrun⟩⟩

namespace PyVal

/-- The truth value. -/
def truthy : PyVal → Bool
  | none => false
  | bool b => b
  | int i => i ≠ 0
  | str s => s ≠ ""

/-- The value inside a formatted string. -/
def format : PyVal → String
  | none => "None"
  | bool true => "True"
  | bool false => "False"
  | int i => toString i
  | str s => s

/-- `int`. -/
def toInt : PyVal → Except PyError ℤ
  | none => .error .typeError
  | bool b => .ok (if b then 1 else 0)
  | int i => .ok i
  | str s => match Text.parseInt s with
    | some i => .ok i
    | Option.none => .error .valueError

/-- The value is missing: nothing, or a text of white space. -/
def isBlank : PyVal → Bool
  | none => true
  | str s => Text.isBlank s
  | _ => false

@[simp] theorem truthy_none : truthy none = false := rfl

@[simp] theorem truthy_int (i : ℤ) : truthy (int i) = decide (i ≠ 0) := rfl

@[simp] theorem toInt_int (i : ℤ) : toInt (int i) = .ok i := rfl

/-- A value that formats as the numeral of a number is no other number. -/
theorem toInt_of_format {v : PyVal} {m n : ℤ} (hformat : v.format = toString m)
    (hint : v.toInt = .ok n) : n = m := by
  cases v with
  | none => cases hint
  | bool b =>
    have hchars := Text.isIntChar_toString m
    rw [← hformat] at hchars
    cases b with
    | true => exact absurd (hchars 'T' (by decide)) (by decide)
    | false => exact absurd (hchars 'F' (by decide)) (by decide)
  | int i =>
    cases hint
    exact Text.toString_int_injective hformat
  | str s =>
    rw [toInt] at hint
    split at hint
    · next i hi =>
      cases hint
      rw [show s = toString m from hformat] at hi
      exact Text.parseInt_toString hi
    · cases hint

/-- A value that denotes an integer formats without a colon. -/
theorem colon_notMem_format {v : PyVal} {n : ℤ} (hint : v.toInt = .ok n) :
    ':' ∉ v.format.toList := by
  have hcolon : Text.isIntChar ':' ≠ true := by decide
  cases v with
  | none => cases hint
  | bool b => cases b <;> decide
  | int i => exact fun h => hcolon (Text.isIntChar_toString i ':' h)
  | str s =>
    rw [toInt] at hint
    split at hint
    · next i hi => exact fun h => hcolon (Text.isIntChar_of_parseInt hi ':' h)
    · cases hint

/-- A blank value denotes no integer. -/
theorem isBlank_of_toInt {v : PyVal} {n : ℤ} (hint : v.toInt = .ok n) : v.isBlank = false := by
  cases v with
  | none => cases hint
  | bool b => rfl
  | int i => rfl
  | str s =>
    by_contra hblank
    rw [Bool.not_eq_false, isBlank, Text.isBlank, List.isEmpty_iff] at hblank
    rw [toInt, Text.parseInt, hblank] at hint
    cases hint

/-- A falsy value that denotes an integer denotes zero. -/
theorem eq_zero_of_falsy {v : PyVal} {n : ℤ} (h : v.truthy = false) (hint : v.toInt = .ok n) :
    n = 0 := by
  cases v with
  | none => cases hint
  | bool b =>
    obtain rfl : b = false := h
    exact (Except.ok.inj hint).symm
  | int i => simpa [← Except.ok.inj hint] using h
  | str s =>
    obtain rfl : s = "" := by simpa [truthy] using h
    cases hint

end PyVal
