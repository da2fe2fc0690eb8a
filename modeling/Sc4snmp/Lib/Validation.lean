import Mathlib.Tactic.Common

/-!
# Validation of records

A record is built field by field.  A field has a value, or is invalid, or an exception gets
through.  The fields that are invalid are collected, and the record is turned down with all of
them in the end; an exception ends the building at once.

## Main definitions

* `Validation.FieldOutcome` — what becomes of a field.
* `Validation.Draft`, `Draft.field`, `Draft.finish` — a record under construction.

## Main results

* `field_eq_building_iff` — a record is built when all of its fields have values.
* `finish_eq_ok_iff` — a record that is finished is built.
-/

namespace Validation

variable {ε α β : Type*}

/-- What becomes of a field. -/
inductive FieldOutcome (ε α : Type*)
  | value (a : α)
  | invalid
  | raised (err : ε)
  deriving DecidableEq, Repr

/-- Why a record is turned down: the fields that are invalid, or an exception. -/
inductive Failure (ε : Type*)
  | invalid (fields : List String)
  | raised (err : ε)
  deriving DecidableEq, Repr

/-- A record under construction. -/
inductive Draft (ε β : Type*)
  /-- All fields so far have values. -/
  | building (make : β)
  /-- These fields are invalid. -/
  | complaining (fields : List String)
  | raised (err : ε)

namespace Draft

/-- The next field. -/
def field : Draft ε (α → β) → String → FieldOutcome ε α → Draft ε β
  | raised err, _, _ => raised err
  | building _, _, .raised err => raised err
  | complaining _, _, .raised err => raised err
  | building make, _, .value a => building (make a)
  | building _, name, .invalid => complaining [name]
  | complaining fields, _, .value _ => complaining fields
  | complaining fields, name, .invalid => complaining (fields ++ [name])

/-- The record, or why it is turned down. -/
def finish : Draft ε β → Except (Failure ε) β
  | building record => .ok record
  | complaining fields => .error (.invalid fields)
  | raised err => .error (.raised err)

@[simp] theorem field_value (make : α → β) (name : String) (a : α) :
    (building make : Draft ε (α → β)).field name (.value a) = building (make a) := rfl

@[simp] theorem field_invalid (make : α → β) (name : String) :
    (building make : Draft ε (α → β)).field name .invalid = complaining [name] := rfl

@[simp] theorem complaining_field_value (fields : List String) (name : String) (a : α) :
    (complaining fields : Draft ε (α → β)).field name (.value a) = complaining fields := rfl

/-- A record is built when all of its fields have values. -/
theorem field_eq_building_iff {draft : Draft ε (α → β)} {name : String} {outcome : FieldOutcome ε α}
    {record : β} : draft.field name outcome = building record ↔
      ∃ make a, draft = building make ∧ outcome = .value a ∧ make a = record := by
  cases draft <;> cases outcome <;> simp [field]

/-- A record that is finished is built. -/
theorem finish_eq_ok_iff {draft : Draft ε β} {record : β} :
    draft.finish = .ok record ↔ draft = building record := by
  cases draft <;> simp [finish]

end Draft

end Validation
