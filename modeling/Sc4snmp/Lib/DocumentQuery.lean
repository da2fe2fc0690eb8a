import Mathlib.Data.List.Basic
import Mathlib.Order.Lattice
import Mathlib.Tactic.Common

/-!
# Queries on documents

A query on a collection of documents is a conjunction of comparisons, each of the value a
document has at a path.  Values of different types are different and in no order.  A number
can be none at all: it equals itself, and nothing is above or below it.  A comparison that
is negated holds of a document without a value.

Numbers are of an arbitrary linear order, and what is at a path is up to the documents.

## Main definitions

* `Scalar`, `Comparison`, `Query` — values, comparisons and queries.
* `RegexEngine` — which patterns compile, and what they match.
* `Comparison.holds`, `Query.selects` — what a comparison says of a value, a query of a document.
* `Query.find` — the documents a query selects, unless it is refused.

## Main results

* `holds_lte`, `holds_gte` — **the orders are complements on numbers**.
* `find_eq_some_filter_iff` — when a query selects the documents with a property.
-/

namespace DocumentQuery

/-- A value that has no parts. -/
inductive Scalar (N : Type*)
  /-- A number; `none` is the one that is not a number. -/
  | number (n : Option N)
  | bool (b : Bool)
  | text (s : String)
  /-- A value of any other type. -/
  | other
  deriving DecidableEq

/-- What matches a pattern with options, if they are a pattern and options. -/
structure RegexEngine where
  compile : String → String → Option (String → Bool)

/-- A comparison of a value.  An operand that is `none` is a list or a document, which no
value without parts equals. -/
inductive Comparison (N : Type*)
  | eq (v : Option (Scalar N))
  | ne (v : Option (Scalar N))
  | gt (n : Option N)
  | gte (n : Option N)
  | lt (n : Option N)
  | lte (n : Option N)
  | inAny (vs : List (Scalar N))
  | notIn (vs : List (Scalar N))
  | regex (pattern options : String)
  | not (c : Comparison N)

/-- A conjunction of comparisons, each of the value at a path. -/
structure Query (κ N : Type*) where
  filters : List (κ × Comparison N)

variable {κ N δ : Type*} [LinearOrder N]

/-! ### What a query says -/

/-- The value that is there equals the operand. -/
def equals : Option (Scalar N) → Option (Scalar N) → Bool
  | some stored, some v => stored = v
  | _, _ => false

/-- The value that is there is a number above another, or not below it. -/
def above : Option (Scalar N) → Option N → Bool
  | some (.number (some x)), some y => y < x
  | _, _ => false

def notBelow : Option (Scalar N) → Option N → Bool
  | some (.number (some x)), some y => y ≤ x
  | some (.number none), none => true
  | _, _ => false

/-- The value that is there is a number below another, or not above it. -/
def below : Option (Scalar N) → Option N → Bool
  | some (.number (some x)), some y => x < y
  | _, _ => false

def notAbove : Option (Scalar N) → Option N → Bool
  | some (.number (some x)), some y => x ≤ y
  | some (.number none), none => true
  | _, _ => false

/-- The value that is there is a text that matches. -/
def RegexEngine.matchesText (engine : RegexEngine) (pattern options : String) :
    Option (Scalar N) → Bool
  | some (.text s) => (engine.compile pattern options).any fun found => found s
  | _ => false

/-- What a comparison says of the value at its path, if there is one. -/
def Comparison.holds (engine : RegexEngine) (stored : Option (Scalar N)) : Comparison N → Bool
  | eq v => equals stored v
  | ne v => !equals stored v
  | gt n => above stored n
  | gte n => notBelow stored n
  | lt n => below stored n
  | lte n => notAbove stored n
  | inAny vs => vs.any fun v => equals stored (some v)
  | notIn vs => !vs.any fun v => equals stored (some v)
  | regex pattern options => engine.matchesText pattern options stored
  | not c => !c.holds engine stored

/-- The patterns of a comparison compile. -/
def Comparison.compiles (engine : RegexEngine) : Comparison N → Bool
  | regex pattern options => (engine.compile pattern options).isSome
  | not c => c.compiles engine
  | _ => true

/-- A document, by what is at its paths, is selected. -/
def Query.selects (engine : RegexEngine) (q : Query κ N) (lookup : κ → Option (Scalar N)) : Bool :=
  q.filters.all fun f => f.2.holds engine (lookup f.1)

/-- A query is refused if a pattern of it does not compile. -/
def Query.compiles (engine : RegexEngine) (q : Query κ N) : Bool :=
  q.filters.all fun f => f.2.compiles engine

/-- The documents of a collection a query selects. -/
def Query.find (engine : RegexEngine) (q : Query κ N) (lookup : δ → κ → Option (Scalar N))
    (docs : List δ) : Option (List δ) :=
  if q.compiles engine then some (docs.filter fun doc => q.selects engine (lookup doc)) else none

variable {engine : RegexEngine} {stored : Option (Scalar N)} {x y : N}

/-! ### Complements -/

@[simp] theorem equals_some_some (v w : Scalar N) : equals (some v) (some w) = decide (v = w) := rfl

@[simp] theorem holds_eq (v : Option (Scalar N)) :
    (Comparison.eq v).holds engine stored = equals stored v := rfl

@[simp] theorem holds_ne (v : Option (Scalar N)) :
    (Comparison.ne v).holds engine stored = !(Comparison.eq v).holds engine stored := rfl

@[simp] theorem holds_notIn (vs : List (Scalar N)) :
    (Comparison.notIn vs).holds engine stored = !(Comparison.inAny vs).holds engine stored := rfl

@[simp] theorem holds_not (c : Comparison N) :
    c.not.holds engine stored = !c.holds engine stored := rfl

/-- To be in a list of one is to be equal. -/
@[simp] theorem holds_inAny_singleton (v : Scalar N) :
    (Comparison.inAny [v]).holds engine stored = equals stored (some v) := by
  simp [Comparison.holds]

/-- **A number is not above another, or it is above it.** -/
theorem holds_lte :
    (Comparison.lte (some y)).holds engine (some (.number (some x))) =
      !(Comparison.gt (some y)).holds engine (some (.number (some x))) := by
  rw [Bool.eq_iff_iff, Bool.not_eq_true', ← Bool.not_eq_true]
  simp [Comparison.holds, notAbove, above]

/-- **A number is not below another, or it is below it.** -/
theorem holds_gte :
    (Comparison.gte (some y)).holds engine (some (.number (some x))) =
      !(Comparison.lt (some y)).holds engine (some (.number (some x))) := by
  rw [Bool.eq_iff_iff, Bool.not_eq_true', ← Bool.not_eq_true]
  simp [Comparison.holds, notBelow, below]

/-! ### Queries -/

omit [LinearOrder N] in
/-- Two predicates select the same elements of a list when they agree on it. -/
theorem filter_eq_filter_iff {p p' : δ → Bool} {docs : List δ} :
    docs.filter p = docs.filter p' ↔ ∀ doc ∈ docs, p doc = true ↔ p' doc = true := by
  constructor
  · intro h doc hdoc
    have hmem : doc ∈ docs.filter p ↔ doc ∈ docs.filter p' := by rw [h]
    rwa [List.mem_filter, List.mem_filter, and_iff_right hdoc, and_iff_right hdoc] at hmem
  · intro h
    exact List.filter_congr fun doc hdoc => Bool.eq_iff_iff.mpr (h doc hdoc)

/-- A query that is not refused selects the documents with a property when it says the same of
each. -/
theorem find_eq_some_filter_iff {q : Query κ N} {lookup : δ → κ → Option (Scalar N)} {docs : List δ}
    (hq : q.compiles engine = true) (p : δ → Bool) :
    q.find engine lookup docs = some (docs.filter p) ↔
      ∀ doc ∈ docs, q.selects engine (lookup doc) = true ↔ p doc = true := by
  rw [Query.find, if_pos hq, Option.some_inj]
  exact filter_eq_filter_iff

end DocumentQuery
