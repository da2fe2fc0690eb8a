import Mathlib.Data.List.Infix
import Mathlib.Tactic.Common

/-!
# Wildcard patterns

A pattern is a list of places for one element each and of stars for any number of them.  Its
definition tries every number of elements for every star.  A compiled pattern is made of the
fixed pieces between the stars, and never goes back: the first piece stands at the beginning,
those in the middle are taken where they first come, and the last one stands at the end.

What a place accepts is a parameter, and so are the elements.

## Main definitions

* `Wildcard.Token`, `Wildcard.isMatch` — patterns, and the texts they match as a whole.
* `Wildcard.compile`, `Wildcard.Compiled.run` — the pieces of a pattern, and the match that
  does not go back.
* `Wildcard.Compiled.search` — a match that begins anywhere.

## Main results

* `run_compile` — **the two matches agree**.
* `search_compile` — a match that begins anywhere is one of the pattern behind a star.
-/

namespace Wildcard

variable {β α : Type*}

/-- A star, or a place for one element. -/
inductive Token (β : Type*)
  | star
  | one (b : β)
  deriving DecidableEq, Repr

/-- The fixed pieces of a pattern: the one in front of the first star, and one behind each. -/
structure Compiled (β : Type*) where
  head : List β
  rest : List (List β)
  deriving DecidableEq, Repr

/-- The pieces of a pattern. -/
def compile : List (Token β) → Compiled β
  | [] => ⟨[], []⟩
  | .star :: ts => ⟨[], (compile ts).head :: (compile ts).rest⟩
  | .one b :: ts => ⟨b :: (compile ts).head, (compile ts).rest⟩

section Match

variable (accepts : β → α → Bool)

/-- The tokens match the whole of a text. -/
def isMatch : List (Token β) → List α → Bool
  | [], s => s.isEmpty
  | .star :: ts, s => s.tails.any (isMatch ts)
  | .one _ :: _, [] => false
  | .one b :: ts, a :: s => accepts b a && isMatch ts s

/-- What is left of a text behind a piece, if it begins with it. -/
def afterPiece : List β → List α → Option (List α)
  | [], s => some s
  | _ :: _, [] => none
  | b :: bs, a :: s => if accepts b a then afterPiece bs s else none

/-- What is left of a text behind the first place that a piece stands at. -/
def skipPiece (piece : List β) : List α → Option (List α)
  | [] => afterPiece accepts piece []
  | a :: s => match afterPiece accepts piece (a :: s) with
    | some rest => some rest
    | none => skipPiece piece s

/-- The text ends with a piece. -/
def endsWith (piece : List β) (s : List α) : Bool :=
  s.tails.any fun t => (afterPiece accepts piece t).any List.isEmpty

/-- The pieces behind the stars: no star is left, one is, or one and more. -/
def runPieces : List (List β) → List α → Bool
  | [], s => s.isEmpty
  | [last], s => endsWith accepts last s
  | piece :: next :: pieces, s =>
    (skipPiece accepts piece s).any (runPieces (next :: pieces))

/-- The match of a compiled pattern. -/
def Compiled.run (c : Compiled β) (s : List α) : Bool :=
  (afterPiece accepts c.head s).any (runPieces accepts c.rest)

/-- A match that begins somewhere in the text. -/
def Compiled.search (c : Compiled β) (s : List α) : Bool := s.tails.any (c.run accepts)

end Match

variable {accepts : β → α → Bool} {piece : List β} {ts : List (Token β)} {r s t u : List α}

/-! ### Pieces -/

/-- A piece takes as many elements as it has places. -/
theorem eq_drop_of_afterPiece (h : afterPiece accepts piece s = some r) :
    r = s.drop piece.length := by
  induction piece generalizing s with
  | nil => exact (Option.some.inj h).symm
  | cons b bs ih =>
    cases s with
    | nil => cases h
    | cons a s =>
      rw [afterPiece] at h
      split at h
      · rw [ih h, List.length_cons, List.drop_succ_cons]
      · cases h

theorem suffix_of_afterPiece (h : afterPiece accepts piece s = some r) : r <:+ s := by
  rw [eq_drop_of_afterPiece h]
  exact List.drop_suffix _ _

/-- A piece that stands earlier leaves more. -/
theorem afterPiece_mono (hts : t <:+ s) (hs : afterPiece accepts piece s = some r)
    (ht : afterPiece accepts piece t = some u) : u <:+ r := by
  have hru : u.length ≤ r.length := by
    rw [eq_drop_of_afterPiece hs, eq_drop_of_afterPiece ht, List.length_drop, List.length_drop]
    have hle := hts.length_le
    omega
  exact List.suffix_of_suffix_length_le ((suffix_of_afterPiece ht).trans hts)
    (suffix_of_afterPiece hs) hru

/-- The first place is one of the places. -/
theorem exists_of_skipPiece (h : skipPiece accepts piece s = some r) :
    ∃ t, t <:+ s ∧ afterPiece accepts piece t = some r := by
  induction s with
  | nil => exact ⟨[], List.suffix_rfl, h⟩
  | cons a s ih =>
    rw [skipPiece] at h
    split at h
    · next rest hrest => exact ⟨a :: s, List.suffix_rfl, hrest.trans h⟩
    · obtain ⟨t, hts, ht⟩ := ih h
      exact ⟨t, hts.trans (List.suffix_cons a s), ht⟩

/-- Wherever a piece stands, the first place leaves at least as much. -/
theorem skipPiece_of_suffix (hts : t <:+ s) (ht : afterPiece accepts piece t = some u) :
    ∃ r, skipPiece accepts piece s = some r ∧ u <:+ r := by
  induction s with
  | nil =>
    obtain rfl := List.suffix_nil.mp hts
    exact ⟨u, ht, List.suffix_rfl⟩
  | cons a s ih =>
    rw [skipPiece]
    cases hs : afterPiece accepts piece (a :: s) with
    | some r => exact ⟨r, rfl, afterPiece_mono hts hs ht⟩
    | none =>
      rcases List.suffix_cons_iff.mp hts with rfl | hts
      · rw [hs] at ht
        cases ht
      · exact ih hts

/-! ### The match that does not go back -/

theorem any_tails {p : List α → Bool} : s.tails.any p = true ↔ ∃ t, t <:+ s ∧ p t = true := by
  simp only [List.any_eq_true, List.mem_tails]

/-- What is behind a star is found in a longer text as well. -/
theorem runPieces_mono {pieces : List (List β)} (hne : pieces ≠ []) (hts : t <:+ s)
    (ht : runPieces accepts pieces t = true) : runPieces accepts pieces s = true := by
  induction pieces generalizing s t with
  | nil => exact absurd rfl hne
  | cons piece pieces ih =>
    cases pieces with
    | nil =>
      obtain ⟨v, hvt, hv⟩ := any_tails.mp ht
      exact any_tails.mpr ⟨v, hvt.trans hts, hv⟩
    | cons next pieces =>
      rw [runPieces, Option.any_eq_true] at ht ⊢
      obtain ⟨u, hu, hrun⟩ := ht
      obtain ⟨v, hvt, hv⟩ := exists_of_skipPiece hu
      obtain ⟨r, hr, hur⟩ := skipPiece_of_suffix (hvt.trans hts) hv
      exact ⟨r, hr, ih (List.cons_ne_nil _ _) hur hrun⟩

/-- A piece behind a star: it is enough to look at the first place. -/
theorem runPieces_cons (piece : List β) (pieces : List (List β)) (s : List α) :
    runPieces accepts (piece :: pieces) s =
      s.tails.any fun t => (afterPiece accepts piece t).any (runPieces accepts pieces) := by
  cases pieces with
  | nil => rfl
  | cons next pieces =>
    rw [Bool.eq_iff_iff, any_tails, runPieces, Option.any_eq_true]
    constructor
    · rintro ⟨r, hr, hrun⟩
      obtain ⟨t, hts, ht⟩ := exists_of_skipPiece hr
      exact ⟨t, hts, (Option.any_eq_true _ _).mpr ⟨r, ht, hrun⟩⟩
    · rintro ⟨t, hts, ht⟩
      obtain ⟨u, hu, hrun⟩ := (Option.any_eq_true _ _).mp ht
      obtain ⟨r, hr, hur⟩ := skipPiece_of_suffix hts hu
      exact ⟨r, hr, runPieces_mono (List.cons_ne_nil _ _) hur hrun⟩

/-- **The two matches agree.** -/
theorem run_compile (ts : List (Token β)) (s : List α) :
    (compile ts).run accepts s = isMatch accepts ts s := by
  induction ts generalizing s with
  | nil => rfl
  | cons token ts ih =>
    cases token with
    | star =>
      rw [isMatch, compile, Compiled.run, afterPiece, Option.any_some, runPieces_cons]
      exact congrArg s.tails.any (funext ih)
    | one b =>
      cases s with
      | nil => rfl
      | cons a s =>
        rw [isMatch, compile, Compiled.run, afterPiece, ← ih]
        cases accepts b a with
        | true => rfl
        | false => rfl

/-- **A match that begins anywhere is one of the pattern behind a star.** -/
theorem search_compile (ts : List (Token β)) (s : List α) :
    (compile ts).search accepts s = isMatch accepts (.star :: ts) s :=
  congrArg s.tails.any (funext (run_compile ts))

/-- A text that is matched as a whole is matched behind a star. -/
theorem isMatch_star_of_isMatch (h : isMatch accepts ts s = true) :
    isMatch accepts (.star :: ts) s = true :=
  any_tails.mpr ⟨s, List.suffix_rfl, h⟩

/-- A second star adds nothing. -/
theorem isMatch_star_star (ts : List (Token β)) (s : List α) :
    isMatch accepts (.star :: .star :: ts) s = isMatch accepts (.star :: ts) s := by
  rw [Bool.eq_iff_iff]
  constructor
  · intro h
    obtain ⟨t, hts, ht⟩ := any_tails.mp h
    obtain ⟨u, hut, hu⟩ := any_tails.mp ht
    exact any_tails.mpr ⟨u, hut.trans hts, hu⟩
  · exact isMatch_star_of_isMatch

end Wildcard
