import Mathlib.Data.List.Infix
import Mathlib.Tactic.Common

/-!
# Glob patterns

The patterns a key-value store selects its keys with: `*` for any run of
characters, `?` for any one, `[a-c]` and `[^a-c]` for one out of a set, and `\`
before a character meant literally.  A pattern is read into tokens once and the
tokens are matched against a key.

## Main definitions

* `Glob.tokens` — a pattern as tokens.
* `Glob.isMatch` — whether a key matches a pattern.
* `Glob.Plain` — text without any of the special characters.

## Main results

* `isMatch_around` — **a plain text between two stars matches exactly the keys it
  occurs in**.
* `isMatch_prefix` — a plain text before a star matches the keys that begin with it.
-/

namespace Glob

/-- One element of a pattern. -/
inductive Token
  /-- `*`. -/
  | star
  /-- `?`. -/
  | any
  /-- `[…]`, a list of ranges, possibly negated. -/
  | oneOf (negated : Bool) (ranges : List (Char × Char))
  | lit (c : Char)
  deriving DecidableEq, Repr

/-- The range between two characters, in either order. -/
def rangeOf (a b : Char) : Char × Char := if a ≤ b then (a, b) else (b, a)

/-- Reads a pattern; the first argument holds the set being read inside brackets.
A set the pattern leaves open ends with the pattern. -/
def parse : Option (Bool × List (Char × Char)) → List Char → List Token
  | none, [] => []
  | none, '*' :: cs => .star :: parse none cs
  | none, '?' :: cs => .any :: parse none cs
  | none, '[' :: '^' :: cs => parse (some (true, [])) cs
  | none, '[' :: cs => parse (some (false, [])) cs
  | none, '\\' :: c :: cs => .lit c :: parse none cs
  | none, c :: cs => .lit c :: parse none cs
  | some (neg, rs), [] => [.oneOf neg rs]
  | some (neg, rs), '\\' :: c :: cs => parse (some (neg, (c, c) :: rs)) cs
  | some (neg, rs), ']' :: cs => .oneOf neg rs :: parse none cs
  | some (neg, rs), a :: '-' :: b :: cs => parse (some (neg, rangeOf a b :: rs)) cs
  | some (neg, rs), c :: cs => parse (some (neg, (c, c) :: rs)) cs

/-- The tokens of a pattern. -/
def tokens (pattern : String) : List Token := parse none pattern.toList

/-- Whether one character is what the token stands for. -/
def Token.accepts : Token → Char → Bool
  | .star, _ => true
  | .any, _ => true
  | .oneOf negated ranges, c => ranges.any (fun r => r.1 ≤ c && c ≤ r.2) != negated
  | .lit d, c => d == c

/-- Whether the tokens match the whole of a text. -/
def matchTokens : List Token → List Char → Bool
  | [], s => s.isEmpty
  | .star :: ts, s => s.tails.any (matchTokens ts)
  | _ :: _, [] => false
  | t :: ts, c :: cs => t.accepts c && matchTokens ts cs

/-- Whether a key matches a pattern. -/
def isMatch (pattern key : String) : Bool := matchTokens (tokens pattern) key.toList

/-- The characters a pattern gives a meaning to. -/
def special : List Char := ['*', '?', '[', '\\']

/-- Text a pattern takes literally. -/
def Plain (s : List Char) : Prop := ∀ c ∈ s, c ∉ special

instance (s : List Char) : Decidable (Plain s) :=
  decidable_of_iff ((s.all fun c => decide (c ∉ special)) = true) (by simp [Plain])

/-! ### Plain text between stars -/

theorem parse_cons_plain {c : Char} (hc : c ∉ special) (cs : List Char) :
    parse none (c :: cs) = .lit c :: parse none cs := by
  simp only [special, List.mem_cons, List.not_mem_nil, or_false, not_or] at hc
  obtain ⟨hstar, hany, hopen, hescape⟩ := hc
  rw [parse]
  · exact fun h => hstar h
  · exact fun h => hany h
  · exact fun _ h _ => hopen h
  · exact fun h => hopen h
  · exact fun _ _ h _ => hescape h

theorem parse_plain_append {p : List Char} (hp : Plain p) (cs : List Char) :
    parse none (p ++ cs) = p.map Token.lit ++ parse none cs := by
  induction p with
  | nil => rfl
  | cons c p ih =>
    have hc : c ∉ special := hp c (by simp)
    have hp' : Plain p := fun d hd => hp d (List.mem_cons_of_mem c hd)
    rw [List.cons_append, parse_cons_plain hc, ih hp', List.map_cons, List.cons_append]

theorem matchTokens_lits {p : List Char} {ts : List Token} {s : List Char} :
    matchTokens (p.map Token.lit ++ ts) s = true ↔ ∃ r, s = p ++ r ∧ matchTokens ts r = true := by
  induction p generalizing s with
  | nil => simp
  | cons c p ih =>
    cases s with
    | nil => simp [matchTokens]
    | cons d s =>
      rw [List.map_cons, List.cons_append, matchTokens, Bool.and_eq_true, ih]
      · simp only [Token.accepts, beq_iff_eq, List.cons_append, List.cons.injEq]
        constructor
        · rintro ⟨rfl, r, rfl, hr⟩
          exact ⟨r, ⟨rfl, rfl⟩, hr⟩
        · rintro ⟨r, ⟨rfl, rfl⟩, hr⟩
          exact ⟨rfl, r, rfl, hr⟩
      · simp

theorem matchTokens_star {ts : List Token} {s : List Char} :
    matchTokens (.star :: ts) s = true ↔ ∃ r, r <:+ s ∧ matchTokens ts r = true := by
  simp [matchTokens]

/-- A lone star matches everything. -/
theorem matchTokens_lone_star (s : List Char) : matchTokens [.star] s = true :=
  matchTokens_star.mpr ⟨[], List.nil_suffix, rfl⟩

/-- **A plain text between two stars matches exactly the keys it occurs in.** -/
theorem isMatch_around {p : String} (hp : Plain p.toList) (key : String) :
    isMatch ("*" ++ p ++ "*") key = true ↔ p.toList <:+: key.toList := by
  have htokens : tokens ("*" ++ p ++ "*") = .star :: (p.toList.map Token.lit ++ [.star]) := by
    have hstars : ("*" ++ p ++ "*").toList = '*' :: (p.toList ++ ['*']) := by simp
    rw [tokens, hstars, parse, parse_plain_append hp]
    rfl
  rw [isMatch, htokens, matchTokens_star]
  constructor
  · rintro ⟨r, ⟨a, ha⟩, hr⟩
    obtain ⟨b, rfl, -⟩ := matchTokens_lits.mp hr
    exact ⟨a, b, by rw [List.append_assoc, ha]⟩
  · rintro ⟨a, b, hab⟩
    refine ⟨p.toList ++ b, ⟨a, by rw [← List.append_assoc, hab]⟩, ?_⟩
    exact matchTokens_lits.mpr ⟨b, rfl, matchTokens_lone_star b⟩

/-- **A plain text before a star matches exactly the keys that begin with it.** -/
theorem isMatch_prefix {p : String} (hp : Plain p.toList) (key : String) :
    isMatch (p ++ "*") key = true ↔ p.toList <+: key.toList := by
  have htokens : tokens (p ++ "*") = p.toList.map Token.lit ++ [.star] := by
    rw [tokens, String.toList_append, parse_plain_append hp]
    rfl
  rw [isMatch, htokens, matchTokens_lits]
  constructor
  · rintro ⟨r, hr, -⟩
    exact ⟨r, hr.symm⟩
  · rintro ⟨r, hr⟩
    exact ⟨r, hr.symm, matchTokens_lone_star r⟩

example : isMatch "h[a-c]l?o*" "hblaoooo" = true := by decide

end Glob
