import Mathlib.Data.List.Infix
import Mathlib.Tactic.Common

/-!
# The longest prefix that is known

A partial map on lists is asked about the prefixes of a list, the longest first, and
the prefixes of at most `k` elements are not asked about.  The search gives what the map
has for the longest prefix it knows.

## Main definitions

* `Longest lookup k xs r` — `r` is what `lookup` has for the longest known prefix of `xs`
  of more than `k` elements, or nothing if no such prefix is known.
* `search lookup xs k n` — the search from the first `n` elements down to `k + 1`.

## Main results

* `search_longest` — **the search finds the longest known prefix**.
* `Longest.unique` — there is one answer.
* `longest_iff_of_le` — which answers stay when more prefixes are asked about.
-/

namespace LongestPrefix

variable {α β : Type*} {lookup : List α → Option β} {xs : List α} {k l n : ℕ} {r r' : Option β}

/-- What a partial map has for the longest prefix of more than `k` elements. -/
inductive Longest (lookup : List α → Option β) (k : ℕ) (xs : List α) : Option β → Prop
  | found {p : List α} {b : β} (hpre : p <+: xs) (hlen : k < p.length) (hp : lookup p = some b)
      (hmax : ∀ q, q <+: xs → p.length < q.length → lookup q = none) : Longest lookup k xs (some b)
  | absent (hnone : ∀ q, q <+: xs → k < q.length → lookup q = none) : Longest lookup k xs none

/-- The search over the first `n`, `n - 1`, … elements, down to `k + 1` of them. -/
def search (lookup : List α → Option β) (xs : List α) (k : ℕ) : ℕ → Option β
  | 0 => none
  | n + 1 =>
    if n + 1 ≤ k then none
    else match lookup (xs.take (n + 1)) with
      | some b => some b
      | none => search lookup xs k n

/-- Two prefixes of a list of one length are the same. -/
theorem eq_of_isPrefix {p q : List α} (hp : p <+: xs) (hq : q <+: xs) (hlen : p.length = q.length) :
    p = q :=
  (List.prefix_of_prefix_length_le hp hq (le_of_eq hlen)).eq_of_length hlen

/-- The search from `n` elements on, when nothing longer is known. -/
theorem longest_search (hn : n ≤ xs.length)
    (hlong : ∀ q, q <+: xs → n < q.length → lookup q = none) :
    Longest lookup k xs (search lookup xs k n) := by
  induction n with
  | zero => exact .absent fun q hq hlen => hlong q hq (by omega)
  | succ n ih =>
    rw [search]
    by_cases hk : n + 1 ≤ k
    · rw [if_pos hk]
      exact .absent fun q hq hlen => hlong q hq (by omega)
    have htake : (xs.take (n + 1)).length = n + 1 := by
      rw [List.length_take]
      omega
    rw [if_neg hk]
    cases hp : lookup (xs.take (n + 1)) with
    | some b =>
      refine .found (List.take_prefix _ _) (by omega) hp fun q hq hlen => hlong q hq ?_
      omega
    | none =>
      refine ih (by omega) fun q hq hlen => ?_
      by_cases heq : q.length = n + 1
      · have hq' : q = xs.take (n + 1) :=
          eq_of_isPrefix hq (List.take_prefix _ _) (heq.trans htake.symm)
        rw [hq', hp]
      · exact hlong q hq (by omega)

/-- **The search finds the longest known prefix.** -/
theorem search_longest : Longest lookup k xs (search lookup xs k xs.length) :=
  longest_search le_rfl fun q hq hlen => absurd hq.length_le (by omega)

/-- There is one answer. -/
theorem Longest.unique (h : Longest lookup k xs r) (h' : Longest lookup k xs r') : r = r' := by
  cases h with
  | absent hnone =>
    cases h' with
    | absent => rfl
    | found hpre hlen hp hmax =>
      rw [hnone _ hpre hlen] at hp
      cases hp
  | @found p b hpre hlen hp hmax =>
    cases h' with
    | absent hnone =>
      rw [hnone _ hpre hlen] at hp
      cases hp
    | @found q c hpre' hlen' hp' hmax' =>
      -- neither of the two prefixes is longer
      rcases Nat.lt_trichotomy p.length q.length with hlt | heq | hlt
      · rw [hmax q hpre' hlt] at hp'
        cases hp'
      · rw [eq_of_isPrefix hpre hpre' heq, hp'] at hp
        exact hp.symm
      · rw [hmax' p hpre hlt] at hp
        cases hp

/-- Asking about shorter prefixes as well changes the answer only when there was none and one
of the shorter prefixes is known. -/
theorem longest_iff_of_le (hkl : k ≤ l) (h : Longest lookup l xs r) :
    Longest lookup k xs r ↔
      r ≠ none ∨ ∀ q, q <+: xs → k < q.length → q.length ≤ l → lookup q = none := by
  cases h with
  | found hpre hlen hp hmax =>
    exact iff_of_true (.found hpre (by omega) hp hmax) (Or.inl (Option.some_ne_none _))
  | absent hnone =>
    constructor
    · intro h
      cases h with
      | absent hnone' => exact Or.inr fun q hq hlen _ => hnone' q hq hlen
    · rintro (hne | hshort)
      · exact absurd rfl hne
      · refine .absent fun q hq hlen => ?_
        by_cases hl : q.length ≤ l
        · exact hshort q hq hlen hl
        · exact hnone q hq (by omega)

end LongestPrefix
