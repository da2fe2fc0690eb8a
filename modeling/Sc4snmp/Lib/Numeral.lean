import Sc4snmp.Lib.PyFloat

/-!
# Decimal numerals of any length

A numeral is a list of decimal digits of any script with a minus in front of it or none.  It
writes an integer however long it is; `int` reads it only if it is not too long, with white
space around it or without.

## Main definitions

* `Text.isNumeral`, `Text.numeralValue` — numerals, and what they write.
* `Text.numeralDigits` — the digits of a numeral.

## Main results

* `parseInt_of_numeral` — `int` of a numeral.
* `length_toDigits_numeralValue` — what a numeral writes has no more digits.
-/

namespace Text

open PyFloat (digitsNat)

/-! ### Definitions -/

/-- The digits of a numeral. -/
def numeralDigits : List Char → List Char
  | '-' :: ds => ds
  | ds => ds

/-- `-?\d+`. -/
def isNumeral (cs : List Char) : Bool :=
  !(numeralDigits cs).isEmpty && (numeralDigits cs).all fun d => (decimalValue d).isSome

/-- The integer a numeral writes. -/
def numeralValue : List Char → ℤ
  | '-' :: ds => -(digitsNat ds : ℤ)
  | ds => digitsNat ds

example : isNumeral "-007".toList = true ∧ numeralValue "-007".toList = -7 := by decide

/-! ### Digits -/

variable {cs ds : List Char}

theorem foldl_digits_lt {vs : List ℕ} (h : ∀ v ∈ vs, v < 10) (n : ℕ) :
    vs.foldl (fun n d => 10 * n + d) n < (n + 1) * 10 ^ vs.length := by
  induction vs generalizing n with
  | nil => simp
  | cons v vs ih =>
    rw [List.forall_mem_cons] at h
    have hstep := ih h.2 (10 * n + v)
    have hle : (10 * n + v + 1) * 10 ^ vs.length ≤ (n + 1) * 10 * 10 ^ vs.length :=
      Nat.mul_le_mul_right _ (by omega)
    rw [List.foldl_cons, List.length_cons, pow_succ', ← mul_assoc]
    exact hstep.trans_le hle

theorem decimalValue_underscore : decimalValue '_' = none := by decide

theorem decimalValue_lt {c : Char} {v : ℕ} (h : decimalValue c = some v) : v < 10 := by
  rw [decimalValue, Option.map_eq_some_iff] at h
  obtain ⟨z, hz, rfl⟩ := h
  have hrange := List.find?_some hz
  simp only [Bool.and_eq_true, decide_eq_true_eq] at hrange
  omega

/-- Digits write less than a one with as many zeros. -/
theorem digitsNat_lt (ds : List Char) : digitsNat ds < 10 ^ ds.length := by
  have hdigits : ∀ v ∈ ds.filterMap decimalValue, v < 10 := by
    intro v hv
    obtain ⟨c, -, hc⟩ := List.mem_filterMap.mp hv
    exact decimalValue_lt hc
  have hlt := foldl_digits_lt hdigits 0
  rw [zero_add, one_mul] at hlt
  exact hlt.trans_le (Nat.pow_le_pow_right (by decide) (List.length_filterMap_le _ _))

/-- The value of digits, without underscores. -/
theorem digitsValue_of_digits (h : ∀ d ∈ ds, (decimalValue d).isSome = true) (acc : ℕ) :
    digitsValue acc ds =
      some ((ds.filterMap decimalValue).foldl (fun n d => 10 * n + d) acc) := by
  induction ds generalizing acc with
  | nil => rfl
  | cons d ds ih =>
    rw [List.forall_mem_cons] at h
    obtain ⟨v, hv⟩ := Option.isSome_iff_exists.mp h.1
    rw [digitsValue, hv, Option.bind_some, ih h.2, List.filterMap_cons_some hv, List.foldl_cons]
    rintro c cs rfl -
    rw [decimalValue_underscore] at hv
    cases hv

/-- What digits that are not too long denote. -/
theorem parseNat_of_digits (hne : ds ≠ []) (h : ∀ d ∈ ds, (decimalValue d).isSome = true) :
    parseNat ds = if ds.length ≤ maxDigits then some (digitsNat ds) else none := by
  obtain ⟨d, ds, rfl⟩ := List.exists_cons_of_ne_nil hne
  have hfilter : (d :: ds).filter (· ≠ '_') = d :: ds := by
    rw [List.filter_eq_self]
    intro c hc
    rw [decide_eq_true_eq]
    rintro rfl
    exact absurd (h '_' hc) (by decide)
  have hvalue := digitsValue_of_digits h 0
  obtain ⟨v, hv⟩ := Option.isSome_iff_exists.mp (h d List.mem_cons_self)
  rw [digitsValue, hv, Option.bind_some, mul_zero, zero_add] at hvalue
  · rw [parseNat, hfilter, hv, Option.bind_some, hvalue, digitsNat]
    by_cases hlength : (d :: ds).length ≤ maxDigits
    · rw [if_pos hlength, if_neg (Nat.not_lt.mpr hlength)]
    · rw [if_neg hlength, if_pos (Nat.not_le.mp hlength)]
  · rintro c cs rfl -
    rw [decimalValue_underscore] at hv
    cases hv

/-! ### Numerals -/

theorem isNumeral_iff : isNumeral cs = true ↔
    numeralDigits cs ≠ [] ∧ ∀ d ∈ numeralDigits cs, (decimalValue d).isSome = true := by
  rw [isNumeral, Bool.and_eq_true, Bool.not_eq_true', List.isEmpty_eq_false_iff, List.all_eq_true]

/-- No character of a numeral is white space. -/
theorem isSpace_of_isNumeral (h : isNumeral cs = true) : ∀ c ∈ cs, isSpace c = false := by
  have hdigits := (isNumeral_iff.mp h).2
  intro c hc
  cases cs with
  | nil => cases hc
  | cons d ds =>
    by_cases hd : d = '-'
    · subst hd
      rcases List.mem_cons.mp hc with rfl | hc
      · rfl
      · exact isSpace_of_decimalValue (hdigits c hc)
    · have hsame : numeralDigits (d :: ds) = d :: ds := by
        unfold numeralDigits
        split
        · next heq => exact absurd (List.cons.inj heq).1 hd
        · rfl
      rw [hsame] at hdigits
      exact isSpace_of_decimalValue (hdigits c hc)

/-- **`int` of a numeral** between white space. -/
theorem parseInt_of_numeral {s : String} (h : isNumeral cs = true) (hs : strip s.toList = cs) :
    parseInt s =
      if (numeralDigits cs).length ≤ maxDigits then some (numeralValue cs) else none := by
  obtain ⟨hne, hdigits⟩ := isNumeral_iff.mp h
  rw [parseInt, hs]
  split
  · next ds =>
    -- a plus is no digit
    exact absurd (hdigits '+' List.mem_cons_self) (by decide)
  · next ds =>
    have hnat : parseNat ds = _ := parseNat_of_digits hne hdigits
    rw [hnat, numeralDigits, numeralValue]
    split <;> rfl
  · next hplus hminus =>
    have hsame : numeralDigits cs = cs := by
      unfold numeralDigits
      split
      · exact absurd rfl (hminus _)
      · rfl
    have hvalue : numeralValue cs = digitsNat cs := by
      unfold numeralValue
      split
      · exact absurd rfl (hminus _)
      · rfl
    rw [hsame] at hne hdigits ⊢
    rw [parseNat_of_digits hne hdigits, hvalue]
    split <;> rfl

/-- What a numeral writes has no more digits than the numeral. -/
theorem length_toDigits_numeralValue (cs : List Char) (hne : numeralDigits cs ≠ []) :
    (Nat.toDigits 10 (numeralValue cs).natAbs).length ≤ (numeralDigits cs).length := by
  have hvalue : (numeralValue cs).natAbs = digitsNat (numeralDigits cs) := by
    unfold numeralValue numeralDigits
    split <;> simp
  rw [hvalue]
  exact (Nat.length_toDigits_le_iff (by decide) (List.length_pos_of_ne_nil hne)).mpr
    (digitsNat_lt _)

/-- The text of an integer is a numeral. -/
theorem isNumeral_toString (n : ℤ) : isNumeral (toString n).toList = true := by
  have hdigits : ∀ k : ℕ, ∀ d ∈ Nat.toDigits 10 k, d.isDigit = true := fun k d hd =>
    Nat.isDigit_of_mem_toDigits (by decide) (by decide) hd
  have hnumeral : ∀ k : ℕ, ∀ cs, numeralDigits cs = Nat.toDigits 10 k → isNumeral cs = true := by
    intro k cs hcs
    rw [isNumeral_iff, hcs]
    refine ⟨Nat.toDigits_ne_nil, fun d hd => ?_⟩
    rw [decimalValue_of_isDigit (hdigits k d hd)]
    rfl
  cases n with
  | ofNat k =>
    have hlist : (toString (Int.ofNat k)).toList = Nat.toDigits 10 k := Nat.toList_repr
    rw [hlist]
    refine hnumeral k _ ?_
    unfold numeralDigits
    split
    · next ds hds =>
      exact absurd (hdigits k '-' (by rw [hds]; exact List.mem_cons_self)) (by decide)
    · rfl
  | negSucc k =>
    have hminus : toString (Int.negSucc k) = "-" ++ Nat.repr (k + 1) := rfl
    rw [hminus, String.toList_append, Nat.toList_repr]
    exact hnumeral (k + 1) _ rfl

end Text
