import Mathlib.Data.Int.Notation
import Mathlib.Data.List.DropRight
import Mathlib.Data.List.Infix
import Mathlib.Data.List.TakeWhile
import Mathlib.Data.Nat.Notation
import Mathlib.Tactic.Common

/-!
# Text

The string operations of a scripting language, on lists of characters so that they
compute in the kernel, and the facts about numerals that names built from them
rest on.  Digits and white space are those of Unicode 15.1.

## Main definitions

* `Text.strip`, `Text.splitOn`, `Text.replaceChar`, `Text.rsplitOnce`.
* `Text.isDigit` — the characters that count as digits.
* `Text.parseInt`, `Text.isFloat` — the integer a text denotes, and whether it denotes a
  floating-point number.
* `Text.reprOctets` — the display of a string of octets.

## Main results

* `toString_nat_injective`, `toString_int_injective` — a numeral determines its number.
* `splitDoubled_append`, `rsplitOnce_append` — where a text is cut.
-/

namespace Text

/-! ### Characters -/

/-- White space. -/
def isSpace (c : Char) : Bool :=
  c.toNat ∈ [0x9, 0xa, 0xb, 0xc, 0xd, 0x1c, 0x1d, 0x1e, 0x1f, 0x20, 0x85, 0xa0, 0x1680, 0x2000,
    0x2001, 0x2002, 0x2003, 0x2004, 0x2005, 0x2006, 0x2007, 0x2008, 0x2009, 0x200a, 0x2028, 0x2029,
    0x202f, 0x205f, 0x3000]

/-- The zeros of the decimal digits; each is followed by its nine others. -/
def decimalZeros : List ℕ :=
  [0x30, 0x660, 0x6f0, 0x7c0, 0x966, 0x9e6, 0xa66, 0xae6, 0xb66, 0xbe6, 0xc66, 0xce6, 0xd66, 0xde6,
    0xe50, 0xed0, 0xf20, 0x1040, 0x1090, 0x17e0, 0x1810, 0x1946, 0x19d0, 0x1a80, 0x1a90, 0x1b50,
    0x1bb0, 0x1c40, 0x1c50, 0xa620, 0xa8d0, 0xa900, 0xa9d0, 0xa9f0, 0xaa50, 0xabf0, 0xff10, 0x104a0,
    0x10d30, 0x11066, 0x110f0, 0x11136, 0x111d0, 0x112f0, 0x11450, 0x114d0, 0x11650, 0x116c0,
    0x11730, 0x118e0, 0x11950, 0x11c50, 0x11d50, 0x11da0, 0x11f50, 0x16a60, 0x16ac0, 0x16b50,
    0x1d7ce, 0x1d7d8, 0x1d7e2, 0x1d7ec, 0x1d7f6, 0x1e140, 0x1e2f0, 0x1e4f0, 0x1e950, 0x1fbf0]

/-- The runs of digits that are not decimal, superscripts and the like. -/
def otherDigits : List (ℕ × ℕ) :=
  [(0xb2, 0xb3), (0xb9, 0xb9), (0x1369, 0x1371), (0x19da, 0x19da), (0x2070, 0x2070),
    (0x2074, 0x2079), (0x2080, 0x2089), (0x2460, 0x2468), (0x2474, 0x247c), (0x2488, 0x2490),
    (0x24ea, 0x24ea), (0x24f5, 0x24fd), (0x24ff, 0x24ff), (0x2776, 0x277e), (0x2780, 0x2788),
    (0x278a, 0x2792), (0x10a40, 0x10a43), (0x10e60, 0x10e68), (0x11052, 0x1105a),
    (0x1f100, 0x1f10a)]

/-- The value of a decimal digit. -/
def decimalValue (c : Char) : Option ℕ :=
  (decimalZeros.find? fun z => z ≤ c.toNat && c.toNat < z + 10).map fun z => c.toNat - z

/-- The characters that count as digits. -/
def isDigit (c : Char) : Bool :=
  (decimalValue c).isSome || otherDigits.any fun r => r.1 ≤ c.toNat && c.toNat ≤ r.2

/-! ### Cutting and replacing -/

/-- The text without the white space around it. -/
def strip (s : List Char) : List Char :=
  ((s.dropWhile isSpace).reverse.dropWhile isSpace).reverse

/-- Nothing but white space. -/
def isBlank (s : String) : Bool := (strip s.toList).isEmpty

/-- The pieces between the occurrences of a character. -/
def splitChars (sep : Char) : List Char → List (List Char)
  | [] => [[]]
  | c :: cs =>
    if c = sep then [] :: splitChars sep cs
    else match splitChars sep cs with
      | [] => [[c]]
      | w :: ws => (c :: w) :: ws

/-- The pieces of a text between the occurrences of a character. -/
def splitOn (sep : Char) (s : String) : List String :=
  (splitChars sep s.toList).map String.ofList

/-- The pieces between the doubled occurrences of a character, from left to right. -/
def splitDoubled (sep : Char) : List Char → List (List Char)
  | [] => [[]]
  | [c] => [[c]]
  | c :: d :: cs =>
    if c = sep ∧ d = sep then [] :: splitDoubled sep cs
    else match splitDoubled sep (d :: cs) with
      | [] => [[c]]
      | w :: ws => (c :: w) :: ws

/-- The parts before and after the last occurrence of a character. -/
def rsplitOnce (sep : Char) (s : String) : Option (String × String) :=
  let back := s.toList.reverse
  match back.dropWhile (· ≠ sep) with
  | [] => none
  | _ :: front =>
    some (String.ofList front.reverse, String.ofList (back.takeWhile (· ≠ sep)).reverse)

/-- The text with one character for another. -/
def replaceChar (a b : Char) (s : String) : String :=
  String.ofList (s.toList.map fun c => if c = a then b else c)

/-- Whether the text begins with another. -/
def startsWith (s p : String) : Bool := p.toList.isPrefixOf s.toList

/-- Whether the text has another inside it. -/
def contains (s p : String) : Bool := decide (p.toList <:+: s.toList)

/-- Lower case, on the letters of ASCII. -/
def lower (s : String) : String := String.ofList (s.toList.map Char.toLower)

/-! ### Integers -/

/-- The value of digits, single underscores between them, after a first one. -/
def digitsValue : ℕ → List Char → Option ℕ
  | acc, [] => some acc
  | acc, '_' :: c :: cs => (decimalValue c).bind fun d => digitsValue (10 * acc + d) cs
  | acc, c :: cs => (decimalValue c).bind fun d => digitsValue (10 * acc + d) cs

/-- The number of digits an integer may be written with. -/
def maxDigits : ℕ := 4300

/-- The value of a numeral without sign. -/
def parseNat : List Char → Option ℕ
  | [] => none
  | c :: cs =>
    if maxDigits < ((c :: cs).filter (· ≠ '_')).length then none
    else (decimalValue c).bind fun d => digitsValue d cs

/-- The integer a text denotes: a numeral, possibly signed, white space around it.  As
documented, `U+001C` to `U+001F` are white space; CPython refuses them in ASCII texts. -/
def parseInt (s : String) : Option ℤ :=
  match strip s.toList with
  | '+' :: cs => (parseNat cs).map Int.ofNat
  | '-' :: cs => (parseNat cs).map fun n => -Int.ofNat n
  | cs => (parseNat cs).map Int.ofNat

example : parseInt " -1_000 " = some (-1000) := by decide

/-! ### Floating-point numbers -/

/-- What is left after digits, single underscores between them. -/
def skipDigits : List Char → List Char
  | [] => []
  | '_' :: c :: cs => if (decimalValue c).isSome then skipDigits cs else '_' :: c :: cs
  | c :: cs => if (decimalValue c).isSome then skipDigits cs else c :: cs

/-- What is left after one digit or more. -/
def afterDigits : List Char → Option (List Char)
  | [] => none
  | c :: cs => if (decimalValue c).isSome then some (skipDigits cs) else none

/-- Nothing, or an exponent. -/
def isExponent : List Char → Bool
  | [] => true
  | c :: '+' :: cs => (c = 'e' || c = 'E') && afterDigits cs = some []
  | c :: '-' :: cs => (c = 'e' || c = 'E') && afterDigits cs = some []
  | c :: cs => (c = 'e' || c = 'E') && afterDigits cs = some []

/-- A decimal number without sign. -/
def isDecimal (cs : List Char) : Bool :=
  match afterDigits cs with
  | some ('.' :: rest) => isExponent ((afterDigits rest).getD rest)
  | some rest => isExponent rest
  | none => match cs with
    | '.' :: rest => (afterDigits rest).any isExponent
    | _ => false

/-- Whether the text denotes a floating-point number: a decimal number, an infinity or
not-a-number, possibly signed, white space around it.  As documented, `U+001C` to `U+001F`
are white space; CPython refuses them in ASCII texts. -/
def isFloat (s : String) : Bool :=
  let unsigned := fun cs : List Char =>
    isDecimal cs || cs.map Char.toLower ∈ ["inf".toList, "infinity".toList, "nan".toList]
  match strip s.toList with
  | '+' :: cs => unsigned cs
  | '-' :: cs => unsigned cs
  | cs => unsigned cs

example : isFloat "-1_0.5e+3" = true ∧ isFloat "1e" = false := by decide

section Digits

variable {ds rest : List Char}

/-- Digits in front of something that does not go on with one. -/
theorem skipDigits_append (hds : ∀ d ∈ ds, (decimalValue d).isSome = true)
    (hrest : ∀ c ∈ rest.head?, (decimalValue c).isSome = false ∧ c ≠ '_') :
    skipDigits (ds ++ rest) = rest := by
  induction ds with
  | nil =>
    cases rest with
    | nil => rfl
    | cons c cs =>
      obtain ⟨hc, hline⟩ := hrest c rfl
      rw [List.nil_append, skipDigits.eq_def]
      split
      · next heq => cases heq
      · next heq =>
        cases heq
        exact absurd rfl hline
      · next heq =>
        cases heq
        rw [if_neg (by simp [hc])]
  -- an underscore is no digit, so that the first rule is not the one that applies
  | cons d ds ih =>
    rw [List.forall_mem_cons] at hds
    have hline : d ≠ '_' := by
      rintro rfl
      exact absurd hds.1 (by decide)
    rw [List.cons_append, skipDigits.eq_def]
    split
    · next heq => cases heq
    · next heq => exact absurd (List.cons.inj heq).1 hline
    · next heq =>
      obtain ⟨hd, hcs⟩ := List.cons.inj heq
      rw [← hd, ← hcs, if_pos hds.1]
      exact ih hds.2

theorem afterDigits_append (hne : ds ≠ []) (hds : ∀ d ∈ ds, (decimalValue d).isSome = true)
    (hrest : ∀ c ∈ rest.head?, (decimalValue c).isSome = false ∧ c ≠ '_') :
    afterDigits (ds ++ rest) = some rest := by
  obtain ⟨d, ds, rfl⟩ := List.exists_cons_of_ne_nil hne
  rw [List.forall_mem_cons] at hds
  rw [List.cons_append, afterDigits, if_pos hds.1, skipDigits_append hds.2 hrest]

end Digits

/-! ### Octets -/

/-- An octet in two hexadecimal digits. -/
def hexOctet (b : UInt8) : List Char := [Nat.digitChar (b.toNat / 16), Nat.digitChar (b.toNat % 16)]

/-- How a string of octets is displayed: printable octets as they are, quotes around them. -/
def reprOctets (octets : List UInt8) : String :=
  let single := Char.ofNat 39
  let double := Char.ofNat 34
  let backslash := Char.ofNat 92
  let quote := if 39 ∈ octets ∧ 34 ∉ octets then double else single
  let shown := fun b : UInt8 =>
    let c := Char.ofNat b.toNat
    if c = quote ∨ c = backslash then [backslash, c]
    else if b = 9 then [backslash, 't']
    else if b = 10 then [backslash, 'n']
    else if b = 13 then [backslash, 'r']
    else if b < 32 ∨ 127 ≤ b then [backslash, 'x'] ++ hexOctet b
    else [c]
  String.ofList ('b' :: quote :: octets.flatMap shown ++ [quote])

example : reprOctets [97, 39, 0] = String.ofList ['b', Char.ofNat 34, 'a', Char.ofNat 39,
    Char.ofNat 92, 'x', '0', '0', Char.ofNat 34] := by decide

/-! ### The characters of an integer -/

/-- The characters that can stand in a text that denotes an integer. -/
def isIntChar (c : Char) : Bool :=
  isSpace c || c = '+' || c = '-' || c = '_' || (decimalValue c).isSome

theorem mem_dropWhile {p : Char → Bool} {c : Char} {s : List Char} (h : c ∈ s) (hc : p c = false) :
    c ∈ s.dropWhile p := by
  rw [← List.takeWhile_append_dropWhile (p := p) (l := s)] at h
  rcases List.mem_append.mp h with h | h
  · rw [List.mem_takeWhile_imp h] at hc
    cases hc
  · exact h

/-- Stripping only loses white space. -/
theorem mem_strip {c : Char} {s : List Char} (h : c ∈ s) (hc : isSpace c = false) :
    c ∈ strip s := by
  rw [strip, List.mem_reverse]
  exact mem_dropWhile (List.mem_reverse.mpr (mem_dropWhile h hc)) hc

theorem isIntChar_of_digitsValue {cs : List Char} {acc n : ℕ} (h : digitsValue acc cs = some n) :
    ∀ c ∈ cs, isIntChar c = true := by
  induction acc, cs using digitsValue.induct with
  | case1 acc => simp
  | case2 acc d cs ih =>
    rw [digitsValue, Option.bind_eq_some_iff] at h
    obtain ⟨v, hv, h⟩ := h
    simp only [List.mem_cons, forall_eq_or_imp]
    exact ⟨rfl, by simp [isIntChar, hv], ih v h⟩
  | case3 acc d cs hd ih =>
    rw [digitsValue, Option.bind_eq_some_iff] at h
    · obtain ⟨v, hv, h⟩ := h
      simp only [List.mem_cons, forall_eq_or_imp]
      exact ⟨by simp [isIntChar, hv], ih v h⟩
    · exact hd

theorem isIntChar_of_parseNat {cs : List Char} {n : ℕ} (h : parseNat cs = some n) :
    ∀ c ∈ cs, isIntChar c = true := by
  cases cs with
  | nil => cases h
  | cons d cs =>
    rw [parseNat] at h
    split at h
    · cases h
    · obtain ⟨v, hv, h⟩ := Option.bind_eq_some_iff.mp h
      simp only [List.mem_cons, forall_eq_or_imp]
      exact ⟨by simp [isIntChar, hv], isIntChar_of_digitsValue h⟩

/-- A text that denotes an integer is made of the characters of integers. -/
theorem isIntChar_of_parseInt {s : String} {n : ℤ} (h : parseInt s = some n) :
    ∀ c ∈ s.toList, isIntChar c = true := by
  intro c hc
  by_cases hspace : isSpace c = true
  · simp [isIntChar, hspace]
  have hstrip := mem_strip hc (by simpa using hspace)
  rw [parseInt] at h
  split at h
  · next cs hcs =>
    obtain ⟨m, hm, -⟩ := Option.map_eq_some_iff.mp h
    rw [hcs] at hstrip
    rcases List.mem_cons.mp hstrip with rfl | hstrip
    · rfl
    · exact isIntChar_of_parseNat hm c hstrip
  · next cs hcs =>
    obtain ⟨m, hm, -⟩ := Option.map_eq_some_iff.mp h
    rw [hcs] at hstrip
    rcases List.mem_cons.mp hstrip with rfl | hstrip
    · rfl
    · exact isIntChar_of_parseNat hm c hstrip
  · obtain ⟨m, hm, -⟩ := Option.map_eq_some_iff.mp h
    exact isIntChar_of_parseNat hm c hstrip

/-! ### Numerals -/

theorem toString_nat_injective : Function.Injective (toString : ℕ → String) := by
  intro m n h
  have hdigits : Nat.toDigits 10 m = Nat.toDigits 10 n := by
    rw [← Nat.toList_repr, ← Nat.toList_repr]
    exact congrArg String.toList h
  rw [← Nat.ofDigitChars_ten_toDigits (n := m), hdigits, Nat.ofDigitChars_ten_toDigits]

/-- A numeral does not begin with a minus sign. -/
theorem toString_nat_ne_minus (m : ℕ) (t : List Char) : (toString m).toList ≠ '-' :: t := by
  intro h
  have hmem : '-' ∈ Nat.toDigits 10 m := by
    rw [← Nat.toList_repr]
    exact (congrArg (fun l => '-' ∈ l) h).mpr List.mem_cons_self
  have hdigit := Nat.isDigit_of_mem_toDigits (by decide) (by decide) hmem
  exact absurd hdigit (by decide)

theorem toString_int_injective : Function.Injective (toString : ℤ → String) := by
  have hsign : ∀ m n : ℕ, toString (Int.ofNat m) ≠ toString (Int.negSucc n) := by
    intro m n h
    refine toString_nat_ne_minus m (toString (n + 1)).toList ?_
    have h' : (toString m).toList = ("-" ++ toString (n + 1)).toList := congrArg String.toList h
    rw [h', String.toList_append]
    rfl
  intro a b h
  match a, b with
  | .ofNat m, .ofNat n => exact congrArg Int.ofNat (toString_nat_injective h)
  | .ofNat m, .negSucc n => exact absurd h (hsign m n)
  | .negSucc m, .ofNat n => exact absurd h.symm (hsign n m)
  | .negSucc m, .negSucc n =>
    have h' : "-" ++ toString (m + 1) = "-" ++ toString (n + 1) := h
    have hsucc := toString_nat_injective (String.append_right_inj _ |>.mp h')
    rw [Nat.succ.inj hsucc]

/-- A digit of ASCII has its usual value. -/
theorem decimalValue_of_isDigit {c : Char} (h : c.isDigit = true) :
    decimalValue c = some (c.toNat - '0'.toNat) := by
  have hrange : 48 ≤ c.toNat ∧ c.toNat ≤ 57 := Char.isDigit_iff_toNat.mp h
  have hzero : decimalZeros.find? (fun z => z ≤ c.toNat && c.toNat < z + 10) = some 0x30 := by
    rw [decimalZeros, List.find?_cons_of_pos]
    simp only [Bool.and_eq_true, decide_eq_true_eq]
    omega
  rw [decimalValue, hzero]
  rfl

theorem digitsValue_of_isDigit {cs : List Char} (h : ∀ c ∈ cs, c.isDigit = true) (acc : ℕ) :
    digitsValue acc cs = some (Nat.ofDigitChars 10 cs acc) := by
  induction cs generalizing acc with
  | nil => rfl
  | cons c cs ih =>
    have hc := h c List.mem_cons_self
    rw [digitsValue, decimalValue_of_isDigit hc, Option.bind_some,
      ih (fun d hd => h d (List.mem_cons_of_mem c hd)), Nat.ofDigitChars_cons]
    rintro d ds rfl -
    exact absurd hc (by decide)

/-- The numeral of a number denotes no other number. -/
theorem parseNat_toDigits {m n : ℕ} (h : parseNat (Nat.toDigits 10 m) = some n) : n = m := by
  have hdigit : ∀ c ∈ Nat.toDigits 10 m, c.isDigit = true := fun c hc =>
    Nat.isDigit_of_mem_toDigits (by decide) (by decide) hc
  have hvalue := Nat.ofDigitChars_ten_toDigits (n := m)
  generalize Nat.toDigits 10 m = cs at h hdigit hvalue
  cases cs with
  | nil => cases h
  | cons c cs =>
    rw [parseNat] at h
    split at h
    · cases h
    · have hall := digitsValue_of_isDigit hdigit 0
      rw [digitsValue] at hall
      · simp only [Nat.mul_zero, Nat.zero_add] at hall
        rw [h, Option.some.injEq] at hall
        rw [hall, hvalue]
      · rintro d ds rfl -
        exact absurd (hdigit '_' List.mem_cons_self) (by decide)

/-- White space is neither a digit nor a sign. -/
theorem isSpace_of_isDigit {c : Char} (h : c.isDigit = true) : isSpace c = false := by
  have hrange : 48 ≤ c.toNat ∧ c.toNat ≤ 57 := Char.isDigit_iff_toNat.mp h
  rw [isSpace, decide_eq_false_iff_not]
  simp only [List.mem_cons, List.not_mem_nil, or_false]
  omega

/-- No decimal digit is white space. -/
theorem isSpace_of_decimalValue {c : Char} (h : (decimalValue c).isSome = true) :
    isSpace c = false := by
  have hapart : ∀ n ∈ [0x9, 0xa, 0xb, 0xc, 0xd, 0x1c, 0x1d, 0x1e, 0x1f, 0x20, 0x85, 0xa0, 0x1680,
      0x2000, 0x2001, 0x2002, 0x2003, 0x2004, 0x2005, 0x2006, 0x2007, 0x2008, 0x2009, 0x200a,
      0x2028, 0x2029, 0x202f, 0x205f, 0x3000], ∀ z ∈ decimalZeros, n < z ∨ z + 10 ≤ n := by
    decide +kernel
  rw [decimalValue, Option.isSome_map, List.find?_isSome] at h
  obtain ⟨z, hz, hc⟩ := h
  rw [Bool.and_eq_true, decide_eq_true_eq, decide_eq_true_eq] at hc
  rw [isSpace, decide_eq_false_iff_not]
  intro hspace
  have hfar := hapart c.toNat hspace z hz
  omega

/-- A text without white space is not stripped. -/
theorem strip_of_not_space {s : List Char} (h : ∀ c ∈ s, isSpace c = false) : strip s = s := by
  have hdrop : ∀ t : List Char, (∀ c ∈ t, isSpace c = false) → t.dropWhile isSpace = t := by
    intro t ht
    cases t with
    | nil => rfl
    | cons c t =>
      have hc : ¬ isSpace c = true := by simp [ht c List.mem_cons_self]
      rw [List.dropWhile_cons_of_neg hc]
  rw [strip, hdrop s h, hdrop s.reverse (fun c hc => h c (List.mem_reverse.mp hc)),
    List.reverse_reverse]

/-- What is stripped has no white space around it. -/
theorem strip_strip (s : List Char) : strip (strip s) = strip s := by
  have hstrip : strip s = (s.dropWhile isSpace).rdropWhile isSpace := rfl
  have hfront : (strip s).dropWhile isSpace = strip s := by
    have hpre : strip s <+: s.dropWhile isSpace := hstrip ▸ List.rdropWhile_prefix isSpace _
    cases hs : strip s with
    | nil => rfl
    | cons c cs =>
      -- the first character is the first one behind the white space
      obtain ⟨rest, hrest⟩ := hs ▸ hpre
      have hhead := List.head?_dropWhile_not isSpace s
      rw [← hrest] at hhead
      have hc : isSpace c = false := hhead
      exact List.dropWhile_cons_of_neg (by simp [hc])
  calc strip (strip s) = ((strip s).dropWhile isSpace).rdropWhile isSpace := rfl
    _ = (strip s).rdropWhile isSpace := by rw [hfront]
    _ = strip s := by rw [hstrip, List.rdropWhile_idempotent]

/-- One blank behind a text is stripped. -/
theorem strip_append_space {s : List Char} {c : Char} (h : ∀ c ∈ s, isSpace c = false)
    (hne : s ≠ [])
    (hc : isSpace c = true) : strip (s ++ [c]) = s := by
  obtain ⟨d, ds, rfl⟩ := List.exists_cons_of_ne_nil hne
  have hd : ¬ isSpace d = true := by simp [h d List.mem_cons_self]
  have hstrip := strip_of_not_space h
  rw [strip, List.dropWhile_cons_of_neg hd] at hstrip
  rw [strip, List.cons_append, List.dropWhile_cons_of_neg hd, ← List.cons_append,
    List.reverse_append, List.reverse_singleton, List.singleton_append,
    List.dropWhile_cons_of_pos hc]
  exact hstrip

/-- The numeral of an integer denotes no other integer. -/
theorem parseInt_toString {m n : ℤ} (h : parseInt (toString m) = some n) : n = m := by
  have hdigit : ∀ k : ℕ, ∀ c ∈ Nat.toDigits 10 k, c.isDigit = true := fun k c hc =>
    Nat.isDigit_of_mem_toDigits (by decide) (by decide) hc
  have hspace : ∀ k : ℕ, ∀ c ∈ Nat.toDigits 10 k, isSpace c = false := fun k c hc =>
    isSpace_of_isDigit (hdigit k c hc)
  cases m with
  | ofNat k =>
    have hlist : (toString (Int.ofNat k)).toList = Nat.toDigits 10 k := Nat.toList_repr
    rw [parseInt, hlist, strip_of_not_space (hspace k)] at h
    split at h
    · next cs hcs => exact absurd (hdigit k '+' (by rw [hcs]; exact List.mem_cons_self)) (by decide)
    · next cs hcs => exact absurd (hdigit k '-' (by rw [hcs]; exact List.mem_cons_self)) (by decide)
    · obtain ⟨j, hj, rfl⟩ := Option.map_eq_some_iff.mp h
      rw [parseNat_toDigits hj]
  -- the minus is cut off again
  | negSucc k =>
    have hlist : (toString (Int.negSucc k)).toList = '-' :: Nat.toDigits 10 (k + 1) := by
      have hminus : toString (Int.negSucc k) = "-" ++ Nat.repr (k + 1) := rfl
      rw [hminus, String.toList_append, Nat.toList_repr]
      rfl
    have hall : ∀ c ∈ '-' :: Nat.toDigits 10 (k + 1), isSpace c = false := by
      intro c hc
      rcases List.mem_cons.mp hc with rfl | hc
      · rfl
      · exact hspace (k + 1) c hc
    rw [parseInt, hlist, strip_of_not_space hall] at h
    obtain ⟨j, hj, rfl⟩ := Option.map_eq_some_iff.mp h
    rw [parseNat_toDigits hj]
    rfl

/-- A numeral that is not too long denotes its number. -/
theorem parseInt_toString_ofNat {m : ℕ} (hlength : (Nat.toDigits 10 m).length ≤ maxDigits) :
    parseInt (toString (m : ℤ)) = some (m : ℤ) := by
  have hdigit : ∀ c ∈ Nat.toDigits 10 m, c.isDigit = true := fun c hc =>
    Nat.isDigit_of_mem_toDigits (by decide) (by decide) hc
  -- only the length could make the numeral fail
  have hnat : ∃ n, parseNat (Nat.toDigits 10 m) = some n := by
    cases hcs : Nat.toDigits 10 m with
    | nil => exact absurd hcs Nat.toDigits_ne_nil
    | cons c cs =>
      rw [hcs] at hdigit hlength
      have hfilter : ¬ maxDigits < ((c :: cs).filter (· ≠ '_')).length :=
        Nat.not_lt.mpr ((List.length_filter_le _ _).trans hlength)
      rw [parseNat, if_neg hfilter, decimalValue_of_isDigit (hdigit c List.mem_cons_self),
        Option.bind_some]
      exact ⟨_, digitsValue_of_isDigit (fun d hd => hdigit d (List.mem_cons_of_mem c hd)) _⟩
  obtain ⟨n, hn⟩ := hnat
  have hint : parseInt (toString (m : ℤ)) = some (n : ℤ) := by
    have hlist : (toString (m : ℤ)).toList = Nat.toDigits 10 m := Nat.toList_repr
    rw [parseInt, hlist, strip_of_not_space fun c hc => isSpace_of_isDigit (hdigit c hc)]
    split
    · next cs hcs => exact absurd (hdigit '+' (by rw [hcs]; exact List.mem_cons_self)) (by decide)
    · next cs hcs => exact absurd (hdigit '-' (by rw [hcs]; exact List.mem_cons_self)) (by decide)
    · rw [hn]
      rfl
  rw [hint, parseInt_toString hint]

/-- The numeral of a number of two octets is short. -/
theorem parseInt_toString_of_le {m : ℕ} (h : m ≤ 65535) :
    parseInt (toString (m : ℤ)) = some (m : ℤ) := by
  have hfive : (Nat.toDigits 10 m).length ≤ 5 :=
    (Nat.length_toDigits_le_iff (by decide) (by decide)).mpr (by omega)
  exact parseInt_toString_ofNat (hfive.trans (by decide))

/-- The characters of a numeral. -/
theorem isIntChar_toString (n : ℤ) : ∀ c ∈ (toString n).toList, isIntChar c = true := by
  have hdigits : ∀ k : ℕ, ∀ c ∈ (Nat.repr k).toList, isIntChar c = true := by
    intro k c hc
    rw [Nat.toList_repr] at hc
    have hc : c.isDigit = true := Nat.isDigit_of_mem_toDigits (by decide) (by decide) hc
    simp [isIntChar, decimalValue_of_isDigit hc]
  cases n with
  | ofNat k => exact hdigits k
  | negSucc k =>
    have hminus : toString (Int.negSucc k) = "-" ++ Nat.repr (k + 1) := rfl
    rw [hminus, String.toList_append]
    intro c hc
    rcases List.mem_append.mp hc with hc | hc
    · rw [List.mem_singleton.mp hc]
      rfl
    · exact hdigits _ c hc

/-- A text with a character that is no white space is not blank. -/
theorem isBlank_of_mem {s : String} {c : Char} (hmem : c ∈ s.toList)
    (hc : isSpace c = false) : isBlank s = false := by
  rw [isBlank, List.isEmpty_eq_false_iff]
  exact List.ne_nil_of_mem (mem_strip hmem hc)

/-- A numeral is not blank. -/
theorem isBlank_toString (i : ℤ) : isBlank (toString i) = false := by
  cases i with
  | ofNat n =>
    have hne : (toString (Int.ofNat n)).toList ≠ [] := by
      change (Nat.repr n).toList ≠ []
      rw [Nat.toList_repr]
      exact Nat.toDigits_ne_nil
    obtain ⟨c, hc⟩ := List.exists_mem_of_ne_nil _ hne
    refine isBlank_of_mem hc (isSpace_of_isDigit ?_)
    have hmem : c ∈ Nat.toDigits 10 n := by rwa [← Nat.toList_repr]
    exact Nat.isDigit_of_mem_toDigits (by decide) (by decide) hmem
  | negSucc n =>
    have hminus : toString (Int.negSucc n) = "-" ++ Nat.repr (n + 1) := rfl
    refine isBlank_of_mem (c := '-') ?_ (by decide)
    rw [hminus, String.toList_append]
    exact List.mem_append_left _ (by decide)

/-! ### Separators -/

/-- Two texts joined by a separator the second does not have determine both. -/
theorem append_separator_inj {sep : Char} {a b s t : List Char} (hs : sep ∉ s) (ht : sep ∉ t)
    (h : a ++ sep :: s = b ++ sep :: t) : a = b ∧ s = t := by
  induction a generalizing b with
  | nil =>
    cases b with
    | nil => simpa using h
    | cons c b =>
      simp only [List.nil_append, List.cons_append, List.cons.injEq] at h
      exact absurd (h.2 ▸ List.mem_append_right b List.mem_cons_self) hs
  | cons c a ih =>
    cases b with
    | nil =>
      simp only [List.nil_append, List.cons_append, List.cons.injEq] at h
      exact absurd (h.2 ▸ List.mem_append_right a List.mem_cons_self) ht
    | cons d b =>
      simp only [List.cons_append, List.cons.injEq] at h
      obtain ⟨rfl, rfl⟩ := ih h.2
      exact ⟨by rw [h.1], rfl⟩

/-- The last occurrence of a separator is before a text that does not have it. -/
theorem rsplitOnce_append {sep : Char} {a s t : String} (hs : sep ∉ s.toList)
    (ht : t.toList = a.toList ++ sep :: s.toList) : rsplitOnce sep t = some (a, s) := by
  have hback : t.toList.reverse = s.toList.reverse ++ sep :: a.toList.reverse := by
    rw [ht, List.reverse_append, List.reverse_cons, List.append_assoc, List.singleton_append]
  have hpass : ∀ c ∈ s.toList.reverse, decide (c ≠ sep) = true := by
    intro c hc
    rw [decide_eq_true_eq]
    rintro rfl
    exact hs (List.mem_reverse.mp hc)
  have hdrop : (s.toList.reverse ++ sep :: a.toList.reverse).dropWhile (· ≠ sep) =
      sep :: a.toList.reverse := by
    rw [List.dropWhile_append_of_pos hpass]
    simp
  have htake : (s.toList.reverse ++ sep :: a.toList.reverse).takeWhile (· ≠ sep) =
      s.toList.reverse := by
    rw [List.takeWhile_append_of_pos hpass]
    simp
  simp only [rsplitOnce, hback, hdrop, htake, List.reverse_reverse, String.ofList_toList]

theorem splitDoubled_ne_nil (sep : Char) (s : List Char) : splitDoubled sep s ≠ [] := by
  induction s using splitDoubled.induct sep with
  | case1 => simp [splitDoubled]
  | case2 c => simp [splitDoubled]
  | case3 c d cs h ih => simp [splitDoubled, h]
  | case4 c d cs h heq ih => simp [splitDoubled, h, heq]
  | case5 c d cs h w ws heq ih => simp [splitDoubled, h, heq]

/-- The pieces put together again. -/
theorem intercalate_splitDoubled (sep : Char) (s : List Char) :
    List.intercalate [sep, sep] (splitDoubled sep s) = s := by
  have hcons : ∀ (c : Char) (w : List Char) (ws : List (List Char)),
      List.intercalate [sep, sep] ((c :: w) :: ws) =
        c :: List.intercalate [sep, sep] (w :: ws) := by
    intro c w ws
    cases ws <;> rfl
  have hskip : ∀ ws : List (List Char), ws ≠ [] →
      List.intercalate [sep, sep] ([] :: ws) = sep :: sep :: List.intercalate [sep, sep] ws := by
    intro ws hws
    cases ws with
    | nil => exact absurd rfl hws
    | cons w ws => rfl
  induction s using splitDoubled.induct sep with
  | case1 => rfl
  | case2 c => rfl
  | case3 c d cs h ih =>
    rw [splitDoubled, if_pos h, hskip _ (splitDoubled_ne_nil sep cs), ih, h.1, h.2]
  | case4 c d cs h heq ih => exact absurd heq (splitDoubled_ne_nil sep _)
  | case5 c d cs h w ws heq ih =>
    rw [splitDoubled, if_neg h, heq]
    show List.intercalate [sep, sep] ((c :: w) :: ws) = _
    rw [hcons, ← heq, ih]

/-- A character of pieces put together is one of the separator or of a piece. -/
theorem mem_intercalate {c : Char} {sep : List Char} {pieces : List (List Char)}
    (h : c ∈ List.intercalate sep pieces) : c ∈ sep ∨ ∃ piece ∈ pieces, c ∈ piece := by
  induction pieces with
  | nil => exact absurd h List.not_mem_nil
  | cons piece pieces ih =>
    cases pieces with
    | nil =>
      rw [List.intercalate_singleton] at h
      exact Or.inr ⟨piece, List.mem_singleton.mpr rfl, h⟩
    | cons next pieces =>
      rw [List.intercalate_cons_cons, List.mem_append, List.mem_append] at h
      rcases h with (hmem | hmem) | hmem
      · exact Or.inr ⟨piece, List.mem_cons_self, hmem⟩
      · exact Or.inl hmem
      · rcases ih hmem with hsep | ⟨piece', hpiece', hmem⟩
        · exact Or.inl hsep
        · exact Or.inr ⟨piece', List.mem_cons_of_mem _ hpiece', hmem⟩

theorem notMem_intercalate {c : Char} {sep : List Char} (hsep : c ∉ sep) {pieces : List (List Char)}
    (h : ∀ piece ∈ pieces, c ∉ piece) : c ∉ List.intercalate sep pieces := by
  intro hmem
  rcases mem_intercalate hmem with hmem | ⟨piece, hpiece, hmem⟩
  · exact hsep hmem
  · exact h piece hpiece hmem

/-- A text without the separator is not cut. -/
theorem splitDoubled_of_notMem {sep : Char} {s : List Char} (h : sep ∉ s) :
    splitDoubled sep s = [s] := by
  induction s using splitDoubled.induct sep with
  | case1 => rfl
  | case2 c => rfl
  | case3 c d cs hsep ih => exact absurd (hsep.1 ▸ List.mem_cons_self) h
  | case4 c d cs hsep heq ih => exact absurd heq (splitDoubled_ne_nil sep _)
  | case5 c d cs hsep w ws heq ih =>
    have hrest := ih fun hmem => h (List.mem_cons_of_mem _ hmem)
    rw [splitDoubled, if_neg hsep, hrest]

/-- A text before a doubled separator is the first piece, unless it has one itself or makes
one together with it. -/
theorem splitDoubled_append {sep : Char} {a : List Char} (ha : splitDoubled sep a = [a])
    (hlast : a.getLast? ≠ some sep) (b : List Char) :
    splitDoubled sep (a ++ sep :: sep :: b) = a :: splitDoubled sep b := by
  induction a using splitDoubled.induct sep with
  | case1 => simp [splitDoubled]
  | case2 c =>
    have hc : c ≠ sep := by simpa using hlast
    simp [splitDoubled, hc]
  | case3 c d cs h ih => simp [splitDoubled, h] at ha
  | case4 c d cs h heq ih => simp [splitDoubled, h, heq] at ha
  | case5 c d cs h w ws heq ih =>
    rw [splitDoubled, if_neg h, heq] at ha
    obtain ⟨hw, rfl⟩ : w = d :: cs ∧ ws = [] := by simpa using ha
    subst hw
    have hrest := ih heq (by simpa [List.getLast?_cons_cons] using hlast)
    rw [List.cons_append, List.cons_append, splitDoubled, if_neg h, ← List.cons_append, hrest]

/-- The first piece of a text that goes on after a doubled separator. -/
theorem head?_splitDoubled_append {sep : Char} {a : List Char}
    (ha : 1 < (splitDoubled sep a).length) (b : List Char) :
    (splitDoubled sep (a ++ b)).head? = (splitDoubled sep a).head? := by
  induction a using splitDoubled.induct sep with
  | case1 => simp [splitDoubled] at ha
  | case2 c => simp [splitDoubled] at ha
  | case3 c d cs h ih => simp [splitDoubled, h]
  | case4 c d cs h heq ih => exact absurd heq (splitDoubled_ne_nil sep _)
  | case5 c d cs h w ws heq ih =>
    rw [splitDoubled, if_neg h, heq] at ha
    have hrest := ih (by simpa [heq] using ha)
    rw [heq] at hrest
    rw [List.cons_append, List.cons_append, splitDoubled, if_neg h, splitDoubled, if_neg h, heq,
      ← List.cons_append]
    cases hsplit : splitDoubled sep (d :: cs ++ b) with
    | nil => exact absurd hsplit (splitDoubled_ne_nil sep _)
    | cons w' ws' =>
      rw [hsplit, List.head?_cons, List.head?_cons, Option.some.injEq] at hrest
      rw [hrest]
      rfl

/-- A text that is not cut goes into the first piece of what follows another character. -/
theorem splitDoubled_append_cons {sep d : Char} (hd : d ≠ sep) {a : List Char}
    (ha : splitDoubled sep a = [a]) (b : List Char) :
    splitDoubled sep (a ++ d :: b) = (splitDoubled sep b).modifyHead (a ++ d :: ·) := by
  have hskip : splitDoubled sep (d :: b) = (splitDoubled sep b).modifyHead (d :: ·) := by
    cases b with
    | nil => rfl
    | cons e b =>
      rw [splitDoubled, if_neg fun h => hd h.1]
      cases hsplit : splitDoubled sep (e :: b) with
      | nil => exact absurd hsplit (splitDoubled_ne_nil sep _)
      | cons w ws => rfl
  -- by the cases of the splitting of `a`, which comes to no separator
  induction a using splitDoubled.induct sep with
  | case1 => exact hskip
  | case2 c =>
    rw [List.singleton_append, splitDoubled, if_neg fun h => hd h.2, hskip]
    cases hsplit : splitDoubled sep b with
    | nil => exact absurd hsplit (splitDoubled_ne_nil sep _)
    | cons w ws => rfl
  | case3 c e cs h ih => simp [splitDoubled, h] at ha
  | case4 c e cs h heq ih => exact absurd heq (splitDoubled_ne_nil sep _)
  | case5 c e cs h w ws heq ih =>
    rw [splitDoubled, if_neg h, heq] at ha
    obtain ⟨hw, rfl⟩ : w = e :: cs ∧ ws = [] := by simpa using ha
    subst hw
    rw [List.cons_append, List.cons_append, splitDoubled, if_neg h, ← List.cons_append, ih heq]
    cases hsplit : splitDoubled sep b with
    | nil => exact absurd hsplit (splitDoubled_ne_nil sep _)
    | cons w ws => rfl

/-! ### Texts put together with separators -/

theorem splitChars_eq_splitOn (sep : Char) (s : List Char) : splitChars sep s = s.splitOn sep := by
  induction s with
  | nil => rfl
  | cons c cs ih =>
    rw [splitChars, ih, List.splitOn_cons_eq_if_modifyHead]
    simp only [beq_iff_eq]
    cases hsplit : cs.splitOn sep with
    | nil => exact absurd hsplit (List.splitOn_ne_nil sep cs)
    | cons w ws => rfl

theorem splitOn_eq_map (sep : Char) (s : String) :
    splitOn sep s = (s.toList.splitOn sep).map String.ofList := by
  rw [splitOn, splitChars_eq_splitOn]

theorem splitOn_of_notMem {sep : Char} {s : String} (h : sep ∉ s.toList) : splitOn sep s = [s] := by
  rw [splitOn_eq_map, List.splitOn_eq_singleton h, List.map_singleton, String.ofList_toList]

/-- Texts put together are cut into the pieces of each. -/
theorem splitOn_intercalate {sep : Char} {sepText : String} (hsep : sepText.toList = [sep])
    {texts : List String} (hne : texts ≠ []) :
    splitOn sep (sepText.intercalate texts) = texts.flatMap (splitOn sep) := by
  induction texts with
  | nil => exact absurd rfl hne
  | cons t texts ih =>
    cases texts with
    | nil => simp
    | cons u texts =>
      have hih := ih (List.cons_ne_nil u texts)
      rw [splitOn_eq_map] at hih
      rw [String.intercalate_cons_cons, splitOn_eq_map, String.toList_append, String.toList_append,
        hsep, List.append_assoc, List.singleton_append, List.splitOn_append_cons_self,
        List.map_append, hih, ← splitOn_eq_map]
      rfl

/-- Texts without the separator come out as they went in. -/
theorem splitOn_intercalate_of_notMem {sep : Char} {sepText : String}
    (hsep : sepText.toList = [sep]) {texts : List String} (hne : texts ≠ [])
    (h : ∀ t ∈ texts, sep ∉ t.toList) : splitOn sep (sepText.intercalate texts) = texts := by
  rw [splitOn_intercalate hsep hne]
  have heq : ∀ t ∈ texts, splitOn sep t = [t] := fun t ht => splitOn_of_notMem (h t ht)
  rw [List.flatMap_congr heq, List.flatMap_singleton']

end Text
