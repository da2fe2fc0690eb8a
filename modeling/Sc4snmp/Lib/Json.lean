import Sc4snmp.Lib.PyFloat

/-!
# JSON texts

The texts a scripting language's encoder writes for values, against the grammar of RFC 8259.
The encoder writes the floating-point numbers that are not finite as bare words, which the
grammar does not have.

A text is scanned from left to right for these words: inside a string anything may stand, and
outside no text of the grammar has a capital `N` or `I`.

## Main definitions

* `Json`, `Json.dumps` — values and the encoder.
* `Json.finite` — no number of a value is infinite or not a number.
* `Json.Value`, `Json.Valid` — the grammar.
* `Json.scan` — the scan.

## Main results

* `scan_value` — the texts of the grammar pass the scan.
* `scan_chars` — the text of a value passes it exactly when the value is finite.
* `value_chars` — the text of a finite value is one of the grammar.
* `valid_dumps_iff` — **the encoder writes valid texts exactly for finite values**.
-/

/-- A value. -/
inductive Json
  | null
  | bool (b : Bool)
  | int (i : ℤ)
  | float (x : Float)
  | str (s : String)
  | arr (items : List Json)
  | obj (members : List (String × Json))

namespace Json

/-! ### The encoder -/

/-- The quotation mark, the backslash and the braces. -/
def quote : Char := Char.ofNat 34

def backslash : Char := Char.ofNat 92

def openBrace : Char := Char.ofNat 123

def closeBrace : Char := Char.ofNat 125

/-- Four hexadecimal digits. -/
def hex4 (n : ℕ) : List Char :=
  [n / 4096 % 16, n / 256 % 16, n / 16 % 16, n % 16].map Nat.digitChar

/-- A character outside of printable ASCII, or its two surrogates. -/
def escapeUnicode (n : ℕ) : List Char :=
  if n < 0x10000 then [backslash, 'u'] ++ hex4 n
  else [backslash, 'u'] ++ hex4 (0xd800 + (n - 0x10000) / 1024) ++
    ([backslash, 'u'] ++ hex4 (0xdc00 + (n - 0x10000) % 1024))

/-- How a character is written in a string. -/
def escapeChar (c : Char) : List Char :=
  if c = quote then [backslash, quote]
  else if c = backslash then [backslash, backslash]
  else if c.toNat = 10 then [backslash, 'n']
  else if c.toNat = 13 then [backslash, 'r']
  else if c.toNat = 9 then [backslash, 't']
  else if c.toNat = 12 then [backslash, 'f']
  else if c.toNat = 8 then [backslash, 'b']
  else if 32 ≤ c.toNat ∧ c.toNat ≤ 126 then [c]
  else escapeUnicode c.toNat

/-- A string, between quotation marks. -/
def stringChars (s : String) : List Char := quote :: s.toList.flatMap escapeChar ++ [quote]

/-- A floating-point number. -/
def floatChars (x : Float) : List Char :=
  match x.toModel.unpack with
  | .notANumber => "NaN".toList
  | .infinity sign => PyFloat.signText sign ++ "Infinity".toList
  | _ => PyFloat.repr x

mutual

/-- The text of a value. -/
def chars : Json → List Char
  | null => "null".toList
  | bool b => if b then "true".toList else "false".toList
  | int i => (toString i).toList
  | float x => floatChars x
  | str s => stringChars s
  | arr items => '[' :: itemsChars items ++ [']']
  | obj members => openBrace :: membersChars members ++ [closeBrace]

/-- The texts of some values, commas between them. -/
def itemsChars : List Json → List Char
  | [] => []
  | [j] => j.chars
  | j :: js => j.chars ++ ", ".toList ++ itemsChars js

/-- The texts of some members, commas between them. -/
def membersChars : List (String × Json) → List Char
  | [] => []
  | [(k, j)] => stringChars k ++ ": ".toList ++ j.chars
  | (k, j) :: ms => stringChars k ++ ": ".toList ++ j.chars ++ ", ".toList ++ membersChars ms

end

/-- `json.dumps`. -/
def dumps (j : Json) : String := String.ofList j.chars

mutual

/-- No number is infinite or not a number. -/
def finite : Json → Bool
  | float x => x.isFinite
  | arr items => itemsFinite items
  | obj members => membersFinite members
  | _ => true

def itemsFinite : List Json → Bool
  | [] => true
  | j :: js => j.finite && itemsFinite js

def membersFinite : List (String × Json) → Bool
  | [] => true
  | (_, j) :: ms => j.finite && membersFinite ms

end

/-- The value of a member. -/
def get? (k : String) : Json → Option Json
  | obj members => members.lookup k
  | _ => none

/-- The text, if the value is one. -/
def text? : Json → Option String
  | str s => some s
  | _ => none

/-- The truth value. -/
def truthy : Json → Bool
  | null => false
  | bool b => b
  | int i => i ≠ 0
  | float x => x != 0
  | str s => s ≠ ""
  | arr items => !items.isEmpty
  | obj members => !members.isEmpty

/-! ### The grammar -/

/-- White space. -/
def IsWs (cs : List Char) : Prop := ∀ c ∈ cs, c.toNat ∈ [0x20, 0x09, 0x0a, 0x0d]

/-- One digit or more. -/
def IsDigits (cs : List Char) : Prop := cs ≠ [] ∧ ∀ c ∈ cs, c.isDigit = true

/-- The part of a number in front of the point. -/
def IsInt (cs : List Char) : Prop := cs = ['0'] ∨ PyFloat.IsNumeral cs

def IsFraction (cs : List Char) : Prop := cs = [] ∨ ∃ ds, cs = '.' :: ds ∧ IsDigits ds

def IsExponent (cs : List Char) : Prop :=
  cs = [] ∨ ∃ c sign ds, cs = c :: sign ++ ds ∧ c ∈ ['e', 'E'] ∧ sign ∈ [[], ['+'], ['-']] ∧
    IsDigits ds

/-- A number. -/
def IsNumber (cs : List Char) : Prop :=
  ∃ sign whole fraction exponent, cs = sign ++ whole ++ fraction ++ exponent ∧
    sign ∈ [[], ['-']] ∧ IsInt whole ∧ IsFraction fraction ∧ IsExponent exponent

/-- A hexadecimal digit. -/
def isHex (c : Char) : Bool :=
  c.isDigit || (97 ≤ c.toNat && c.toNat ≤ 102) || (65 ≤ c.toNat && c.toNat ≤ 70)

/-- What may stand between the quotation marks of a string. -/
inductive Chars : List Char → Prop
  | nil : Chars []
  | unescaped {c cs} (hlow : 32 ≤ c.toNat) (hquote : c ≠ quote) (hbackslash : c ≠ backslash)
      (h : Chars cs) : Chars (c :: cs)
  | escape {c cs} (hc : c ∈ [quote, backslash, '/', 'b', 'f', 'n', 'r', 't']) (h : Chars cs) :
      Chars (backslash :: c :: cs)
  | unicode {hex cs} (hlength : hex.length = 4) (hhex : ∀ c ∈ hex, isHex c = true) (h : Chars cs) :
      Chars (backslash :: 'u' :: hex ++ cs)

/-- A text with white space around it. -/
structure Padded where
  before : List Char
  text : List Char
  after : List Char

/-- The whole of it. -/
def Padded.chars (p : Padded) : List Char := p.before ++ p.text ++ p.after

def Padded.IsPadded (p : Padded) : Prop := IsWs p.before ∧ IsWs p.after

/-- A string, between quotation marks. -/
def IsString (cs : List Char) : Prop := ∃ s, cs = quote :: s ++ [quote] ∧ Chars s

/-- The texts of values. -/
inductive Value : List Char → Prop
  | literal {cs} (h : cs ∈ ["null".toList, "true".toList, "false".toList]) : Value cs
  | number {cs} (h : IsNumber cs) : Value cs
  | string {cs} (h : IsString cs) : Value cs
  | emptyArray {w} (h : IsWs w) : Value ('[' :: w ++ [']'])
  | array {items : List Padded} (hne : items ≠ []) (hws : ∀ p ∈ items, p.IsPadded)
      (h : ∀ p ∈ items, Value p.text) :
      Value ('[' :: [','].intercalate (items.map Padded.chars) ++ [']'])
  | emptyObject {w} (h : IsWs w) : Value (openBrace :: w ++ [closeBrace])
  | object {members : List (Padded × Padded)} (hne : members ≠ [])
      (hws : ∀ m ∈ members, m.1.IsPadded ∧ m.2.IsPadded) (hname : ∀ m ∈ members, IsString m.1.text)
      (h : ∀ m ∈ members, Value m.2.text) :
      Value (openBrace :: [','].intercalate (members.map fun m => m.1.chars ++ ':' :: m.2.chars) ++
        [closeBrace])

/-- A JSON text. -/
def Valid (s : String) : Prop := ∃ p : Padded, s.toList = p.chars ∧ p.IsPadded ∧ Value p.text

/-! ### The scan -/

/-- Where the scan is: outside of strings, inside of one, or after a backslash there. -/
inductive Mode
  | outside
  | inside
  | escaped
  deriving DecidableEq

/-- One step of the scan; outside of strings `N` and `I` stop it. -/
def step : Mode → Char → Option Mode
  | .outside, c =>
      if c = quote then some .inside else if c ∈ ['N', 'I'] then none else some .outside
  | .inside, c =>
    if c = quote then some .outside else if c = backslash then some .escaped else some .inside
  | .escaped, _ => some .inside

/-- The scan of a text. -/
def scan : Mode → List Char → Option Mode
  | m, [] => some m
  | m, c :: cs => (step m c).bind fun m => scan m cs

theorem scan_append (m : Mode) (cs ds : List Char) :
    scan m (cs ++ ds) = (scan m cs).bind fun m => scan m ds := by
  induction cs generalizing m with
  | nil => rfl
  | cons c cs ih =>
    rw [List.cons_append, scan, scan]
    cases step m c with
    | none => rfl
    | some m => exact ih m

/-- A character that the scan passes outside of strings. -/
def isPlain (c : Char) : Bool := c ≠ quote && c ∉ ['N', 'I']

theorem scan_plain {cs : List Char} (h : ∀ c ∈ cs, isPlain c = true) :
    scan .outside cs = some .outside := by
  induction cs with
  | nil => rfl
  | cons c cs ih =>
    rw [List.forall_mem_cons] at h
    have hc : c ≠ quote ∧ c ∉ ['N', 'I'] := by simpa [isPlain] using h.1
    rw [scan, step, if_neg hc.1, if_neg hc.2]
    exact ih h.2

/-- The scan of a text from the outside: it comes back there, or stops. -/
def outcome (passes : Bool) : Option Mode := if passes then some .outside else none

theorem scan_append_outcome {cs ds : List Char} {a b : Bool} (hcs : scan .outside cs = outcome a)
    (hds : scan .outside ds = outcome b) : scan .outside (cs ++ ds) = outcome (a && b) := by
  rw [scan_append, hcs]
  cases a with
  | true => exact hds
  | false => rfl

theorem scan_plain_append {cs ds : List Char} (hcs : ∀ c ∈ cs, isPlain c = true) {b : Bool}
    (hds : scan .outside ds = outcome b) : scan .outside (cs ++ ds) = outcome b :=
  scan_append_outcome (a := true) (scan_plain hcs) hds

theorem scan_append_plain {cs ds : List Char} {b : Bool} (hcs : scan .outside cs = outcome b)
    (hds : ∀ c ∈ ds, isPlain c = true) : scan .outside (cs ++ ds) = outcome b := by
  rw [scan_append_outcome (b := true) hcs (scan_plain hds), Bool.and_true]

/-- A text in brackets. -/
theorem scan_bracketed {c d : Char} (hc : isPlain c = true) (hd : isPlain d = true)
    {cs : List Char} {b : Bool} (h : scan .outside cs = outcome b) :
    scan .outside (c :: cs ++ [d]) = outcome b := by
  rw [List.cons_append, ← List.singleton_append]
  exact scan_plain_append (by simpa using hc) (scan_append_plain h (by simpa using hd))

/-! ### The texts of the grammar pass -/

theorem isPlain_of_isDigit {c : Char} (h : c.isDigit = true) : isPlain c = true := by
  have hrange : 48 ≤ c.toNat ∧ c.toNat ≤ 57 := Char.isDigit_iff_toNat.mp h
  have hne : ∀ d : Char, d.toNat < 48 ∨ 57 < d.toNat → c ≠ d := by
    rintro d hd rfl
    omega
  have hN := hne 'N' (by decide)
  have hI := hne 'I' (by decide)
  have hquote := hne quote (by decide)
  simp [isPlain, hN, hI, hquote]

theorem isPlain_of_isWs {cs : List Char} (h : IsWs cs) : ∀ c ∈ cs, isPlain c = true := by
  intro c hc
  have hc := h c hc
  simp only [isPlain, List.mem_cons, List.not_mem_nil, or_false, Bool.and_eq_true,
    decide_eq_true_eq, not_or] at hc ⊢
  refine ⟨?_, ?_, ?_⟩ <;> rintro rfl <;> revert hc <;> decide

theorem isPlain_of_isNumeral {cs : List Char} (h : PyFloat.IsNumeral cs) :
    ∀ c ∈ cs, isPlain c = true := by
  obtain ⟨d, ds, rfl, -, hdigits⟩ := h
  exact fun c hc => isPlain_of_isDigit (hdigits c hc)

theorem isPlain_of_isNumber {cs : List Char} (h : IsNumber cs) : ∀ c ∈ cs, isPlain c = true := by
  obtain ⟨sign, whole, fraction, exponent, rfl, hsign, hwhole, hfraction, hexponent⟩ := h
  have hsigns : ∀ s ∈ [[], ['+'], ['-']], s.all isPlain = true := by decide
  have hsigns : ∀ s ∈ [[], ['+'], ['-']], ∀ c ∈ s, isPlain c = true :=
    fun s hs => List.all_eq_true.mp (hsigns s hs)
  simp only [List.forall_mem_append]
  refine ⟨⟨⟨hsigns sign ?_, ?_⟩, ?_⟩, ?_⟩
  · rcases List.mem_pair.mp hsign with rfl | rfl <;> decide
  · rcases hwhole with rfl | hwhole
    · exact List.all_eq_true.mp rfl
    · exact isPlain_of_isNumeral hwhole
  · rcases hfraction with rfl | ⟨ds, rfl, -, hds⟩
    · exact fun c hc => by cases hc
    · exact List.forall_mem_cons.mpr ⟨by decide, fun c hc => isPlain_of_isDigit (hds c hc)⟩
  · rcases hexponent with rfl | ⟨c, s, ds, rfl, hc, hs, -, hds⟩
    · exact fun c hc => by cases hc
    · rw [List.cons_append, List.forall_mem_cons, List.forall_mem_append]
      refine ⟨?_, hsigns s hs, fun c hc => isPlain_of_isDigit (hds c hc)⟩
      rcases List.mem_pair.mp hc with rfl | rfl <;> decide

theorem isHex_spec {c : Char} (h : isHex c = true) : c ≠ quote ∧ c ≠ backslash := by
  constructor <;> rintro rfl <;> revert h <;> decide

/-- The inside of a string passes, and is left by the quotation mark. -/
theorem scan_inside {cs : List Char} (h : Chars cs) (ds : List Char) :
    scan .inside (cs ++ ds) = scan .inside ds := by
  induction h with
  | nil => rfl
  | unescaped _ hquote hbackslash _ ih =>
    rw [List.cons_append, scan, step, if_neg hquote, if_neg hbackslash]
    exact ih
  | escape _ _ ih => exact ih
  | @unicode hex cs hlength hhex _ ih =>
    have hskip : ∀ hex : List Char, (∀ c ∈ hex, isHex c = true) →
        scan .inside (hex ++ (cs ++ ds)) = scan .inside (cs ++ ds) := by
      intro hex hhex
      induction hex with
      | nil => rfl
      | cons c hex ihhex =>
        rw [List.forall_mem_cons] at hhex
        obtain ⟨hquote, hbackslash⟩ := isHex_spec hhex.1
        rw [List.cons_append, scan, step, if_neg hquote, if_neg hbackslash]
        exact ihhex hhex.2
    show scan .inside (hex ++ cs ++ ds) = _
    rw [List.append_assoc, hskip hex hhex, ih]

theorem scan_string {cs : List Char} (h : IsString cs) : scan .outside cs = outcome true := by
  obtain ⟨s, rfl, hs⟩ := h
  show scan .inside (s ++ [quote]) = _
  rw [scan_inside hs]
  rfl

theorem scan_padded {p : Padded} (hws : p.IsPadded) {b : Bool}
    (h : scan .outside p.text = outcome b) : scan .outside p.chars = outcome b :=
  scan_append_plain (scan_plain_append (isPlain_of_isWs hws.1) h) (isPlain_of_isWs hws.2)

theorem scan_intercalate {parts : List (List Char)}
    (h : ∀ p ∈ parts, scan .outside p = outcome true) :
    scan .outside ([','].intercalate parts) = outcome true := by
  induction parts with
  | nil => rfl
  | cons p parts ih =>
    rw [List.forall_mem_cons] at h
    cases parts with
    | nil => simpa using h.1
    | cons q parts =>
      rw [List.intercalate_cons_cons]
      exact scan_append_outcome (scan_append_plain h.1 (List.all_eq_true.mp rfl)) (ih h.2)

/-- **The texts of the grammar pass the scan.** -/
theorem scan_value {cs : List Char} (h : Value cs) : scan .outside cs = outcome true := by
  induction h with
  | literal h =>
    simp only [List.mem_cons, List.not_mem_nil, or_false] at h
    rcases h with rfl | rfl | rfl <;> decide
  | number h => exact scan_plain (isPlain_of_isNumber h)
  | string h => exact scan_string h
  | emptyArray h => exact scan_bracketed (by decide) (by decide) (scan_plain (isPlain_of_isWs h))
  | array _ hws _ ih =>
    apply scan_bracketed (by decide) (by decide)
    apply scan_intercalate
    intro q hq
    obtain ⟨p, hp, rfl⟩ := List.mem_map.mp hq
    exact scan_padded (hws p hp) (ih p hp)
  | emptyObject h => exact scan_bracketed (by decide) (by decide) (scan_plain (isPlain_of_isWs h))
  | object _ hws hname _ ih =>
    apply scan_bracketed (by decide) (by decide)
    apply scan_intercalate
    intro q hq
    obtain ⟨m, hm, rfl⟩ := List.mem_map.mp hq
    have hvalue := scan_padded (hws m hm).2 (ih m hm)
    exact scan_append_outcome (scan_padded (hws m hm).1 (scan_string (hname m hm)))
      (@scan_plain_append [':'] _ (List.all_eq_true.mp rfl) _ hvalue)

theorem scan_valid {s : String} (h : Valid s) : scan .outside s.toList = outcome true := by
  obtain ⟨p, hp, hws, hvalue⟩ := h
  rw [hp]
  exact scan_padded hws (scan_value hvalue)

/-! ### The texts of values -/

theorem isDigits_replicate_append {ds : List Char} (hne : ds ≠ []) (h : ∀ c ∈ ds, c.isDigit = true)
    (n : ℕ) : IsDigits (List.replicate n '0' ++ ds) := by
  refine ⟨by simp [hne], ?_⟩
  rw [List.forall_mem_append]
  refine ⟨fun c hc => ?_, h⟩
  rw [List.eq_of_mem_replicate hc]
  decide

/-- Printed digits are a number, without a sign. -/
theorem layout_spec {ds : List Char} (h : PyFloat.IsNumeral ds) (point : ℤ) :
    ∃ whole fraction exponent, PyFloat.layout ds point = whole ++ fraction ++ exponent ∧
      IsInt whole ∧ IsFraction fraction ∧ IsExponent exponent := by
  obtain ⟨c, cs, rfl, hc, hdigits⟩ := h
  unfold PyFloat.layout
  split
  · -- one digit, the others after the point, and an exponent
    refine ⟨[c], if (c :: cs).length ≤ 1 then [] else '.' :: cs, _, rfl, ?_, ?_, Or.inr
      ⟨'e', [if point ≤ 0 then '-' else '+'], PyFloat.exponentDigits (point - 1).natAbs, ?_, ?_, ?_,
        ?_, fun d hd => PyFloat.isDigit_of_mem_exponentDigits hd⟩⟩
    · refine Or.inr ⟨c, [], rfl, hc, fun d hd => hdigits d ?_⟩
      rw [List.mem_singleton.mp hd]
      exact List.mem_cons_self
    · split
      · exact Or.inl rfl
      · next hlength =>
        refine Or.inr ⟨cs, rfl, fun hnil => hlength (by simp [hnil]), fun d hd => ?_⟩
        exact hdigits d (List.mem_cons_of_mem c hd)
    · split <;> rfl
    · decide
    · split <;> decide
    · unfold PyFloat.exponentDigits
      split
      · exact List.cons_ne_nil _ _
      · exact Nat.toDigits_ne_nil
  split
  · -- a number below one
    refine ⟨['0'], '.' :: (List.replicate (-point).toNat '0' ++ c :: cs), [], by simp, Or.inl rfl,
      Or.inr ⟨_, rfl, isDigits_replicate_append (List.cons_ne_nil c cs) hdigits _⟩, Or.inl rfl⟩
  split
  · -- an integer
    refine ⟨c :: cs ++ List.replicate (point.toNat - (c :: cs).length) '0', ['.', '0'], [], by simp,
      Or.inr ⟨c, cs ++ List.replicate _ '0', rfl, hc, ?_⟩,
      Or.inr ⟨['0'], rfl, by simp, List.all_eq_true.mp rfl⟩, Or.inl rfl⟩
    refine List.forall_mem_append.mpr ⟨hdigits, fun d hd => ?_⟩
    rw [List.eq_of_mem_replicate hd]
    decide
  · next hpos hlength =>
    -- digits on both sides of the point
    obtain ⟨n, hn⟩ : ∃ n, point.toNat = n + 1 := ⟨point.toNat - 1, by omega⟩
    rw [hn] at hlength ⊢
    refine ⟨(c :: cs).take (n + 1), '.' :: (c :: cs).drop (n + 1), [], by simp, Or.inr
      ⟨c, cs.take n, rfl, hc, fun d hd => hdigits d ?_⟩, Or.inr ⟨_, rfl, ?_, fun d hd => ?_⟩,
      Or.inl rfl⟩
    · exact List.mem_of_mem_take (i := n + 1) hd
    · exact fun hnil => hlength (List.drop_eq_nil_iff.mp hnil)
    · exact hdigits d (List.mem_of_mem_drop hd)

theorem signText_mem (sign : Float.Model.UnpackedFloat.Sign) :
    PyFloat.signText sign ∈ [[], ['-']] := by
  cases sign <;> decide

/-- A finite number is written as a number. -/
theorem isNumber_floatChars {x : Float} (h : x.isFinite = true) : IsNumber (floatChars x) := by
  have hfinite : x.toModel.unpack.isFinite = true := h
  unfold floatChars PyFloat.repr
  cases hx : x.toModel.unpack with
  | notANumber =>
    rw [hx] at hfinite
    cases hfinite
  | infinity sign =>
    rw [hx] at hfinite
    cases hfinite
  | zero sign =>
    exact ⟨_, ['0'], ['.', '0'], [], by simp, signText_mem sign, Or.inl rfl,
      Or.inr ⟨['0'], rfl, by simp, List.all_eq_true.mp rfl⟩, Or.inl rfl⟩
  | finite sign m e hm =>
    obtain ⟨whole, fraction, exponent, hlayout, hwhole, hfraction, hexponent⟩ :=
      layout_spec (PyFloat.digits_spec hm e) (PyFloat.digits m e).2
    refine ⟨PyFloat.signText sign, whole, fraction, exponent, ?_, signText_mem sign, hwhole,
      hfraction,
      hexponent⟩
    dsimp only
    rw [hlayout]
    simp

/-- The others stop the scan. -/
theorem scan_floatChars (x : Float) : scan .outside (floatChars x) = outcome x.isFinite := by
  by_cases h : x.isFinite = true
  · rw [h]
    exact scan_plain (isPlain_of_isNumber (isNumber_floatChars h))
  · have hfinite : ¬ x.toModel.unpack.isFinite = true := h
    rw [Bool.not_eq_true] at h
    rw [h]
    unfold floatChars
    cases hx : x.toModel.unpack with
    | notANumber => rfl
    | infinity sign => cases sign <;> rfl
    | zero sign =>
      rw [hx] at hfinite
      exact absurd rfl hfinite
    | finite sign m e hm =>
      rw [hx] at hfinite
      exact absurd rfl hfinite

theorem isNumber_int (i : ℤ) : IsNumber (toString i).toList := by
  have hint : ∀ n : ℕ, IsInt (Nat.toDigits 10 n) := by
    intro n
    by_cases hn : n = 0
    · subst hn
      exact Or.inl (Nat.toDigits_zero 10)
    · exact Or.inr (PyFloat.isNumeral_toDigits hn)
  cases i with
  | ofNat n =>
    have hlist : (toString (Int.ofNat n)).toList = Nat.toDigits 10 n := Nat.toList_repr
    rw [hlist]
    exact ⟨[], _, [], [], by simp, by simp, hint n, Or.inl rfl, Or.inl rfl⟩
  | negSucc n =>
    have hlist : (toString (Int.negSucc n)).toList = '-' :: Nat.toDigits 10 (n + 1) := by
      have hminus : toString (Int.negSucc n) = "-" ++ Nat.repr (n + 1) := rfl
      rw [hminus, String.toList_append, Nat.toList_repr]
      rfl
    rw [hlist]
    exact ⟨['-'], _, [], [], by simp, by simp, hint (n + 1), Or.inl rfl, Or.inl rfl⟩

/-! #### Strings -/

theorem isHex_digitChar {n : ℕ} (hn : n < 16) : isHex n.digitChar = true := by
  interval_cases n <;> decide

theorem chars_hex4 (n : ℕ) {cs : List Char} (h : Chars cs) :
    Chars ([backslash, 'u'] ++ hex4 n ++ cs) := by
  refine Chars.unicode rfl (fun c hc => ?_) h
  obtain ⟨d, hd, rfl⟩ := List.mem_map.mp hc
  refine isHex_digitChar ?_
  simp only [List.mem_cons, List.not_mem_nil, or_false] at hd
  omega

theorem chars_escapeChar (c : Char) {cs : List Char} (h : Chars cs) :
    Chars (escapeChar c ++ cs) := by
  unfold escapeChar
  split
  · exact Chars.escape (by decide) h
  split
  · exact Chars.escape (by decide) h
  split
  · exact Chars.escape (by decide) h
  split
  · exact Chars.escape (by decide) h
  split
  · exact Chars.escape (by decide) h
  split
  · exact Chars.escape (by decide) h
  split
  · exact Chars.escape (by decide) h
  split
  · next hquote hbackslash _ _ _ _ _ hrange => exact Chars.unescaped hrange.1 hquote hbackslash h
  · unfold escapeUnicode
    split
    · exact chars_hex4 _ h
    · rw [List.append_assoc]
      exact chars_hex4 _ (chars_hex4 _ h)

theorem isString_stringChars (s : String) : IsString (stringChars s) := by
  refine ⟨s.toList.flatMap escapeChar, rfl, ?_⟩
  induction s.toList with
  | nil => exact Chars.nil
  | cons c cs ih => exact chars_escapeChar c ih

/-! #### The scan and the grammar -/

theorem scan_stringChars (s : String) : scan .outside (stringChars s) = outcome true :=
  scan_string (isString_stringChars s)

/-- A member, with what comes after it. -/
theorem scan_member {k : String} {cs : List Char} {b : Bool}
    (h : scan .outside cs = outcome b) :
    scan .outside (stringChars k ++ ": ".toList ++ cs) = outcome b := by
  have hkey := @scan_append_plain _ ": ".toList _ (scan_stringChars k) (List.all_eq_true.mp rfl)
  have hmember := scan_append_outcome hkey h
  rwa [Bool.true_and] at hmember

mutual

/-- **The text of a value passes the scan exactly when the value is finite.** -/
theorem scan_chars : ∀ j : Json, scan .outside j.chars = outcome j.finite
  | null => by decide
  | bool b => by cases b <;> decide
  | int i => scan_plain (isPlain_of_isNumber (isNumber_int i))
  | float x => scan_floatChars x
  | str s => scan_stringChars s
  | arr items => scan_bracketed (by decide) (by decide) (scan_itemsChars items)
  | obj members => scan_bracketed (by decide) (by decide) (scan_membersChars members)

theorem scan_itemsChars : ∀ js : List Json,
    scan .outside (itemsChars js) = outcome (itemsFinite js)
  | [] => rfl
  | [j] => by
    rw [itemsChars, itemsFinite, itemsFinite, Bool.and_true]
    exact scan_chars j
  | j :: j' :: js => by
    rw [itemsChars, itemsFinite]
    · have hfirst := @scan_append_plain _ ", ".toList _ (scan_chars j) (List.all_eq_true.mp rfl)
      exact scan_append_outcome hfirst (scan_itemsChars (j' :: js))
    · exact List.cons_ne_nil j' js

theorem scan_membersChars : ∀ ms : List (String × Json),
    scan .outside (membersChars ms) = outcome (membersFinite ms)
  | [] => rfl
  | [(k, j)] => by
    rw [membersChars, membersFinite, membersFinite, Bool.and_true]
    exact scan_member (scan_chars j)
  | (k, j) :: m :: ms => by
    rw [membersChars, membersFinite]
    · have hmember := @scan_member k _ _ (scan_chars j)
      have hfirst := @scan_append_plain _ ", ".toList _ hmember (List.all_eq_true.mp rfl)
      exact scan_append_outcome hfirst (scan_membersChars (m :: ms))
    · exact List.cons_ne_nil m ms

end

/-- A text without white space around it. -/
def bare (cs : List Char) : Padded := ⟨[], cs, []⟩

/-- One more blank in front of a text. -/
def Padded.spaced (p : Padded) : Padded := { p with before := ' ' :: p.before }

theorem isPadded_bare (cs : List Char) : (bare cs).IsPadded :=
  ⟨List.forall_mem_nil _, List.forall_mem_nil _⟩

theorem Padded.IsPadded.spaced {p : Padded} (h : p.IsPadded) : p.spaced.IsPadded :=
  ⟨List.forall_mem_cons.mpr ⟨by decide, h.1⟩, h.2⟩

theorem intercalate_map_cons {α : Type} (f : α → List Char) (x y : α) (xs : List α) (c : Char)
    {x' : α} (hx : f x' = c :: f x) :
    f y ++ ',' :: c :: [','].intercalate ((x :: xs).map f) =
      [','].intercalate ((y :: x' :: xs).map f) := by
  rw [List.map_cons, List.map_cons, List.map_cons, List.intercalate_cons_cons, hx]
  cases xs with
  | nil => simp
  | cons z zs =>
    rw [List.map_cons, List.intercalate_cons_cons, List.intercalate_cons_cons]
    simp

/-- A member in the grammar. -/
def memberChars (m : Padded × Padded) : List Char := m.1.chars ++ ':' :: m.2.chars

mutual

/-- **The text of a finite value is one of the grammar.** -/
theorem value_chars : ∀ j : Json, j.finite = true → Value j.chars
  | null, _ => Value.literal (by decide)
  | bool b, _ => Value.literal (by cases b <;> decide)
  | int i, _ => Value.number (isNumber_int i)
  | float _, h => Value.number (isNumber_floatChars h)
  | str s, _ => Value.string (isString_stringChars s)
  | arr [], _ => Value.emptyArray (List.forall_mem_nil _)
  | arr (j :: js), h => by
    obtain ⟨items, hne, hchars, hitems⟩ := items_spec (j :: js) (List.cons_ne_nil j js) h
    show Value ('[' :: itemsChars (j :: js) ++ [']'])
    rw [hchars]
    exact Value.array hne (fun p hp => (hitems p hp).1) fun p hp => (hitems p hp).2
  | obj [], _ => Value.emptyObject (List.forall_mem_nil _)
  | obj (m :: ms), h => by
    obtain ⟨members, hne, hchars, hmembers⟩ := members_spec (m :: ms) (List.cons_ne_nil m ms) h
    show Value (openBrace :: membersChars (m :: ms) ++ [closeBrace])
    rw [hchars]
    exact Value.object hne (fun p hp => (hmembers p hp).1) (fun p hp => (hmembers p hp).2.1)
      fun p hp => (hmembers p hp).2.2

theorem items_spec : ∀ js : List Json, js ≠ [] → itemsFinite js = true → ∃ items : List Padded,
    items ≠ [] ∧ itemsChars js = [','].intercalate (items.map Padded.chars) ∧
      ∀ p ∈ items, p.IsPadded ∧ Value p.text
  | [], hne, _ => absurd rfl hne
  | [j], _, h => by
    rw [itemsFinite, itemsFinite, Bool.and_true] at h
    refine ⟨[bare j.chars], List.cons_ne_nil _ _, by simp [itemsChars, bare, Padded.chars], ?_⟩
    exact List.forall_mem_singleton.mpr ⟨isPadded_bare _, value_chars j h⟩
  | j :: j' :: js, _, h => by
    rw [itemsFinite, Bool.and_eq_true] at h
    obtain ⟨items, hne, hchars, hitems⟩ := items_spec (j' :: js) (List.cons_ne_nil j' js) h.2
    obtain ⟨p, ps, rfl⟩ := List.exists_cons_of_ne_nil hne
    rw [List.forall_mem_cons] at hitems
    refine ⟨bare j.chars :: p.spaced :: ps, List.cons_ne_nil _ _, ?_, ?_⟩
    · rw [itemsChars, hchars, ← intercalate_map_cons Padded.chars p (bare j.chars) ps ' ' rfl]
      · simp [bare, Padded.chars]
      · exact List.cons_ne_nil j' js
    · rw [List.forall_mem_cons, List.forall_mem_cons]
      exact ⟨⟨isPadded_bare _, value_chars j h.1⟩, ⟨hitems.1.1.spaced, hitems.1.2⟩, hitems.2⟩

theorem members_spec : ∀ ms : List (String × Json), ms ≠ [] → membersFinite ms = true →
    ∃ members : List (Padded × Padded), members ≠ [] ∧
      membersChars ms = [','].intercalate (members.map memberChars) ∧
      ∀ m ∈ members, (m.1.IsPadded ∧ m.2.IsPadded) ∧ IsString m.1.text ∧ Value m.2.text
  | [], hne, _ => absurd rfl hne
  | [(k, j)], _, h => by
    rw [membersFinite, membersFinite, Bool.and_true] at h
    refine ⟨[(bare (stringChars k), (bare j.chars).spaced)], List.cons_ne_nil _ _,
      by simp [membersChars, memberChars, bare, Padded.spaced, Padded.chars], ?_⟩
    exact List.forall_mem_singleton.mpr ⟨⟨isPadded_bare _, (isPadded_bare _).spaced⟩,
      isString_stringChars k, value_chars j h⟩
  | (k, j) :: m :: ms, _, h => by
    rw [membersFinite, Bool.and_eq_true] at h
    obtain ⟨members, hne, hchars, hmembers⟩ := members_spec (m :: ms) (List.cons_ne_nil m ms) h.2
    obtain ⟨n, ns, rfl⟩ := List.exists_cons_of_ne_nil hne
    rw [List.forall_mem_cons] at hmembers
    refine ⟨(bare (stringChars k), (bare j.chars).spaced) :: (n.1.spaced, n.2) :: ns,
      List.cons_ne_nil _ _, ?_, ?_⟩
    · rw [membersChars, hchars, ← intercalate_map_cons memberChars n
        (bare (stringChars k), (bare j.chars).spaced) ns ' ' rfl]
      · simp [memberChars, bare, Padded.spaced, Padded.chars]
      · exact List.cons_ne_nil m ms
    · rw [List.forall_mem_cons, List.forall_mem_cons]
      exact ⟨⟨⟨isPadded_bare _, (isPadded_bare _).spaced⟩, isString_stringChars k,
        value_chars j h.1⟩,
        ⟨⟨hmembers.1.1.1.spaced, hmembers.1.1.2⟩, hmembers.1.2⟩, hmembers.2⟩

end

/-- **The encoder writes valid texts exactly for finite values.** -/
theorem valid_dumps_iff (j : Json) : Valid j.dumps ↔ j.finite = true := by
  have hlist : j.dumps.toList = j.chars := String.toList_ofList
  constructor
  · intro h
    have hscan := scan_valid h
    rw [hlist, scan_chars] at hscan
    cases hfinite : j.finite with
    | true => rfl
    | false =>
      rw [hfinite] at hscan
      cases hscan
  · intro h
    exact ⟨bare j.chars, by rw [hlist]; simp [bare, Padded.chars], isPadded_bare _, value_chars j h⟩

end Json
