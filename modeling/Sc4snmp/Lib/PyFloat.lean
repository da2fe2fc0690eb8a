import Mathlib.Tactic.IntervalCases
import Sc4snmp.Lib.Text

/-!
# Floating-point numbers as texts

The double a text denotes, and the shortest text that denotes a double, as a scripting language
reads and prints them.

## Main definitions

* `PyFloat.ofText` — `float` of a text.
* `PyFloat.ofInt` — `float` of an integer.
* `PyFloat.shortest`, `PyFloat.repr` — the shortest digits that denote a number, and `repr`.

## Main results

* `isSome_ofText` — `float` takes the texts of `Text.isFloat`.
* `digits_spec` — the digits that are printed are a numeral without leading zeros.
-/

namespace PyFloat

open Float.Model (UnpackedFloat)

/-! ### Reading -/

/-- Not a number, and the infinities. -/
def nan : Float := .ofModel (.pack .notANumber)

def infinity : Float := .ofModel (.pack (.infinity .positive))

/-- The number a list of digits denotes; other characters do not count. -/
def digitsNat (cs : List Char) : ℕ :=
  (cs.filterMap Text.decimalValue).foldl (fun n d => 10 * n + d) 0

/-- The value of an exponent. -/
def exponentValue : List Char → ℤ
  | '-' :: cs => -(digitsNat cs : ℤ)
  | cs => digitsNat cs

/-- The double nearest to `m * 10 ^ e`. -/
def scientific (m : ℕ) (e : ℤ) : Float := Float.ofScientific m (decide (e < 0)) e.natAbs

/-- The double nearest to a decimal number without sign. -/
def ofDecimal (cs : List Char) : Float :=
  let mantissa := cs.takeWhile fun c => c ≠ 'e' && c ≠ 'E'
  let exponent := cs.drop (mantissa.length + 1)
  let whole := mantissa.takeWhile (· ≠ '.')
  let fraction := (mantissa.drop (whole.length + 1)).filterMap Text.decimalValue
  scientific (digitsNat mantissa) (exponentValue exponent - fraction.length)

/-- Texts are compared as lists of characters. -/
local instance instLawfulBEqChars : LawfulBEq (List Char) := inferInstance

/-- The double a text without sign denotes. -/
def ofUnsigned (cs : List Char) : Float :=
  if cs.map Char.toLower = "nan".toList then nan
  else if cs.map Char.toLower ∈ ["inf".toList, "infinity".toList] then infinity
  else ofDecimal cs

/-- `float` of a text.  As documented, `U+001C` to `U+001F` are white space around it; CPython
refuses them in ASCII texts. -/
def ofText (s : String) : Option Float :=
  if Text.isFloat s then
    match Text.strip s.toList with
    | '+' :: cs => some (ofUnsigned cs)
    | '-' :: cs => some (-(ofUnsigned cs))
    | cs => some (ofUnsigned cs)
  else none

/-- `float` of an integer, which may be too large. -/
def ofInt (i : ℤ) : Option Float :=
  let x := Float.ofInt i
  if x.isFinite then some x else none

theorem isFinite_ofInt_zero : (Float.ofInt 0).isFinite = true := by decide +kernel

@[simp] theorem isSome_ofText (s : String) : (ofText s).isSome = Text.isFloat s := by
  unfold ofText
  split
  · next h =>
    rw [h]
    split <;> rfl
  · next h =>
    rw [Bool.not_eq_true] at h
    rw [h]
    rfl

example : (ofText "1.5e1" = some (scientific 15 0)) ∧ ofText " -nan" = some (-nan) := by
  decide +kernel

/-! ### The shortest digits -/

/-- The number of digits in front of the point of `m * 2 ^ e`; of a number below one, less the
zeros after the point. -/
def pointPosition (m : ℕ) (e : ℤ) : ℤ :=
  let scaled := m * 2 ^ e.toNat * 10 ^ 400 / 2 ^ (-e).toNat
  (Nat.toDigits 10 scaled).length - 400

/-- The numbers of `p` digits on both sides of `m * 2 ^ e`, the nearer one first, with their
exponent of ten. -/
def candidates (m : ℕ) (e : ℤ) (p : ℕ) : List (ℕ × ℤ) :=
  let k := pointPosition m e - p
  let numerator := m * 2 ^ e.toNat * 10 ^ (-k).toNat
  let denominator := 2 ^ (-e).toNat * 10 ^ k.toNat
  let below := numerator / denominator
  let rest := 2 * (numerator % denominator)
  if rest < denominator ∨ rest = denominator ∧ below % 2 = 0 then [(below, k), (below + 1, k)]
  else [(below + 1, k), (below, k)]

/-- All digits of `m * 2 ^ e`. -/
def exactDigits (m : ℕ) (e : ℤ) : ℕ × ℤ :=
  if 0 ≤ e then (m * 2 ^ e.toNat, 0) else (m * 5 ^ (-e).toNat, e)

/-- The double `m * 2 ^ e`. -/
def ofParts (m : ℕ) (e : ℤ) : Float :=
  .ofModel (.pack (if h : 0 < m then .finite .positive m e h else .zero .positive))

/-- Whether digits denote a number. -/
def denotes (x : Float) (c : ℕ × ℤ) : Bool := c.1 != 0 && decide (scientific c.1 c.2 = x)

/-- The fewest digits that denote a number, with their exponent of ten; seventeen suffice. -/
def fewest (x : Float) (m : ℕ) (e : ℤ) : ℕ × ℤ :=
  ((List.range 17).findSome? fun p => (candidates m e (p + 1)).find? (denotes x)).getD
    (exactDigits m e)

/-- The fewest digits that denote `m * 2 ^ e`. -/
def shortest (m : ℕ) (e : ℤ) : ℕ × ℤ := fewest (ofParts m e) m e

/-- The digits without the zeros at their end. -/
def trimZeros (ds : List Char) : List Char := (ds.reverse.dropWhile (· = '0')).reverse

/-! ### Printing -/

/-- The digits of an exponent, two at least. -/
def exponentDigits (n : ℕ) : List Char :=
  if n < 10 then '0' :: Nat.toDigits 10 n else Nat.toDigits 10 n

/-- Digits with the point after some of them, or with an exponent. -/
def layout (ds : List Char) (point : ℤ) : List Char :=
  if point ≤ -4 ∨ 16 < point then
    ds.take 1 ++ (if ds.length ≤ 1 then [] else '.' :: ds.drop 1) ++
      'e' :: (if point ≤ 0 then '-' else '+') :: exponentDigits (point - 1).natAbs
  else if point ≤ 0 then '0' :: '.' :: (List.replicate (-point).toNat '0' ++ ds)
  else if ds.length ≤ point.toNat then
    ds ++ List.replicate (point.toNat - ds.length) '0' ++ ['.', '0']
  else ds.take point.toNat ++ '.' :: ds.drop point.toNat

/-- The digits of a number, and the place of its point. -/
def digits (m : ℕ) (e : ℤ) : List Char × ℤ :=
  let numeral := Nat.toDigits 10 (shortest m e).1
  (trimZeros numeral, numeral.length + (shortest m e).2)

/-- The sign of a number. -/
def signText : Float.Model.UnpackedFloat.Sign → List Char
  | .positive => []
  | .negative => ['-']

/-- `repr` of a number. -/
def repr (x : Float) : List Char :=
  match x.toModel.unpack with
  | .notANumber => "nan".toList
  | .infinity sign => signText sign ++ "inf".toList
  | .zero sign => signText sign ++ "0.0".toList
  | .finite sign m e _ => signText sign ++ layout (digits m e).1 (digits m e).2

/-! ### The digits that are printed -/

/-- A numeral of ASCII digits without leading zeros. -/
def IsNumeral (ds : List Char) : Prop :=
  ∃ c cs, ds = c :: cs ∧ c ≠ '0' ∧ ∀ d ∈ c :: cs, d.isDigit = true

/-- The numeral of a positive number. -/
theorem isNumeral_toDigits {n : ℕ} (hn : n ≠ 0) : IsNumeral (Nat.toDigits 10 n) := by
  have hdigits : ∀ d ∈ Nat.toDigits 10 n, d.isDigit = true := fun d hd =>
    Nat.isDigit_of_mem_toDigits (by decide) (by decide) hd
  suffices hhead : ∃ c cs, Nat.toDigits 10 n = c :: cs ∧ c ≠ '0' by
    obtain ⟨c, cs, heq, hc⟩ := hhead
    exact ⟨c, cs, heq, hc, heq ▸ hdigits⟩
  clear hdigits
  induction n using Nat.strong_induction_on with
  | _ n ih =>
    by_cases hlt : n < 10
    · refine ⟨n.digitChar, [], Nat.toDigits_of_lt_base hlt, ?_⟩
      interval_cases n <;> first | exact absurd rfl hn | decide
    · -- the first digit is that of the number without its last one
      obtain ⟨c, cs, heq, hc⟩ := ih (n / 10) (by omega) (by omega)
      refine ⟨c, cs ++ [(n % 10).digitChar], ?_, hc⟩
      rw [Nat.toDigits_of_base_le (by decide) (by omega), heq]
      rfl

theorem isNumeral_trimZeros {ds : List Char} (h : IsNumeral ds) : IsNumeral (trimZeros ds) := by
  obtain ⟨c, cs, rfl, hc, hdigits⟩ := h
  -- the zeros that go are not the first digit
  have hsplit : (c :: cs).reverse.dropWhile (· = '0') =
    (cs.reverse.dropWhile (· = '0')) ++ [c] := by
    rw [List.reverse_cons, List.dropWhile_append]
    split
    · next hempty =>
      rw [List.isEmpty_iff] at hempty
      rw [hempty, List.nil_append, List.dropWhile_cons_of_neg (by simpa using hc)]
    · rfl
  unfold trimZeros
  rw [hsplit, List.reverse_append]
  refine ⟨c, _, rfl, hc, fun d hd => hdigits d ?_⟩
  rcases List.mem_cons.mp hd with rfl | hd
  · exact List.mem_cons_self
  · have hmem := (List.dropWhile_sublist _).subset (List.mem_reverse.mp hd)
    exact List.mem_cons_of_mem c (List.mem_reverse.mp hmem)

/-- What a search finds, or what it is given if it finds nothing. -/
theorem getD_findSome? {α ι : Type} {P : α → Prop} {q : α → Bool} {f : ι → List α} {l : List ι}
    {d : α} (hq : ∀ a, q a = true → P a) (hd : P d) :
    P ((l.findSome? fun i => (f i).find? q).getD d) := by
  cases hfound : l.findSome? fun i => (f i).find? q with
  | none => exact hd
  | some a =>
    obtain ⟨i, -, hi⟩ := List.exists_of_findSome?_eq_some hfound
    exact hq a (List.find?_some hi)

theorem exactDigits_ne_zero {m : ℕ} (hm : 0 < m) (e : ℤ) : (exactDigits m e).1 ≠ 0 := by
  unfold exactDigits
  split
  · exact Nat.pos_iff_ne_zero.mp (Nat.mul_pos hm (Nat.pow_pos (by decide)))
  · exact Nat.pos_iff_ne_zero.mp (Nat.mul_pos hm (Nat.pow_pos (by decide)))

theorem fewest_ne_zero (x : Float) {m : ℕ} (hm : 0 < m) (e : ℤ) : (fewest x m e).1 ≠ 0 := by
  have hdenotes : ∀ c : ℕ × ℤ, denotes x c = true → c.1 ≠ 0 := by
    intro c hc
    unfold denotes at hc
    rw [Bool.and_eq_true, bne_iff_ne] at hc
    exact hc.1
  exact @getD_findSome? (ℕ × ℤ) ℕ (fun c => c.1 ≠ 0) _ _ _ _ hdenotes (exactDigits_ne_zero hm e)

theorem shortest_ne_zero {m : ℕ} (hm : 0 < m) (e : ℤ) : (shortest m e).1 ≠ 0 :=
  fewest_ne_zero (ofParts m e) hm e

/-- The digits that are printed are a numeral without leading zeros. -/
theorem digits_spec {m : ℕ} (hm : 0 < m) (e : ℤ) : IsNumeral (digits m e).1 := by
  unfold digits
  exact isNumeral_trimZeros (isNumeral_toDigits (shortest_ne_zero hm e))

theorem isDigit_of_mem_exponentDigits {n : ℕ} {c : Char} (hc : c ∈ exponentDigits n) :
    c.isDigit = true := by
  have hdigits : ∀ d ∈ Nat.toDigits 10 n, d.isDigit = true := fun d hd =>
    Nat.isDigit_of_mem_toDigits (by decide) (by decide) hd
  unfold exponentDigits at hc
  split at hc
  · rcases List.mem_cons.mp hc with rfl | hc
    · decide
    · exact hdigits c hc
  · exact hdigits c hc

end PyFloat
