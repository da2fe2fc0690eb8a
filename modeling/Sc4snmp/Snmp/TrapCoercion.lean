import Sc4snmp.Lib.FloatOrder
import Sc4snmp.Lib.Numeral

/-!
# The values of traps

The values of a trap come as texts, and `_coerce_trap_varbind_value` makes values of them that
pysnmp accepts: with the syntax of the MIB node if that takes them, and otherwise, for a text
that is an integer, with a type of integers that holds it, or as the text they are.  `int` of a
text raises for more than 4300 digits, and nothing catches that.

What `clone` of a syntax makes of a value is a parameter.

## Main definitions

* `Asn1Item`, `TrapValue` — the values; an item of integers carries that its type admits it.
* `MibNode`, `MibSyntax` — nodes of the MIB and their syntax.
* `asn1FromNumeric`, `coerceTrapVarbindValue` — the source.
* `CoercedExactly` — what is owed.
* `Coercible` — when it is met.

## Main results

* `asn1FromNumeric_eq` — the type an integer gets.
* `coerceTrapVarbindValue_exact_iff` — **when a text is coerced exactly**.
-/

namespace Sc4snmp

/-! ### The values -/

/-- The type of an item of integers. -/
structure IntegerType where
  admits : ℤ → Bool
  namedValues : List (String × ℤ)

/-- The ASN.1 type a class derives from. -/
inductive Asn1Base
  | integer
  | octetString
  | other
  deriving DecidableEq

/-- An ASN.1 item. -/
inductive Asn1Item
  /-- Of a class of integers: its type admits it. -/
  | integer (type : IntegerType) (n : ℤ) (h : type.admits n = true)
  | octetString (text : String)
  /-- Of another class, with the text it denotes. -/
  | other (text : String)

/-- The ASN.1 type of an item. -/
def Asn1Item.base : Asn1Item → Asn1Base
  | integer _ _ _ => .integer
  | octetString _ => .octetString
  | other _ => .other

/-- A value that is coerced. -/
inductive TrapValue
  | asn1 (item : Asn1Item)
  | str (s : String)
  | int (n : ℤ)
  | float (x : Float)
  | other

/-- The item denotes a text or an integer. -/
def Asn1Item.Denotes : Asn1Item → TrapValue → Prop
  | .integer _ n _, .int i => n = i
  | .integer type n _, .str s => Text.parseInt s = some n ∨ (s, n) ∈ type.namedValues
  | .octetString t, .str s => t = s
  | .other t, .str s => t = s
  | _, _ => False

/-- The syntax of a node: an object of a class, with the method `clone`. -/
structure MibSyntax where
  base : Asn1Base
  clone : TrapValue → Except PyError TrapValue

/-- A node of the MIB; `getSyntax` may be missing, raise or return nothing. -/
structure MibNode where
  getSyntax : Option (Except PyError (Option MibSyntax))

/-- The constructor of a class of integers. -/
def IntegerType.construct (type : IntegerType) (n : ℤ) : Except PyError TrapValue :=
  if h : type.admits n = true then .ok (.asn1 (.integer type n h)) else .error .other

/-- `snmp_rfc1902.Integer`. -/
def snmpInteger : IntegerType := ⟨fun n => -2 ^ 31 ≤ n && n ≤ 2 ^ 31 - 1, []⟩

/-- `snmp_rfc1902.Counter64`. -/
def snmpCounter64 : IntegerType := ⟨fun n => 0 ≤ n && n ≤ 2 ^ 64 - 1, []⟩

/-! ### The source -/

/-- `_mib_syntax_class`. -/
def mibSyntaxClass (mibNode : Option MibNode) : Option MibSyntax :=
  match mibNode.bind MibNode.getSyntax with
  | some (.ok found) => found
  | _ => none

/-- What `_syntax_base_category` tells apart. -/
inductive BaseCategory
  | int
  | str
  deriving DecidableEq

/-- `_syntax_base_category`. -/
def syntaxBaseCategory (mibSyntax : Option MibSyntax) : Option BaseCategory :=
  match mibSyntax.map MibSyntax.base with
  | some .integer => some .int
  | some .octetString => some .str
  | _ => none

/-- What `$` leaves of a text: it stands in front of a last newline too. -/
def beforeNewline (s : String) : List Char :=
  if s.toList.getLast? = some '\n' then s.toList.dropLast else s.toList

/-- `_INTEGER_STRING`. -/
def integerString (s : String) : Bool := Text.isNumeral (beforeNewline s)

/-- `str` of an integer. -/
def strOfInt (n : ℤ) : Except PyError String :=
  if (Nat.toDigits 10 n.natAbs).length ≤ Text.maxDigits then .ok (toString n)
  else .error .valueError

/-- `_asn1_from_numeric`. -/
def asn1FromNumeric (numeric : ℤ) : Except PyError TrapValue :=
  if -2 ^ 31 ≤ numeric ∧ numeric ≤ 2 ^ 31 - 1 then snmpInteger.construct numeric
  else if 0 ≤ numeric ∧ numeric ≤ 2 ^ 64 - 1 then snmpCounter64.construct numeric
  else (strOfInt numeric).map .str

/-- The value in the base type of the syntax; it is made outside of the `try`. -/
def typedValue (category : Option BaseCategory) (value : TrapValue) : Except PyError TrapValue :=
  match category, value with
  | some .int, .str s =>
    if integerString s then (PyVal.toInt (.str s)).map .int else .ok (.str s)
  | some .int, .float x => (PyFloat.toInt x).map .int
  | _, value => .ok value

/-- The part with the syntax of the node: the item that is cloned, if there is one. -/
def cloneFromSyntax (mibSyntax : Option MibSyntax) (category : Option BaseCategory)
    (value : TrapValue) : Except PyError (Option Asn1Item) :=
  match mibSyntax with
  | none => .ok none
  | some mibSyntax => do
    match mibSyntax.clone (← typedValue category value) with
    | .ok (.asn1 item) => return some item
    | _ => return none

/-- The fallbacks. -/
def coerceFallback (category : Option BaseCategory) : TrapValue → Except PyError TrapValue
  | .int n => asn1FromNumeric n
  | .float x => do asn1FromNumeric (← PyFloat.toInt x)
  | .str s =>
    if s = "" then .ok (.str s)
    else if category = some .str then .ok (.str s)
    else if integerString s ∧ (category = some .int ∨ category = none) then do
      asn1FromNumeric (← PyVal.toInt (.str s))
    else .ok (.str s)
  | value => .ok value

/-- `_coerce_trap_varbind_value`. -/
def coerceTrapVarbindValue (value : TrapValue) (mibNode : Option MibNode) :
    Except PyError TrapValue :=
  match value with
  | .asn1 item => .ok (.asn1 item)
  | value => do
    let mibSyntax := mibSyntaxClass mibNode
    let category := syntaxBaseCategory mibSyntax
    match ← cloneFromSyntax mibSyntax category value with
    | some cloned => return .asn1 cloned
    | none => coerceFallback category value

/-! ### What is owed -/

/-- `clone` returns an item of the syntax that denotes its argument, or raises. -/
structure MibSyntax.Faithful (mibSyntax : MibSyntax) : Prop where
  text : ∀ s result, mibSyntax.clone (.str s) = .ok result →
    ∃ item : Asn1Item, result = .asn1 item ∧ item.base = mibSyntax.base ∧ item.Denotes (.str s)
  integer : mibSyntax.base = .integer → ∀ n result, mibSyntax.clone (.int n) = .ok result →
    ∃ item : Asn1Item, result = .asn1 item ∧ item.base = .integer ∧ item.Denotes (.int n)

/-- The text is a decimal integer. -/
def isDecimalInteger (s : String) : Bool := Text.isNumeral s.toList

/-- The value carries the text. -/
def TrapValue.Carries (v : TrapValue) (s : String) : Prop :=
  v = .str s ∨ v = .asn1 (.octetString s) ∨ v = .asn1 (.other s)

/-- What the syntax is given for a text: an integer if it is one of integers and the text
reads as one. -/
def baseValue (category : Option BaseCategory) (s : String) : TrapValue :=
  if category = some .int ∧ integerString s then .int (Text.numeralValue (beforeNewline s))
  else .str s

/-- The syntax of the node clones the text into a value. -/
def ClonesInto (mibNode : Option MibNode) (s : String) (v : TrapValue) : Prop :=
  ∃ mibSyntax, mibSyntaxClass mibNode = some mibSyntax ∧
    mibSyntax.clone (baseValue (syntaxBaseCategory (some mibSyntax)) s) = .ok v

/-- What is owed for a text: a value, exact for a decimal integer, and the text itself for any
other text that the syntax does not clone. -/
structure CoercedExactly (mibNode : Option MibNode) (s : String) (v : TrapValue) : Prop where
  decimal : isDecimalInteger s = true →
    (∃ type h, v = .asn1 (.integer type (Text.numeralValue s.toList) h)) ∨ v.Carries s
  other : isDecimalInteger s = false → v = .str s ∨ ClonesInto mibNode s v

/-- The digits of a text are not too many for `int`. -/
def HasIntDigits (s : String) : Prop :=
  (Text.numeralDigits (beforeNewline s)).length ≤ Text.maxDigits

instance (s : String) : Decidable (HasIntDigits s) := inferInstanceAs (Decidable (_ ≤ _))

/-- The integer of a text has an SNMP type, or the text is the one `str` writes for it. -/
def Writable (s : String) : Prop :=
  -2 ^ 31 ≤ Text.numeralValue s.toList ∧ Text.numeralValue s.toList ≤ 2 ^ 64 - 1 ∨
    toString (Text.numeralValue s.toList) = s

/-- When a text is coerced exactly: it does not read as an integer, or its node is one of
strings, or it is short enough for `int` if that comes first, and the syntax clones it, or it is
short enough, does not end in a newline and is writable. -/
def Coercible (mibNode : Option MibNode) (s : String) : Prop :=
  let category := syntaxBaseCategory (mibSyntaxClass mibNode)
  integerString s = false ∨ category = some .str ∨
    ((category = some .int → HasIntDigits s) ∧ ∃ v, ClonesInto mibNode s v) ∨
    (HasIntDigits s ∧ isDecimalInteger s = true ∧ Writable s)

/-! ### Texts -/

/-- White space is stripped from a text that reads as an integer. -/
theorem strip_of_integerString {s : String} (h : integerString s = true) :
    Text.strip s.toList = beforeNewline s := by
  have hspace := Text.isSpace_of_isNumeral h
  have hne : beforeNewline s ≠ [] := by
    intro hnil
    rw [integerString, hnil] at h
    exact absurd h (by decide)
  unfold beforeNewline at hspace hne ⊢
  split at hspace
  · next hlast =>
    rw [if_pos hlast] at hne ⊢
    have hsplit : s.toList = s.toList.dropLast ++ ['\n'] := by
      rw [List.dropLast_append_getLast? _ hlast]
    rw [hsplit, Text.strip_append_space _ hne (by decide)]
    · rw [List.dropLast_concat]
    · exact hspace
  · next hlast =>
    rw [if_neg hlast]
    exact Text.strip_of_not_space hspace

theorem toInt_of_integerString {s : String} (h : integerString s = true) :
    PyVal.toInt (.str s) =
      if HasIntDigits s then .ok (Text.numeralValue (beforeNewline s)) else .error .valueError := by
  rw [PyVal.toInt, Text.parseInt_of_numeral h (strip_of_integerString h)]
  by_cases hdigits : HasIntDigits s
  · rw [if_pos (show _ ≤ _ from hdigits), if_pos hdigits]
  · rw [if_neg (show ¬ _ ≤ _ from hdigits), if_neg hdigits]

theorem integerString_of_isDecimalInteger {s : String} (h : isDecimalInteger s = true) :
    integerString s = true ∧ beforeNewline s = s.toList := by
  have hsame : beforeNewline s = s.toList := by
    refine if_neg fun hlast => ?_
    exact absurd (Text.isSpace_of_isNumeral h _ (List.mem_of_getLast? hlast)) (by decide)
  exact ⟨by rw [integerString, hsame]; exact h, hsame⟩

/-! ### Integers -/

/-- **The type an integer gets**, if it has not too many digits for `str`: one that holds it,
or its text. -/
theorem asn1FromNumeric_eq {n : ℤ} (h : (Nat.toDigits 10 n.natAbs).length ≤ Text.maxDigits) :
    (-2 ^ 31 ≤ n ∧ n ≤ 2 ^ 64 - 1 →
      ∃ type hn, asn1FromNumeric n = .ok (.asn1 (.integer type n hn))) ∧
    (¬ (-2 ^ 31 ≤ n ∧ n ≤ 2 ^ 64 - 1) → asn1FromNumeric n = .ok (.str (toString n))) := by
  unfold asn1FromNumeric
  constructor
  · intro hrange
    split
    · next hsigned =>
      have hadmits : snmpInteger.admits n = true := by simpa [snmpInteger] using hsigned
      exact ⟨snmpInteger, hadmits, dif_pos hadmits⟩
    · next hsigned =>
      have hunsigned : 0 ≤ n ∧ n ≤ 2 ^ 64 - 1 := by omega
      have hadmits : snmpCounter64.admits n = true := by simpa [snmpCounter64] using hunsigned
      rw [if_pos hunsigned]
      exact ⟨snmpCounter64, hadmits, dif_pos hadmits⟩
  · intro hrange
    rw [if_neg (by omega), if_neg (by omega), strOfInt, if_pos h]
    rfl

/-! ### The syntax of the node -/

variable {mibNode : Option MibNode} {s : String} {v : TrapValue}

/-- The text has too many digits for `int`, which comes first for a syntax of integers. -/
def RaisesFirst (mibNode : Option MibNode) (s : String) : Prop :=
  syntaxBaseCategory (mibSyntaxClass mibNode) = some .int ∧ integerString s = true ∧
    ¬ HasIntDigits s

theorem typedValue_eq (category : Option BaseCategory) (s : String) :
    typedValue category (.str s) =
      if category = some .int ∧ integerString s = true ∧ ¬ HasIntDigits s then .error .valueError
      else .ok (baseValue category s) := by
  cases category with
  | none => simp [typedValue, baseValue]
  | some category =>
    cases category with
    | str => simp [typedValue, baseValue]
    | int =>
      by_cases hinteger : integerString s = true
      · by_cases hdigits : HasIntDigits s
        · simp [typedValue, baseValue, hinteger, hdigits, toInt_of_integerString hinteger,
            Except.map]
        · simp [typedValue, hinteger, hdigits, toInt_of_integerString hinteger, Except.map]
      · simp [typedValue, baseValue, hinteger]

/-- `int` raises, and nothing catches it. -/
theorem coerce_of_raisesFirst (h : RaisesFirst mibNode s) :
    coerceTrapVarbindValue (.str s) mibNode = .error .valueError := by
  obtain ⟨hcategory, hraises⟩ := h
  unfold coerceTrapVarbindValue cloneFromSyntax
  cases hfound : mibSyntaxClass mibNode with
  | none =>
    rw [hfound] at hcategory
    cases hcategory
  | some mibSyntax =>
    rw [hfound] at hcategory
    simp only [typedValue_eq, hcategory, hraises]
    rfl

/-- A value that is cloned is returned. -/
theorem coerce_of_clonesInto
    (hfaithful : ∀ mibSyntax, mibSyntaxClass mibNode = some mibSyntax → mibSyntax.Faithful)
    (hraises : ¬ RaisesFirst mibNode s) (h : ClonesInto mibNode s v) :
    coerceTrapVarbindValue (.str s) mibNode = .ok v ∧ CoercedExactly mibNode s v := by
  obtain ⟨mibSyntax, hfound, hclone⟩ := h
  have hinto : ClonesInto mibNode s v := ⟨mibSyntax, hfound, hclone⟩
  have hcoerce : ∀ item, v = .asn1 item → coerceTrapVarbindValue (.str s) mibNode = .ok v := by
    rintro item rfl
    rw [RaisesFirst, hfound] at hraises
    unfold coerceTrapVarbindValue cloneFromSyntax
    simp only [hfound, typedValue_eq, if_neg hraises]
    simp [bind, Except.bind, pure, Except.pure, hclone]
  by_cases hint : syntaxBaseCategory (some mibSyntax) = some .int ∧ integerString s = true
  · have hbase : mibSyntax.base = .integer := by
      have hcategory := hint.1
      unfold syntaxBaseCategory at hcategory
      split at hcategory
      · next heq => exact Option.some.inj heq
      · cases hcategory
      · cases hcategory
    rw [baseValue, if_pos hint] at hclone
    obtain ⟨item, rfl, hitem, hdenotes⟩ := (hfaithful _ hfound).integer hbase _ _ hclone
    refine ⟨hcoerce item rfl, fun hdecimal => Or.inl ?_, fun _ => Or.inr hinto⟩
    rw [← (integerString_of_isDecimalInteger hdecimal).2]
    cases item with
    | integer type n h =>
      cases hdenotes
      exact ⟨type, h, rfl⟩
    | octetString text => cases hitem
    | other text => cases hitem
  · rw [baseValue, if_neg hint] at hclone
    obtain ⟨item, rfl, hitem, hdenotes⟩ := (hfaithful _ hfound).text _ _ hclone
    refine ⟨hcoerce item rfl, fun hdecimal => Or.inr ?_, fun _ => Or.inr hinto⟩
    -- the syntax is not one of integers
    have hbase : mibSyntax.base ≠ .integer := by
      intro hbase
      refine hint ⟨?_, (integerString_of_isDecimalInteger hdecimal).1⟩
      simp [syntaxBaseCategory, hbase]
    cases item with
    | integer type n h => exact absurd hitem.symm hbase
    | octetString text =>
      cases hdenotes
      exact Or.inr (Or.inl rfl)
    | other text =>
      cases hdenotes
      exact Or.inr (Or.inr rfl)

/-- Without one, the fallbacks are left. -/
theorem coerce_of_not_clonesInto (hraises : ¬ RaisesFirst mibNode s)
    (h : ∀ v, ¬ ClonesInto mibNode s v) :
    coerceTrapVarbindValue (.str s) mibNode =
      coerceFallback (syntaxBaseCategory (mibSyntaxClass mibNode)) (.str s) := by
  unfold coerceTrapVarbindValue cloneFromSyntax
  cases hfound : mibSyntaxClass mibNode with
  | none => rfl
  | some mibSyntax =>
    rw [RaisesFirst, hfound] at hraises
    have hclone : ∀ v, mibSyntax.clone (baseValue (syntaxBaseCategory (some mibSyntax)) s) ≠
        .ok v := fun v hv => h v ⟨mibSyntax, hfound, hv⟩
    simp only [typedValue_eq, if_neg hraises]
    cases hresult : mibSyntax.clone (baseValue (syntaxBaseCategory (some mibSyntax)) s) with
    | ok v => exact absurd hresult (hclone v)
    | error err => simp [bind, Except.bind, pure, Except.pure, hresult]

/-! ### The fallbacks -/

theorem coercedExactly_str (mibNode : Option MibNode) (s : String) :
    CoercedExactly mibNode s (.str s) :=
  ⟨fun _ => Or.inr (Or.inl rfl), fun _ => Or.inl rfl⟩

/-- A text that reads as an integer goes through `int` unless its node is one of strings. -/
theorem coerceFallback_of_integerString {category : Option BaseCategory}
    (hinteger : integerString s = true) (hcategory : category ≠ some .str) :
    coerceFallback category (.str s) =
      if HasIntDigits s then asn1FromNumeric (Text.numeralValue (beforeNewline s))
      else .error .valueError := by
  have hne : s ≠ "" := by
    rintro rfl
    exact absurd hinteger (by decide)
  have hleft : category = some .int ∨ category = none := by
    cases category with
    | none => exact Or.inr rfl
    | some category =>
      cases category with
      | int => exact Or.inl rfl
      | str => exact absurd rfl hcategory
  rw [coerceFallback, if_neg hne, if_neg hcategory, if_pos ⟨hinteger, hleft⟩,
    toInt_of_integerString hinteger]
  split <;> rfl

/-- What becomes of an integer that the syntax does not clone. -/
theorem asn1FromNumeric_exact_iff (hinteger : integerString s = true) (hdigits : HasIntDigits s)
    (hnone : ∀ v, ¬ ClonesInto mibNode s v) :
    (∃ v, asn1FromNumeric (Text.numeralValue (beforeNewline s)) = .ok v ∧
        CoercedExactly mibNode s v) ↔ isDecimalInteger s = true ∧ Writable s := by
  have hlength := (Text.length_toDigits_numeralValue _
    (Text.isNumeral_iff.mp hinteger).1).trans hdigits
  obtain ⟨hinside, houtside⟩ := asn1FromNumeric_eq hlength
  -- a text with a newline behind it is no decimal integer, and is not kept
  have hkept : ∀ v, CoercedExactly mibNode s v → isDecimalInteger s = false → v = .str s :=
    fun v hexact hnot => (hexact.other hnot).resolve_right (hnone v)
  by_cases hrange : -2 ^ 31 ≤ Text.numeralValue (beforeNewline s) ∧
      Text.numeralValue (beforeNewline s) ≤ 2 ^ 64 - 1
  · obtain ⟨type, hn, hv⟩ := hinside hrange
    rw [hv]
    constructor
    · rintro ⟨v, hv, hexact⟩
      cases hv
      have hdecimal : isDecimalInteger s = true := by
        rw [← Bool.not_eq_false]
        intro hnot
        cases hkept _ hexact hnot
      refine ⟨hdecimal, Or.inl ?_⟩
      rwa [← (integerString_of_isDecimalInteger hdecimal).2]
    · rintro ⟨hdecimal, -⟩
      refine ⟨_, rfl, fun _ => Or.inl ?_, fun hnot => ?_⟩
      · rw [← (integerString_of_isDecimalInteger hdecimal).2]
        exact ⟨type, hn, rfl⟩
      · rw [hdecimal] at hnot
        cases hnot
  · rw [houtside hrange]
    constructor
    · rintro ⟨v, hv, hexact⟩
      cases hv
      by_cases hdecimal : isDecimalInteger s = true
      · rw [(integerString_of_isDecimalInteger hdecimal).2] at hexact
        refine ⟨hdecimal, Or.inr ?_⟩
        rcases hexact.decimal hdecimal with ⟨type, h, heq⟩ | heq | heq | heq
        · cases heq
        · exact TrapValue.str.inj heq
        · cases heq
        · cases heq
      · have heq := TrapValue.str.inj (hkept _ hexact (Bool.eq_false_iff.mpr hdecimal))
        refine absurd ?_ hdecimal
        rw [isDecimalInteger, ← heq]
        exact Text.isNumeral_toString _
    · rintro ⟨hdecimal, hwritable⟩
      have hsame := (integerString_of_isDecimalInteger hdecimal).2
      rw [hsame] at hrange ⊢
      rcases hwritable with hinside | htext
      · exact absurd hinside hrange
      · rw [htext]
        exact ⟨_, rfl, coercedExactly_str mibNode s⟩

/-! ### The coercion -/

/-- **A text is coerced into a value that is exact precisely when it does not read as an integer,
or the syntax of its node takes it, or `int` takes it and a value can hold what it writes.** -/
theorem coerceTrapVarbindValue_exact_iff (mibNode : Option MibNode) (s : String)
    (hfaithful : ∀ mibSyntax, mibSyntaxClass mibNode = some mibSyntax → mibSyntax.Faithful) :
    (∃ v, coerceTrapVarbindValue (.str s) mibNode = .ok v ∧ CoercedExactly mibNode s v) ↔
      Coercible mibNode s := by
  unfold Coercible
  by_cases hraises : RaisesFirst mibNode s
  · -- a syntax of integers, and too many digits
    rw [coerce_of_raisesFirst hraises]
    obtain ⟨hcategory, hinteger, hdigits⟩ := hraises
    simp [hcategory, hinteger, hdigits]
  by_cases hclones : ∃ v, ClonesInto mibNode s v
  · obtain ⟨v, hv⟩ := hclones
    refine iff_of_true ⟨v, coerce_of_clonesInto hfaithful hraises hv⟩ ?_
    by_cases hinteger : integerString s = true
    · refine Or.inr (Or.inr (Or.inl ⟨fun hcategory => ?_, v, hv⟩))
      by_contra hdigits
      exact hraises ⟨hcategory, hinteger, hdigits⟩
    · exact Or.inl (Bool.eq_false_iff.mpr hinteger)
  have hnone : ∀ v, ¬ ClonesInto mibNode s v := fun v hv => hclones ⟨v, hv⟩
  rw [coerce_of_not_clonesInto hraises hnone]
  by_cases hstr : syntaxBaseCategory (mibSyntaxClass mibNode) = some .str
  · refine iff_of_true ⟨.str s, ?_, coercedExactly_str mibNode s⟩ (Or.inr (Or.inl hstr))
    rw [hstr, coerceFallback]
    split <;> rfl
  by_cases hinteger : integerString s = true
  · rw [coerceFallback_of_integerString hinteger hstr]
    by_cases hdigits : HasIntDigits s
    · rw [if_pos hdigits, asn1FromNumeric_exact_iff hinteger hdigits hnone]
      simp [hinteger, hstr, hclones, hdigits]
    · simp [hinteger, hstr, hclones, hdigits]
  · refine iff_of_true ⟨.str s, ?_, coercedExactly_str mibNode s⟩
      (Or.inl (Bool.eq_false_iff.mpr hinteger))
    simp [coerceFallback, hinteger]

/-- What pysnmp's `clone` of a class of integers does. -/
def IntegerType.mibSyntax (type : IntegerType) : MibSyntax where
  base := .integer
  clone
    | .int n => type.construct n
    | .str s =>
      match (Text.parseInt s).or (type.namedValues.lookup s) with
      | some n => type.construct n
      | none => .error .other
    | _ => .error .other

theorem IntegerType.faithful_mibSyntax (type : IntegerType) : type.mibSyntax.Faithful := by
  have hconstruct : ∀ n result, type.construct n = .ok result →
      ∃ h, result = .asn1 (.integer type n h) := by
    intro n result hresult
    unfold IntegerType.construct at hresult
    split at hresult
    · next h =>
      cases hresult
      exact ⟨h, rfl⟩
    · cases hresult
  constructor
  · intro s result hresult
    simp only [IntegerType.mibSyntax] at hresult
    cases hread : (Text.parseInt s).or (type.namedValues.lookup s) with
    | none =>
      rw [hread] at hresult
      cases hresult
    | some n =>
      rw [hread] at hresult
      obtain ⟨h, rfl⟩ := hconstruct n result hresult
      refine ⟨_, rfl, rfl, ?_⟩
      rcases Option.or_eq_some_iff.mp hread with hint | ⟨-, hname⟩
      · exact Or.inl hint
      · obtain ⟨before, after, hsplit, -⟩ := List.lookup_eq_some_iff.mp hname
        refine Or.inr ?_
        rw [hsplit]
        exact List.mem_append_right _ List.mem_cons_self
  · intro _ n result hresult
    obtain ⟨h, rfl⟩ := hconstruct n result hresult
    exact ⟨_, rfl, rfl, rfl⟩

/-- The syntax of `ifOperStatus`. -/
def ifOperStatus : IntegerType where
  admits n := 1 ≤ n && n ≤ 7
  namedValues := [("up", 1), ("down", 2), ("testing", 3), ("unknown", 4), ("dormant", 5),
    ("notPresent", 6), ("lowerLayerDown", 7)]

/-- The theorem for a value of `ifOperStatus`. -/
theorem coerceTrapVarbindValue_exact_ifOperStatus :
    ∃ v, coerceTrapVarbindValue (.str "2") (some ⟨some (.ok (some ifOperStatus.mibSyntax))⟩) =
        .ok v ∧ CoercedExactly (some ⟨some (.ok (some ifOperStatus.mibSyntax))⟩) "2" v :=
  (coerceTrapVarbindValue_exact_iff _ "2" (by
    rintro _ ⟨⟩
    exact ifOperStatus.faithful_mibSyntax)).mpr
    (Or.inr (Or.inr (Or.inr ⟨by decide, by decide, Or.inl (by decide)⟩)))

/-- A numeral of `n + 1` digits. -/
def ones (n : ℕ) : String := String.ofList (List.replicate (n + 1) '1')

theorem numeralDigits_ones (n : ℕ) :
    Text.numeralDigits (ones n).toList = List.replicate (n + 1) '1' := by
  rw [ones, String.toList_ofList, List.replicate_succ]
  rfl

theorem isDecimalInteger_ones (n : ℕ) : isDecimalInteger (ones n) = true := by
  rw [isDecimalInteger, Text.isNumeral_iff, numeralDigits_ones]
  refine ⟨List.cons_ne_nil _ _, fun d hd => ?_⟩
  rw [(List.mem_replicate.mp hd).2]
  decide

/-- A numeral with too many digits for `int` makes the coercion raise, when the node has no syntax
or one of integers. -/
theorem coerce_ones {n : ℕ} (h : Text.maxDigits ≤ n)
    (hbase : ∀ mibSyntax, mibSyntaxClass mibNode = some mibSyntax → mibSyntax.base = .integer) :
    coerceTrapVarbindValue (.str (ones n)) mibNode = .error .valueError := by
  obtain ⟨hinteger, hsame⟩ := integerString_of_isDecimalInteger (isDecimalInteger_ones n)
  have hlong : ¬ HasIntDigits (ones n) := by
    rw [HasIntDigits, hsame, numeralDigits_ones, List.length_replicate]
    omega
  cases hclass : mibSyntaxClass mibNode with
  | none =>
    have hfallback := coerceFallback_of_integerString hinteger (Option.some_ne_none _).symm
    rw [if_neg hlong] at hfallback
    unfold coerceTrapVarbindValue
    rw [hclass]
    exact hfallback
  | some mibSyntax =>
    refine coerce_of_raisesFirst ⟨?_, hinteger, hlong⟩
    rw [hclass, syntaxBaseCategory, Option.map_some, hbase mibSyntax hclass]

/-- A numeral of 4301 digits makes the coercion raise. -/
theorem coerceTrapVarbindValue_raises :
    ¬ ∀ (mibNode : Option MibNode) (s : String),
      (∀ mibSyntax, mibSyntaxClass mibNode = some mibSyntax → mibSyntax.Faithful) →
        ∃ v, coerceTrapVarbindValue (.str s) mibNode = .ok v ∧ CoercedExactly mibNode s v := by
  intro hclaim
  obtain ⟨v, hv, -⟩ := hclaim none (ones 4300) (fun _ h => by cases h)
  rw [coerce_ones (show Text.maxDigits ≤ 4300 from Nat.le_refl _) fun _ h => by cases h] at hv
  cases hv

end Sc4snmp
