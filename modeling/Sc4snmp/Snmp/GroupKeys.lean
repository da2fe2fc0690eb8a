import Sc4snmp.Enrich.Tasks
import Sc4snmp.Lib.SelfDelimiting

/-!
# Group keys

The key of a group has the index of its row in it, column by column: numbers in digits,
octets as they are displayed, identifiers component by component.  Semicolons are between
the columns, and the display of octets shows where it ends, so the key tells which columns it
has.  The index of a scalar object is the tuple of what follows its name, which reads like a
column with an identifier.  In the attributes the group goes by the hash of the key, in which
bars stand for the dots, and an octet that is a dot becomes one that is a bar.

## Main definitions

* `IndexElement`, `VarbindIndex` — the index of a varbind.
* `VarbindIndex.elements` — its columns, of which a scalar object has one.
* `IndexElement.code` — the part of the key for a column.
* `IndexElement.barred`, `VarbindIndex.barred` — with bars for dots.

## Main results

* `getGroupKey_eq_iff` — **a key determines the columns of the index**.
* `getGroupKey_scalar` — a scalar object shares its key with a row.
* `keyHash_eq_iff` — a hash determines them up to dots and bars.
* `groupKeys_differ_iff` — when two rows have different keys and different hashes.
-/

namespace Sc4snmp

open Enrich (keyHash)

/-! ### Indexes -/

/-- The value of one column of an index. -/
inductive IndexElement
  | integer (i : ℤ)
  | octets (bytes : List UInt8)
  | components (subIds : List ℕ)
  deriving DecidableEq

/-- The index of a resolved varbind: that of a scalar object is what follows its name. -/
inductive VarbindIndex
  | scalar (suffix : List ℕ)
  | columns (elements : List IndexElement)
  deriving DecidableEq

/-- What pysnmp gives for a column. -/
def IndexElement.content : IndexElement → IndexContent
  | integer i => .single (.int i)
  | octets bytes => .single (.bytes bytes)
  | components subIds => .tuple (subIds.map fun n : ℕ => .int n)

/-- The columns of an index; a scalar object has a name in place of them, if anything follows. -/
def VarbindIndex.elements : VarbindIndex → List IndexElement
  | scalar suffix => if suffix = [] then [] else [.components suffix]
  | columns elements => elements

/-- What pysnmp gives for an index; the `_value` of a name is a tuple. -/
def VarbindIndex.contents (index : VarbindIndex) : List IndexContent :=
  index.elements.map IndexElement.content

/-- A bar for a dot. -/
def barOctet (b : UInt8) : UInt8 := if b = 46 then 124 else b

/-- A column with bars for dots. -/
def IndexElement.barred : IndexElement → IndexElement
  | octets bytes => octets (bytes.map barOctet)
  | element => element

/-- The columns of an index with bars for dots. -/
def VarbindIndex.barred (index : VarbindIndex) : List IndexElement :=
  index.elements.map IndexElement.barred

/-! ### The part of a column -/

/-- A component of an identifier in a key. -/
def componentCode (n : ℕ) : List Char := ['i', 'n', 't', '='] ++ Nat.toDigits 10 n

/-- The part of a key for a column. -/
def IndexElement.code : IndexElement → List Char
  | integer i => ['i', 'n', 't', '='] ++ (toString i).toList
  | octets bytes => ['b', 'y', 't', 'e', 's', '='] ++ (Text.reprOctets bytes).toList
  | components subIds =>
    ['t', 'u', 'p', 'l', 'e', '='] ++ List.intercalate ['|'] (subIds.map componentCode)

theorem toList_groupKeyPart (oid : String) (element : IndexElement) :
    (groupKeyPart oid element.content).toList = element.code := by
  cases element with
  | integer i => simp [IndexElement.content, groupKeyPart, IndexValue.typeName, IndexValue.text,
      IndexElement.code]
  | octets bytes => simp [IndexElement.content, groupKeyPart, IndexValue.typeName,
      IndexValue.text, IndexElement.code]
  | components subIds =>
    have hpart : ∀ n : ℕ,
        ((IndexValue.int n).typeName ++ "=" ++ (IndexValue.int n).itemText).toList =
          componentCode n := by
      intro n
      have hdigits : (n : ℤ).repr.toList = Nat.toDigits 10 n := Nat.toList_repr
      simp [IndexValue.typeName, IndexValue.itemText, IndexValue.text, componentCode, hdigits]
    rw [IndexElement.content, groupKeyPart, String.toList_append, String.toList_intercalate,
      List.map_map, List.map_map]
    have hcode : (String.toList ∘ fun v : IndexValue => v.typeName ++ "=" ++ v.itemText) ∘
        (fun n : ℕ => IndexValue.int n) = componentCode := funext hpart
    rw [hcode]
    rfl

/-- A component has digits, and what is in front of them. -/
theorem notMem_componentCode {c : Char} (hdigit : c.isDigit = false)
    (htag : c ∉ ['i', 'n', 't', '=']) (n : ℕ) : c ∉ componentCode n := by
  rw [componentCode, List.mem_append]
  rintro (hmem | hmem)
  · exact htag hmem
  · rw [Nat.isDigit_of_mem_toDigits (by decide) (by decide) hmem] at hdigit
    cases hdigit

theorem componentCode_injective : Function.Injective componentCode := by
  intro m n h
  have hdigits : Nat.toDigits 10 m = Nat.toDigits 10 n := List.append_cancel_left h
  rw [← Nat.ofDigitChars_ten_toDigits (n := m), hdigits, Nat.ofDigitChars_ten_toDigits]

/-- Components joined with bars. -/
theorem components_injective :
    Function.Injective fun subIds : List ℕ => List.intercalate ['|'] (subIds.map componentCode) :=
  SelfDelimiting.join_injective
    (SelfDelimiting.of_notMem componentCode_injective
      (notMem_componentCode (by decide) (by decide)))
    fun n h => List.cons_ne_nil _ _ (List.append_eq_nil_iff.mp h).1

theorem notMem_components {c : Char} (hdigit : c.isDigit = false) (htag : c ∉ ['i', 'n', 't', '='])
    (hbar : c ≠ '|') (subIds : List ℕ) : c ∉ List.intercalate ['|'] (subIds.map componentCode) := by
  refine Text.notMem_intercalate (by simpa using hbar) ?_
  intro part hpart
  obtain ⟨n, _, rfl⟩ := List.mem_map.mp hpart
  exact notMem_componentCode hdigit htag n

theorem notMem_toString {c : Char} (hc : Text.isIntChar c = false) (i : ℤ) :
    c ∉ (toString i).toList := by
  intro hmem
  rw [Text.isIntChar_toString i c hmem] at hc
  cases hc

/-- **The part of a column shows where it ends.** -/
theorem selfDelimiting_code : SelfDelimiting ';' IndexElement.code := by
  intro a b s t hs ht h
  cases a with
  | integer i =>
    cases b with
    | integer j =>
      rw [IndexElement.code, IndexElement.code, List.append_assoc, List.append_assoc] at h
      obtain ⟨hij, hst⟩ := append_inj_of_notMem (notMem_toString (by decide) i)
        (notMem_toString (by decide) j) hs ht (List.append_cancel_left h)
      exact ⟨congrArg _ (Text.toString_int_injective (String.toList_injective hij)), hst⟩
    | octets bytes => exact absurd (List.cons.inj h).1 (by decide)
    | components subIds => exact absurd (List.cons.inj h).1 (by decide)
  | octets bytes =>
    cases b with
    | integer j => exact absurd (List.cons.inj h).1 (by decide)
    | octets bytes' =>
      rw [IndexElement.code, IndexElement.code, List.append_assoc, List.append_assoc] at h
      obtain ⟨hbytes, hst⟩ := Text.reprOctets_append_inj (List.append_cancel_left h)
      exact ⟨congrArg _ hbytes, hst⟩
    | components subIds => exact absurd (List.cons.inj h).1 (by decide)
  | components subIds =>
    cases b with
    | integer j => exact absurd (List.cons.inj h).1 (by decide)
    | octets bytes => exact absurd (List.cons.inj h).1 (by decide)
    | components subIds' =>
      rw [IndexElement.code, IndexElement.code, List.append_assoc, List.append_assoc] at h
      have hsep : ∀ subIds : List ℕ,
          ';' ∉ List.intercalate ['|'] (subIds.map componentCode) :=
        notMem_components (by decide) (by decide) (by decide)
      obtain ⟨hjoin, hst⟩ := append_inj_of_notMem (hsep subIds) (hsep subIds') hs ht
        (List.append_cancel_left h)
      exact ⟨congrArg _ (components_injective hjoin), hst⟩

theorem code_ne_nil (element : IndexElement) : element.code ≠ [] := by
  cases element <;> exact List.cons_ne_nil _ _

/-! ### Keys -/

/-- The part of a key after the MIB. -/
def columnsCode (elements : List IndexElement) : List Char :=
  List.intercalate [';'] (elements.map IndexElement.code)

theorem columnsCode_injective : Function.Injective columnsCode :=
  SelfDelimiting.join_injective selfDelimiting_code code_ne_nil

theorem toList_getGroupKey (mib oid : String) (index : VarbindIndex) :
    (getGroupKey mib oid index.contents).toList =
      mib.toList ++ "::".toList ++ columnsCode index.elements := by
  have hcode : (String.toList ∘ groupKeyPart oid) ∘ IndexElement.content = IndexElement.code :=
    funext (toList_groupKeyPart oid)
  rw [getGroupKey, String.toList_append, String.toList_append, String.toList_intercalate,
    VarbindIndex.contents, List.map_map, List.map_map, hcode]
  rfl

/-- **A key determines the columns of the index.** -/
theorem getGroupKey_eq_iff (mib oid oid' : String) (i j : VarbindIndex) :
    getGroupKey mib oid i.contents = getGroupKey mib oid' j.contents ↔
      i.elements = j.elements := by
  rw [← String.toList_inj, toList_getGroupKey, toList_getGroupKey, List.append_right_inj]
  exact columnsCode_injective.eq_iff

/-- A scalar object shares its key with a row whose only column is what follows its name. -/
theorem getGroupKey_scalar (mib oid oid' : String) {suffix : List ℕ} (h : suffix ≠ []) :
    getGroupKey mib oid (VarbindIndex.scalar suffix).contents =
      getGroupKey mib oid' (VarbindIndex.columns [.components suffix]).contents :=
  (getGroupKey_eq_iff mib oid oid' _ _).mpr (if_neg h)

/-! ### Hashes -/

/-- A bar for a dot, as a character. -/
def barChar (c : Char) : Char := if c = '.' then '|' else c

theorem toList_keyHash (key : String) : (keyHash key).toList = key.toList.map barChar := by
  rw [keyHash, Text.replaceChar, String.toList_ofList]
  rfl

theorem map_barChar_of_notMem {s : List Char} (h : '.' ∉ s) : s.map barChar = s := by
  have hkeep : ∀ c ∈ s, barChar c = id c := by
    intro c hc
    exact if_neg fun heq : c = '.' => h (heq ▸ hc)
  rw [List.map_congr_left hkeep, List.map_id]

/-- The display of no other octet has a dot. -/
theorem dot_notMem_shownOctet (quote : Char) {b : UInt8} (hb : b ≠ 46) :
    '.' ∉ Text.shownOctet quote b := by
  have hself : '.' ≠ Char.ofNat b.toNat := fun h =>
    hb (Text.eq_ofNat_of_char (by decide) h.symm)
  have hdigit : ∀ k < 16, '.' ≠ Nat.digitChar k := by decide
  have hhex : '.' ∉ Text.hexOctet b := by
    have hlow := hdigit (b.toNat / 16) (by have := b.toNat_lt; omega)
    have hhigh := hdigit (b.toNat % 16) (Nat.mod_lt _ (by decide))
    rw [Text.hexOctet, List.mem_pair, not_or]
    exact ⟨hlow, hhigh⟩
  have hescaped : ∀ c, '.' ≠ c → '.' ∉ [Text.backslash, c] := by
    intro c hc
    rw [List.mem_pair, not_or]
    exact ⟨by decide, hc⟩
  unfold Text.shownOctet
  split
  · exact hescaped _ hself
  split
  · exact hescaped _ (by decide)
  split
  · exact hescaped _ (by decide)
  split
  · exact hescaped _ (by decide)
  split
  · rw [List.mem_append, not_or]
    exact ⟨hescaped _ (by decide), hhex⟩
  · rw [List.mem_singleton]
    exact hself

/-- The display of a dot becomes that of a bar. -/
theorem map_barChar_shownOctet {quote : Char} (hquote : Text.IsQuote quote) (b : UInt8) :
    (Text.shownOctet quote b).map barChar = Text.shownOctet quote (barOctet b) := by
  by_cases hb : b = 46
  · subst hb
    rcases hquote with rfl | rfl <;> decide
  · rw [barOctet, if_neg hb, map_barChar_of_notMem (dot_notMem_shownOctet quote hb)]

theorem mem_map_barOctet_iff {b : UInt8} (hdot : b ≠ 46) (hbar : b ≠ 124) {bytes : List UInt8} :
    b ∈ bytes.map barOctet ↔ b ∈ bytes := by
  rw [List.mem_map]
  constructor
  · rintro ⟨a, ha, heq⟩
    unfold barOctet at heq
    split at heq
    · exact absurd heq.symm hbar
    · rwa [← heq]
  · exact fun h => ⟨b, h, if_neg hdot⟩

/-- The display of octets with bars for dots. -/
theorem map_barChar_reprOctets (bytes : List UInt8) :
    (Text.reprOctets bytes).toList.map barChar =
      (Text.reprOctets (bytes.map barOctet)).toList := by
  have hquote : Text.octetQuote (bytes.map barOctet) = Text.octetQuote bytes := by
    have hsingle : 39 ∈ bytes.map barOctet ↔ 39 ∈ bytes :=
      mem_map_barOctet_iff (by decide) (by decide)
    have hdouble : 34 ∈ bytes.map barOctet ↔ 34 ∈ bytes :=
      mem_map_barOctet_iff (by decide) (by decide)
    simp only [Text.octetQuote, hsingle, hdouble]
  have hshown := map_barChar_shownOctet (Text.isQuote_octetQuote bytes)
  have hbar : barChar (Text.octetQuote bytes) = Text.octetQuote bytes := by
    rcases Text.isQuote_octetQuote bytes with h | h <;> rw [h] <;> decide
  rw [Text.toList_reprOctets, Text.toList_reprOctets, hquote]
  simp only [List.map_cons, List.map_append, List.map_nil, hbar, List.map_flatMap,
    List.flatMap_map, hshown]
  rfl

/-- The part of a column with bars for dots. -/
theorem map_barChar_code (element : IndexElement) :
    element.code.map barChar = element.barred.code := by
  cases element with
  | integer i =>
    refine map_barChar_of_notMem ?_
    rw [IndexElement.code, List.mem_append, not_or]
    exact ⟨by decide, notMem_toString (by decide) i⟩
  | octets bytes =>
    rw [IndexElement.barred, IndexElement.code, IndexElement.code, List.map_append,
      map_barChar_reprOctets]
    rfl
  | components subIds =>
    refine map_barChar_of_notMem ?_
    rw [IndexElement.code, List.mem_append, not_or]
    exact ⟨by decide, notMem_components (by decide) (by decide) (by decide) subIds⟩

/-- The part of a key after the MIB with bars for dots. -/
theorem map_barChar_columnsCode (elements : List IndexElement) :
    (columnsCode elements).map barChar = columnsCode (elements.map IndexElement.barred) := by
  have hcode : List.map barChar ∘ IndexElement.code = IndexElement.code ∘ IndexElement.barred :=
    funext map_barChar_code
  rw [columnsCode, columnsCode, map_intercalate (by decide), List.map_map, List.map_map, hcode]

/-- **A hash determines the columns of the index up to dots and bars.** -/
theorem keyHash_eq_iff (mib oid oid' : String) (i j : VarbindIndex) :
    keyHash (getGroupKey mib oid i.contents) = keyHash (getGroupKey mib oid' j.contents) ↔
      i.barred = j.barred := by
  rw [← String.toList_inj, toList_keyHash, toList_keyHash, toList_getGroupKey,
    toList_getGroupKey, List.map_append, List.map_append, List.map_append, List.map_append,
    List.append_right_inj, map_barChar_columnsCode, map_barChar_columnsCode]
  exact columnsCode_injective.eq_iff

/-- **Two rows of a MIB have different keys and different hashes** exactly if their columns are not
the same with bars for dots. -/
theorem groupKeys_differ_iff (mib oid oid' : String) (i j : VarbindIndex) :
    (getGroupKey mib oid i.contents ≠ getGroupKey mib oid' j.contents ∧
        keyHash (getGroupKey mib oid i.contents) ≠ keyHash (getGroupKey mib oid' j.contents)) ↔
      i.barred ≠ j.barred := by
  rw [ne_eq, ne_eq, getGroupKey_eq_iff, keyHash_eq_iff]
  exact and_iff_right_of_imp fun hbarred helements =>
    hbarred (congrArg (List.map IndexElement.barred) helements)

/-! ### Two names -/

/-- A row by a name. -/
def nameIndex (bytes : List UInt8) : VarbindIndex := .columns [.octets bytes]

/-- **The rows by the names `a.b` and `a|b` share a hash.** -/
theorem keyHash_names_eq :
    nameIndex [97, 46, 98] ≠ nameIndex [97, 124, 98] ∧
      keyHash (getGroupKey "SNMP-TARGET-MIB" "1.3.6.1.6.3.12.1.2.1.6.3.97.46.98"
          (nameIndex [97, 46, 98]).contents) =
        keyHash (getGroupKey "SNMP-TARGET-MIB" "1.3.6.1.6.3.12.1.2.1.6.3.97.124.98"
          (nameIndex [97, 124, 98]).contents) := by
  constructor
  · decide
  · decide +kernel

end Sc4snmp
