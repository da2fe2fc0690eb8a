import Mathlib.Algebra.Order.BigOperators.Group.List
import Sc4snmp.Inventory.ConditionQuery
import Sc4snmp.Inventory.SetupPoller

/-!
# The rows a conditional profile polls

The index of a row is kept as a list when the row is polled: octets as a dotted text,
identifiers component by component.  The varbinds of a conditional profile are made of the
lists of the rows that meet its conditions, and pysnmp encodes them again, one argument
for each column of the index.  An address comes back as the octets it was, and a number as
itself.  A text is encoded as the characters of its dotted form.

How pysnmp encodes an argument is a parameter.

## Main definitions

* `IndexCell`, `TableRow` — the index of a row, column by column.
* `IndexEncoder`, `EncodesAsDocumented` — pysnmp's encoding of an argument.
* `rowItems` — the index of a row as it is stored.
* `denotedInstance` — the instance that some arguments denote.
* `conditionRecords` — the indexes of the rows that meet conditions.

## Main results

* `denotedInstance_rowItems_iff` — **the rows whose stored index denotes them**.
* `generateConditionalProfile_denotes_iff` — the varbinds of a generated profile.
-/

namespace Sc4snmp

open DocumentQuery
open Enrich (AttributesDoc)

/-! ### Rows -/

/-- A column of an index.  The length of a text or an identifier is encoded in front of it
unless it is fixed or implied. -/
inductive IndexColumn
  | integer
  | ipAddress
  | octetString (fixed : Bool)
  | objectIdentifier (fixed : Bool)
  deriving DecidableEq

/-- The value of a row in a column of its index.  An identifier has two components at least. -/
inductive IndexCell
  | integer (n : ℕ)
  | ipAddress (a b c d : UInt8)
  | octetString (fixed : Bool) (octets : List UInt8)
  | objectIdentifier (fixed : Bool) (first second : ℕ) (more : List ℕ)
  deriving DecidableEq

/-- The index of a row of a table, which has a column. -/
structure TableRow where
  cells : List IndexCell
  cells_ne_nil : cells ≠ []

/-- The column a value is in. -/
def IndexCell.column : IndexCell → IndexColumn
  | integer _ => .integer
  | ipAddress _ _ _ _ => .ipAddress
  | octetString fixed _ => .octetString fixed
  | objectIdentifier fixed _ _ _ => .objectIdentifier fixed

/-- Sub-identifiers, with their number in front of them if that is not fixed. -/
def withLength (fixed : Bool) (subIds : List ℕ) : List ℕ :=
  if fixed then subIds else subIds.length :: subIds

/-- The sub-identifiers of a value. -/
def IndexCell.subIds : IndexCell → List ℕ
  | integer n => [n]
  | ipAddress a b c d => [a.toNat, b.toNat, c.toNat, d.toNat]
  | octetString fixed octets => withLength fixed (octets.map UInt8.toNat)
  | objectIdentifier fixed first second more => withLength fixed (first :: second :: more)

/-- The part of an identifier that says which row it is of. -/
def TableRow.instanceId (row : TableRow) : List ℕ := row.cells.flatMap IndexCell.subIds

/-- The `_value` pysnmp gives a column of the index of a response. -/
def IndexCell.content : IndexCell → IndexContent
  | integer n => .single (.int n)
  | ipAddress a b c d => .single (.bytes [a, b, c, d])
  | octetString _ octets => .single (.bytes octets)
  | objectIdentifier _ first second more =>
    .tuple ((first :: second :: more).map fun n : ℕ => .int n)

/-! ### Encoding -/

/-- `".".join(str(byte) for byte in octets)`. -/
def dottedOctets (octets : List UInt8) : String :=
  ".".intercalate (octets.map fun b => toString b.toNat)

/-- How pysnmp encodes an argument for a column. -/
structure IndexEncoder where
  encode : IndexColumn → VarbindItem → Option (List ℕ)

/-- An integer is one sub-identifier, the dotted text of an address is its octets, and a text
of ASCII characters is these characters. -/
structure EncodesAsDocumented (encoder : IndexEncoder) : Prop where
  integer : ∀ n : ℕ, encoder.encode .integer (.int n) = some [n]
  ipAddress : ∀ a b c d, encoder.encode .ipAddress (.str (dottedOctets [a, b, c, d])) =
    some [a.toNat, b.toNat, c.toNat, d.toNat]
  octetString : ∀ fixed (s : String), (∀ c ∈ s.toList, c.toNat < 128) →
    encoder.encode (.octetString fixed) (.str s) = some (withLength fixed (s.toList.map Char.toNat))

/-- The instance that some arguments denote, one for each column. -/
def denotedInstance (encoder : IndexEncoder) :
    List IndexColumn → List VarbindItem → Option (List ℕ)
  | [], [] => some []
  | column :: columns, item :: items => do
    let subIds ← encoder.encode column item
    let rest ← denotedInstance encoder columns items
    return subIds ++ rest
  | _, _ => none

/-! ### What is stored -/

/-- An index as the database has it. -/
def IndexValue.storedItem : IndexValue → Except PyError VarbindItem
  | int i => .ok (.int i)
  | str s => .ok (.str s)
  | _ => .error .other

/-- The `indexes` of a document. -/
def recordIndexes (doc : AttributesDoc MetricItem) : Except PyError (List VarbindItem) :=
  match doc.indexes with
  | none => .error .keyError
  | some indexes => indexes.mapM IndexValue.storedItem

/-- The indexes of the documents that `filter_condition_on_database` finds. -/
def conditionRecords (engine : RegexEngine) (docs : List (AttributesDoc MetricItem))
    (address : String) (conditions : List ConditionClause) :
    Except PyError (List (List VarbindItem)) := do
  let found ← filterConditionOnDatabase engine docs address conditions
  found.mapM recordIndexes

/-- What is stored of a value of an index. -/
def IndexCell.items : IndexCell → List VarbindItem
  | integer n => [.int n]
  | ipAddress a b c d => [.str (dottedOctets [a, b, c, d])]
  | octetString _ octets => [.str (dottedOctets octets)]
  | objectIdentifier _ first second more => (first :: second :: more).map fun n : ℕ => .int n

/-- What is stored of the index of a row. -/
def rowItems (row : TableRow) : List VarbindItem := row.cells.flatMap IndexCell.items

/-- The value comes back as it was: it is no identifier and no octets. -/
def IndexCell.ComesBack : IndexCell → Prop
  | integer _ => True
  | ipAddress _ _ _ _ => True
  | octetString _ octets => octets = []
  | objectIdentifier _ _ _ _ => False

/-- The index of a row is stored as its items. -/
theorem storedItems_extractIndexes (row : TableRow) :
    (extractIndexes (row.cells.map IndexCell.content)).mapM IndexValue.storedItem =
      .ok (rowItems row) := by
  have hne : (row.cells.map IndexCell.content).isEmpty = false := by
    rw [List.isEmpty_map, ← Bool.not_eq_true, List.isEmpty_iff]
    exact row.cells_ne_nil
  rw [extractIndexes, hne, if_neg Bool.false_ne_true, rowItems, List.flatMap_map]
  induction row.cells with
  | nil => rfl
  | cons cell cells ih =>
    have hints : ∀ ns : List ℕ, (ns.map fun n : ℕ => IndexValue.int n).mapM IndexValue.storedItem =
        .ok (ns.map fun n : ℕ => VarbindItem.int n) := by
      intro ns
      induction ns with
      | nil => rfl
      | cons n ns ihn =>
        rw [List.map_cons, List.mapM_cons, ihn]
        rfl
    rw [List.flatMap_cons, List.mapM_append, ih, List.flatMap_cons]
    cases cell with
    | integer n => rfl
    | ipAddress a b c d => rfl
    | octetString fixed octets => rfl
    | objectIdentifier fixed first second more =>
      rw [IndexCell.content, hints]
      rfl

/-! ### Lengths -/

/-- Pieces put together are the same as pieces that are no longer only if each is. -/
theorem flatMap_inj_of_length_le {α β : Type*} {f g : α → List β} {l : List α}
    (hle : ∀ a ∈ l, (f a).length ≤ (g a).length) (h : l.flatMap f = l.flatMap g) :
    ∀ a ∈ l, f a = g a := by
  induction l with
  | nil => simp
  | cons a l ih =>
    rw [List.forall_mem_cons] at hle ⊢
    rw [List.flatMap_cons, List.flatMap_cons] at h
    have hrest : (l.flatMap f).length ≤ (l.flatMap g).length := by
      rw [List.length_flatMap, List.length_flatMap]
      exact List.sum_le_sum hle.2
    have hlengths := congrArg List.length h
    rw [List.length_append, List.length_append] at hlengths
    obtain ⟨hfirst, hothers⟩ := List.append_inj h (by omega)
    exact ⟨hfirst, ih hle.2 hothers⟩

/-- Parts that are not empty make a text of at least two characters each, less one. -/
theorem length_intercalate_dot {parts : List String} (hne : parts ≠ [])
    (hparts : ∀ part ∈ parts, part.toList ≠ []) :
    2 * parts.length ≤ (".".intercalate parts).toList.length + 1 := by
  induction parts with
  | nil => exact absurd rfl hne
  | cons part parts ih =>
    rw [List.forall_mem_cons] at hparts
    have hpart : 0 < part.toList.length := List.length_pos_iff.mpr hparts.1
    cases parts with
    | nil =>
      rw [String.intercalate_singleton, List.length_singleton]
      omega
    | cons next parts =>
      have hrest := ih (List.cons_ne_nil _ _) hparts.2
      have hdot : ".".toList.length = 1 := rfl
      rw [String.intercalate_cons_cons, String.toList_append, String.toList_append,
        List.length_append, List.length_append, hdot]
      simp only [List.length_cons] at hrest ⊢
      omega

/-- The dotted form of octets is nearly twice as long. -/
theorem length_dottedOctets {octets : List UInt8} (hne : octets ≠ []) :
    2 * octets.length ≤ (dottedOctets octets).toList.length + 1 := by
  rw [← List.length_map fun b : UInt8 => toString b.toNat]
  refine length_intercalate_dot (by simpa using hne) fun part hpart => ?_
  obtain ⟨b, _, rfl⟩ := List.mem_map.mp hpart
  rw [Nat.toString_eq_ofList_toDigits, String.toList_ofList]
  exact Nat.toDigits_ne_nil

/-- The numeral of a small number is not its character. -/
theorem toDigits_ne_singleton : ∀ n < 256, (Nat.toDigits 10 n).map Char.toNat ≠ [n] := by
  decide +kernel

/-- The dotted form of octets is their characters only if there are none. -/
theorem dottedOctets_eq_iff (octets : List UInt8) :
    octets.map UInt8.toNat = (dottedOctets octets).toList.map Char.toNat ↔ octets = [] := by
  constructor
  · intro h
    by_contra hne
    have hlength := congrArg List.length h
    rw [List.length_map, List.length_map] at hlength
    have hdotted := length_dottedOctets hne
    -- there is one octet, and its numeral has one digit
    obtain ⟨b, rfl⟩ : ∃ b, octets = [b] := by
      have hpos := List.length_pos_iff.mpr hne
      exact List.length_eq_one_iff.mp (by omega)
    rw [dottedOctets, List.map_singleton, List.map_singleton, String.intercalate_singleton,
      Nat.toString_eq_ofList_toDigits, String.toList_ofList] at h
    exact toDigits_ne_singleton b.toNat b.toNat_lt h.symm
  · rintro rfl
    rfl

/-- The dotted form of octets is ASCII. -/
theorem dottedOctets_ascii (octets : List UInt8) :
    ∀ c ∈ (dottedOctets octets).toList, c.toNat < 128 := by
  intro c hc
  rw [dottedOctets, String.toList_intercalate, List.map_map] at hc
  rcases Text.mem_intercalate hc with hdot | ⟨part, hpart, hc⟩
  · rw [List.mem_singleton.mp hdot]
    decide
  · obtain ⟨b, _, rfl⟩ := List.mem_map.mp hpart
    rw [Function.comp_apply, Nat.toString_eq_ofList_toDigits, String.toList_ofList] at hc
    have hdigit := Nat.isDigit_of_mem_toDigits (by decide) (by decide) hc
    rw [Char.isDigit, Bool.and_eq_true, decide_eq_true_eq, decide_eq_true_eq] at hdigit
    exact lt_of_le_of_lt hdigit.2 (by decide)

/-! ### What the stored index denotes -/

/-- The sub-identifiers of what is stored of a value. -/
def IndexCell.encoded : IndexCell → List ℕ
  | integer n => [n]
  | ipAddress a b c d => [a.toNat, b.toNat, c.toNat, d.toNat]
  | octetString fixed octets => withLength fixed ((dottedOctets octets).toList.map Char.toNat)
  | objectIdentifier _ _ _ _ => []

section Denoted

variable {encoder : IndexEncoder} {columns : List IndexColumn} {items : List VarbindItem}
  {cells : List IndexCell} {subIds : List ℕ}

/-- There is one argument for each column. -/
theorem length_of_denotedInstance (h : denotedInstance encoder columns items = some subIds) :
    columns.length = items.length := by
  induction columns generalizing items subIds with
  | nil =>
    cases items with
    | nil => rfl
    | cons item items => cases h
  | cons column columns ih =>
    cases items with
    | nil => cases h
    | cons item items =>
      obtain ⟨_, _, h⟩ := Option.bind_eq_some_iff.mp h
      obtain ⟨rest, hrest, _⟩ := Option.bind_eq_some_iff.mp h
      rw [List.length_cons, List.length_cons, ih hrest]

/-- There is one item for each value only if none is an identifier. -/
theorem not_objectIdentifier_of_length (h : (cells.flatMap IndexCell.items).length ≤ cells.length) :
    ∀ cell ∈ cells, cell.items.length = 1 := by
  have hone : ∀ cell : IndexCell, 1 ≤ cell.items.length := by
    intro cell
    cases cell <;> simp [IndexCell.items]
  have hle : ∀ cells : List IndexCell, cells.length ≤ (cells.flatMap IndexCell.items).length := by
    intro cells
    induction cells with
    | nil => exact le_rfl
    | cons cell cells ih =>
      have hcell := hone cell
      rw [List.flatMap_cons, List.length_append, List.length_cons]
      omega
  induction cells with
  | nil => simp
  | cons cell cells ih =>
    have hcell := hone cell
    have hcells := hle cells
    rw [List.flatMap_cons, List.length_append, List.length_cons] at h
    exact List.forall_mem_cons.mpr ⟨by omega, ih (by omega)⟩

/-- What the items of values denote, if none is an identifier. -/
theorem denotedInstance_items (hencoder : EncodesAsDocumented encoder)
    (hcells : ∀ cell ∈ cells, cell.items.length = 1) :
    denotedInstance encoder (cells.map IndexCell.column) (cells.flatMap IndexCell.items) =
      some (cells.flatMap IndexCell.encoded) := by
  induction cells with
  | nil => rfl
  | cons cell cells ih =>
    rw [List.forall_mem_cons] at hcells
    have hrest := ih hcells.2
    have hcell : ∃ item, cell.items = [item] ∧
        encoder.encode cell.column item = some cell.encoded := by
      cases cell with
      | integer n => exact ⟨_, rfl, hencoder.integer n⟩
      | ipAddress a b c d => exact ⟨_, rfl, hencoder.ipAddress a b c d⟩
      | octetString fixed octets =>
        exact ⟨_, rfl, hencoder.octetString fixed _ (dottedOctets_ascii octets)⟩
      | objectIdentifier fixed first second more => simp [IndexCell.items] at hcells
    obtain ⟨item, hitem, hencode⟩ := hcell
    rw [List.map_cons, List.flatMap_cons, List.flatMap_cons, hitem, List.singleton_append,
      denotedInstance, hencode, hrest]
    rfl

/-- A value that is no identifier comes back if it is encoded as it was. -/
theorem subIds_eq_encoded_iff {cell : IndexCell} (h : cell.items.length = 1) :
    cell.subIds = cell.encoded ↔ cell.ComesBack := by
  cases cell with
  | integer n => exact iff_of_true rfl trivial
  | ipAddress a b c d => exact iff_of_true rfl trivial
  | octetString fixed octets =>
    rw [IndexCell.ComesBack, ← dottedOctets_eq_iff, IndexCell.subIds, IndexCell.encoded, withLength,
      withLength]
    cases fixed with
    | true => exact Iff.rfl
    | false =>
      constructor
      · exact fun heq => (List.cons.inj heq).2
      · intro heq
        simp only [Bool.false_eq_true, if_false, heq]
  | objectIdentifier fixed first second more => simp [IndexCell.items] at h

/-- What is encoded is no shorter than the value. -/
theorem length_subIds_le {cell : IndexCell} (h : cell.items.length = 1) :
    cell.subIds.length ≤ cell.encoded.length := by
  cases cell with
  | integer n => exact le_rfl
  | ipAddress a b c d => exact le_rfl
  | octetString fixed octets =>
    have hlength : octets.length ≤ (dottedOctets octets).toList.length := by
      by_cases hne : octets = []
      · rw [hne]
        exact Nat.zero_le _
      · have hpos := List.length_pos_iff.mpr hne
        have hdotted := length_dottedOctets hne
        omega
    rw [IndexCell.subIds, IndexCell.encoded, withLength, withLength]
    cases fixed <;> simpa using hlength
  | objectIdentifier fixed first second more => simp [IndexCell.items] at h

/-- **The rows whose stored index denotes them** are those whose values all come back. -/
theorem denotedInstance_rowItems_iff (hencoder : EncodesAsDocumented encoder) (row : TableRow) :
    denotedInstance encoder (row.cells.map IndexCell.column) (rowItems row) = some row.instanceId ↔
      ∀ cell ∈ row.cells, cell.ComesBack := by
  constructor
  · intro h
    have hlength : (rowItems row).length ≤ row.cells.length := by
      rw [← length_of_denotedInstance h, List.length_map]
    have hcells := not_objectIdentifier_of_length hlength
    rw [rowItems, denotedInstance_items hencoder hcells, Option.some_inj] at h
    have hsame := flatMap_inj_of_length_le (fun cell hcell => length_subIds_le (hcells cell hcell))
      h.symm
    exact fun cell hcell => (subIds_eq_encoded_iff (hcells cell hcell)).mp (hsame cell hcell)
  · intro h
    have hcells : ∀ cell ∈ row.cells, cell.items.length = 1 := by
      intro cell hcell
      have hback := h cell hcell
      cases cell with
      | objectIdentifier => exact hback.elim
      | integer | ipAddress | octetString => rfl
    rw [rowItems, denotedInstance_items hencoder hcells, Option.some_inj, TableRow.instanceId]
    exact List.flatMap_congr fun cell hcell =>
      ((subIds_eq_encoded_iff (hcells cell hcell)).mpr (h cell hcell)).symm

end Denoted

/-! ### The generated profile -/

/-- The settings of the task, with the conditions asked of a collection of attributes. -/
def PollerEnv.withAttributes (env : PollerEnv) (engine : RegexEngine)
    (docs : List (AttributesDoc MetricItem)) : PollerEnv :=
  { env with query := conditionRecords engine docs }

/-- The varbind of a row. -/
def rowVarbind (mib object : VarbindItem) (row : TableRow) : List VarbindItem :=
  [mib, object] ++ rowItems row

/-- A varbind denotes the instance of a row. -/
def DenotesRow (encoder : IndexEncoder) (row : TableRow) (varbind : List VarbindItem) : Prop :=
  denotedInstance encoder (row.cells.map IndexCell.column) (varbind.drop 2) = some row.instanceId

instance (encoder : IndexEncoder) (row : TableRow) (varbind : List VarbindItem) :
    Decidable (DenotesRow encoder row varbind) :=
  inferInstanceAs (Decidable (_ = _))

/-- **The generated profile has a varbind for each row that meets the conditions, and it denotes
the row** exactly if the values of its index are numbers, addresses and empty texts. -/
theorem generateConditionalProfile_denotes_iff {encoder : IndexEncoder}
    (hencoder : EncodesAsDocumented encoder) {env : PollerEnv} {engine : RegexEngine}
    {docs found : List (AttributesDoc MetricItem)} {address : String} {body generated : ProfileBody}
    (hrun : generateConditionalProfile (env.withAttributes engine docs) body address =
      .ok generated)
    (hfound : filterConditionOnDatabase engine docs address (body.conditions.getD []) = .ok found)
    {doc : AttributesDoc MetricItem} (hdoc : doc ∈ found) {row : TableRow}
    (hrow : doc.indexes = some (extractIndexes (row.cells.map IndexCell.content)))
    {mib object : VarbindItem} (hvarbind : [mib, object] ∈ body.varBinds.getD []) :
    (∃ varbinds, generated.varBinds = some varbinds ∧ rowVarbind mib object row ∈ varbinds) ∧
      (DenotesRow encoder row (rowVarbind mib object row) ↔
        ∀ cell ∈ row.cells, cell.ComesBack) := by
  refine ⟨?_, denotedInstance_rowItems_iff hencoder row⟩
  unfold generateConditionalProfile at hrun
  split at hrun
  · cases hrun
  · cases hrun
  · next varbinds _ heq =>
    rw [heq] at hvarbind
    obtain ⟨records, hrecords, hgenerated⟩ := PyError.bind_eq_ok.mp hrun
    obtain ⟨found', hfound', hmap⟩ := PyError.bind_eq_ok.mp hrecords
    cases hfound.symm.trans hfound'
    have hrecord : recordIndexes doc = .ok (rowItems row) := by
      rw [recordIndexes, hrow]
      exact storedItems_extractIndexes row
    have hmem : rowItems row ∈ records := ((PyError.mapM_eq_ok hmap).2 _).mpr ⟨doc, hdoc, hrecord⟩
    cases hgenerated
    refine ⟨_, rfl, List.mem_flatMap.mpr ⟨_, hmem, List.mem_map.mpr ⟨[mib, object], ?_, rfl⟩⟩⟩
    exact List.mem_filter.mpr ⟨hvarbind, rfl⟩

/-! ### A row with a name for an index -/

/-- The numbers of a dotted text. -/
def dottedNumbers (s : String) : Option (List ℕ) :=
  (Text.splitOn '.' s).mapM fun part => (Text.parseInt part).map Int.toNat

/-- The encoding of an argument whose text is ASCII. -/
def asciiEncoder : IndexEncoder where
  encode
    | .integer, .int i => if 0 ≤ i then some [i.toNat] else none
    | .ipAddress, .str s => dottedNumbers s
    | .octetString fixed, .str s => some (withLength fixed (s.toList.map Char.toNat))
    | .objectIdentifier fixed, .str s => (dottedNumbers s).map (withLength fixed)
    | _, _ => none

/-- A dotted text has the numbers it is made of. -/
theorem dottedNumbers_dottedOctets {octets : List UInt8} (hne : octets ≠ []) :
    dottedNumbers (dottedOctets octets) = some (octets.map UInt8.toNat) := by
  have hdigits : ∀ part ∈ octets.map fun b => toString b.toNat, '.' ∉ part.toList := by
    intro part hpart
    obtain ⟨b, _, rfl⟩ := List.mem_map.mp hpart
    rw [Nat.toString_eq_ofList_toDigits, String.toList_ofList]
    exact fun hmem => absurd (Nat.isDigit_of_mem_toDigits (by decide) (by decide) hmem) (by decide)
  rw [dottedNumbers, dottedOctets,
    Text.splitOn_intercalate_of_notMem rfl (by simpa using hne) hdigits]
  clear hdigits hne
  induction octets with
  | nil => rfl
  | cons b octets ih =>
    have hparse : Text.parseInt (toString b.toNat) = some (b.toNat : ℤ) :=
      Text.parseInt_toString_of_le (b.toNat_lt.le.trans (by norm_num))
    rw [List.map_cons, List.mapM_cons, ih, hparse]
    rfl

theorem encode_integer (n : ℕ) : asciiEncoder.encode .integer (.int n) = some [n] := by
  simp [asciiEncoder]

theorem encode_ipAddress (s : String) :
    asciiEncoder.encode .ipAddress (.str s) = dottedNumbers s := rfl

theorem encode_octetString (fixed : Bool) (s : String) :
    asciiEncoder.encode (.octetString fixed) (.str s) =
      some (withLength fixed (s.toList.map Char.toNat)) := rfl

theorem encodesAsDocumented_asciiEncoder : EncodesAsDocumented asciiEncoder := by
  refine ⟨encode_integer, ?_, ?_⟩
  · intro a b c d
    rw [encode_ipAddress, dottedNumbers_dottedOctets (List.cons_ne_nil _ _)]
    rfl
  · intro fixed s _
    exact encode_octetString fixed s

/-- A conditional profile of the groups of the access control that are active. -/
def accessProfile : ProfileBody :=
  { frequency := some 60
    varBinds := some [[.str "SNMP-VIEW-BASED-ACM-MIB", .str "vacmGroupName"]]
    conditions := some [{ field := "SNMP-VIEW-BASED-ACM-MIB.vacmStatus", operation := "equals",
                          value := .scalar (.str "active") }] }

/-- A row by the name `ab`. -/
def namedRow : TableRow := ⟨[.octetString false [97, 98]], List.cons_ne_nil _ _⟩

/-- The document of that row. -/
def namedRowDoc : AttributesDoc MetricItem :=
  { fieldGroup "SNMP-VIEW-BASED-ACM-MIB::bytes=b'ab'" "SNMP-VIEW-BASED-ACM-MIB.vacmStatus"
      (.str "active") with
    indexes := some (extractIndexes (namedRow.cells.map IndexCell.content)) }

/-- The settings of a task. -/
def accessEnv : PollerEnv where
  pollBaseProfiles := true
  search := fun _ _ => .ok false
  query := fun _ _ => .ok []

/-- The profile that is generated for the host of that row. -/
def generatedAccessProfile : ProfileBody :=
  createProfile (some 60) [[.str "SNMP-VIEW-BASED-ACM-MIB", .str "vacmGroupName"]]
    [[.str "97.98"]]

theorem generateConditionalProfile_accessProfile :
    generateConditionalProfile (accessEnv.withAttributes plainEngine [namedRowDoc]) accessProfile
      "10.0.0.1:161" = .ok generatedAccessProfile := by
  decide +kernel

theorem filterConditionOnDatabase_namedRowDoc :
    filterConditionOnDatabase plainEngine [namedRowDoc] "10.0.0.1:161"
      (accessProfile.conditions.getD []) = .ok [namedRowDoc] := by
  rfl

theorem generateConditionalProfile_denotes_iff_namedRow :
    (∃ varbinds, generatedAccessProfile.varBinds = some varbinds ∧
        rowVarbind (.str "SNMP-VIEW-BASED-ACM-MIB") (.str "vacmGroupName") namedRow ∈ varbinds) ∧
      (DenotesRow asciiEncoder namedRow
          (rowVarbind (.str "SNMP-VIEW-BASED-ACM-MIB") (.str "vacmGroupName") namedRow) ↔
        ∀ cell ∈ namedRow.cells, cell.ComesBack) :=
  generateConditionalProfile_denotes_iff encodesAsDocumented_asciiEncoder
    generateConditionalProfile_accessProfile filterConditionOnDatabase_namedRowDoc
    (List.mem_singleton.mpr rfl) rfl (List.mem_singleton.mpr rfl)

/-- **The varbind for the row by the name `ab` denotes the row by the name `97.98`.** -/
theorem generateConditionalProfile_other_row :
    EncodesAsDocumented asciiEncoder ∧
      generateConditionalProfile (accessEnv.withAttributes plainEngine [namedRowDoc]) accessProfile
        "10.0.0.1:161" = .ok generatedAccessProfile ∧
      generatedAccessProfile.varBinds =
        some [rowVarbind (.str "SNMP-VIEW-BASED-ACM-MIB") (.str "vacmGroupName") namedRow] ∧
      ¬ DenotesRow asciiEncoder namedRow
        (rowVarbind (.str "SNMP-VIEW-BASED-ACM-MIB") (.str "vacmGroupName") namedRow) ∧
      DenotesRow asciiEncoder ⟨[.octetString false [57, 55, 46, 57, 56]], List.cons_ne_nil _ _⟩
        (rowVarbind (.str "SNMP-VIEW-BASED-ACM-MIB") (.str "vacmGroupName") namedRow) := by
  refine ⟨encodesAsDocumented_asciiEncoder, generateConditionalProfile_accessProfile, ?_, ?_, ?_⟩
  · decide +kernel
  · decide +kernel
  · decide +kernel

end Sc4snmp
