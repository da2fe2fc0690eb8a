import Mathlib.Tactic.Common

/-!
# Comma-separated values

A reader of comma-separated records: it takes one line after the other, and a record goes on
over the end of a line inside quotes.  A field that is too long, and a character behind a
carriage return, end the reading.  The writer puts those fields into quotes that need them.

## Main definitions

* `Csv.lines` — the lines of a text, each with its newline.
* `Csv.Reader`, `Csv.processChar`, `Csv.endLine` — the state machine of a record.
* `Csv.rows` — the records that are read, and whether the reading failed.
* `Csv.Plain`, `Csv.render` — fields that need no quotes, and records of them as a text.
* `Csv.write` — any records as a text.

## Main results

* `read_render` — records of plain fields are read as they were written.
* `read_write` — **and so are any records**, when no field is too long.
-/

namespace Csv

/-! ### The reader -/

/-- The lines of a text, each with its newline. -/
def lines : List Char → List (List Char)
  | [] => []
  | '\n' :: cs => ['\n'] :: lines cs
  | c :: cs =>
    match lines cs with
    | [] => [[c]]
    | line :: rest => (c :: line) :: rest

/-- Where a reader is in a record. -/
inductive ReaderState
  | startRecord
  | startField
  | inField
  | inQuotedField
  | quoteInQuotedField
  | eatCrnl
  deriving DecidableEq, Repr

/-- The state, the fields of the record so far, and the field that is read. -/
structure Reader where
  state : ReaderState
  fields : List (List Char)
  field : List Char
  deriving DecidableEq, Repr

namespace Reader

/-- The reader in front of a record. -/
def fresh : Reader := ⟨.startRecord, [], []⟩

/-- The field is complete. -/
def save (r : Reader) (next : ReaderState) : Reader := ⟨next, r.fields ++ [r.field], []⟩

/-- A character goes into the field, unless that is full. -/
def add (limit : ℕ) (r : Reader) (c : Char) (next : ReaderState) : Option Reader :=
  if r.field.length < limit then some ⟨next, r.fields, r.field ++ [c]⟩ else none

end Reader

/-- The characters that end a record. -/
def isNewline (c : Char) : Bool := c = '\n' || c = '\r'

/-- A character at the beginning of a field. -/
def startField (limit : ℕ) (r : Reader) (c : Char) : Option Reader :=
  if isNewline c then some (r.save .eatCrnl)
  else if c = '"' then some { r with state := .inQuotedField }
  else if c = ',' then some (r.save .startField)
  else r.add limit c .inField

/-- One character. -/
def processChar (limit : ℕ) (r : Reader) (c : Char) : Option Reader :=
  match r.state with
  | .startRecord =>
    if isNewline c then some { r with state := .eatCrnl } else startField limit r c
  | .startField => startField limit r c
  | .inField =>
    if isNewline c then some (r.save .eatCrnl)
    else if c = ',' then some (r.save .startField)
    else r.add limit c .inField
  | .inQuotedField =>
    if c = '"' then some { r with state := .quoteInQuotedField }
    else r.add limit c .inQuotedField
  | .quoteInQuotedField =>
    if c = '"' then r.add limit c .inQuotedField
    else if c = ',' then some (r.save .startField)
    else if isNewline c then some (r.save .eatCrnl)
    else r.add limit c .inField
  | .eatCrnl => if isNewline c then some r else none

/-- The end of a line. -/
def endLine (r : Reader) : Reader :=
  match r.state with
  | .startRecord | .inQuotedField => r
  | .startField | .inField | .quoteInQuotedField => r.save .startRecord
  | .eatCrnl => { r with state := .startRecord }

/-- One line. -/
def readLine (limit : ℕ) (r : Reader) (line : List Char) : Option Reader :=
  (line.foldlM (processChar limit) r).map endLine

/-- The records of some lines, and whether the reading failed behind them. -/
def rows (limit : ℕ) : Reader → List (List Char) → List (List (List Char)) × Bool
  | r, [] =>
    -- the text ends in the middle of a record
    if r.field ≠ [] ∨ r.state = .inQuotedField then ([(r.save r.state).fields], false)
    else ([], false)
  | r, line :: lines =>
    match readLine limit r line with
    | none => ([], true)
    | some r' =>
      if r'.state = .startRecord then
        let (records, failed) := rows limit .fresh lines
        (r'.fields :: records, failed)
      else rows limit r' lines

/-- The records of a text, and whether the reading failed behind them. -/
def read (limit : ℕ) (text : List Char) : List (List (List Char)) × Bool :=
  rows limit .fresh (lines text)

example : read 3 "a,\"b\n\"\"\"\r\n\nc".toList =
    ([[['a'], ['b', '\n', '"']], [], [['c']]], false) := by decide

/-! ### Plain records -/

/-- A field that needs no quotes and is not too long. -/
structure Plain (limit : ℕ) (field : List Char) : Prop where
  chars : ∀ c ∈ field, isNewline c = false ∧ c ≠ '"' ∧ c ≠ ','
  length : field.length ≤ limit

/-- Records of two fields as a text. -/
def render : List (List Char × List Char) → List Char
  | [] => []
  | (a, b) :: records => a ++ ',' :: b ++ '\n' :: render records

theorem lines_append {line : List Char} (h : '\n' ∉ line) (rest : List Char) :
    lines (line ++ '\n' :: rest) = (line ++ ['\n']) :: lines rest := by
  induction line with
  | nil => rfl
  | cons c line ih =>
    rw [List.mem_cons, not_or] at h
    rw [List.cons_append, lines, ih h.2]
    · rfl
    · exact fun hc => h.1 hc.symm

theorem processChar_plain {limit : ℕ} {c : Char} (hc : isNewline c = false ∧ c ≠ '"' ∧ c ≠ ',')
    (fields : List (List Char)) {state : ReaderState}
    (hstate : state = .startRecord ∨ state = .startField ∨ state = .inField) {before : List Char}
    (hlength : before.length < limit) :
    processChar limit ⟨state, fields, before⟩ c = some ⟨.inField, fields, before ++ [c]⟩ := by
  rcases hstate with rfl | rfl | rfl <;>
    simp [processChar, startField, Reader.add, hc.1, hc.2.1, hc.2.2, hlength]

/-- The characters of a plain field. -/
theorem foldlM_plain {limit : ℕ} (state : ReaderState) (fields : List (List Char))
    (before : List Char) {field : List Char}
    (hstate : state = .startRecord ∨ state = .startField ∨ state = .inField)
    (h : ∀ c ∈ field, isNewline c = false ∧ c ≠ '"' ∧ c ≠ ',')
    (hlength : before.length + field.length ≤ limit) :
    field.foldlM (processChar limit) ⟨state, fields, before⟩ =
      some ⟨if field = [] then state else .inField, fields, before ++ field⟩ := by
  induction field generalizing state before with
  | nil => simp
  | cons c field ih =>
    rw [List.forall_mem_cons] at h
    rw [List.length_cons] at hlength
    have hrest := ih .inField (before ++ [c]) (Or.inr (Or.inr rfl)) h.2
      (by rw [List.length_append, List.length_singleton]; omega)
    rw [List.foldlM_cons, processChar_plain h.1 fields hstate (by omega)]
    simpa using hrest

/-- The line of a plain record. -/
theorem readLine_plain {limit : ℕ} {a b : List Char} (ha : Plain limit a) (hb : Plain limit b) :
    readLine limit .fresh (a ++ ',' :: b ++ ['\n']) = some ⟨.startRecord, [a, b], []⟩ := by
  have hfirst := foldlM_plain .startRecord [] [] (Or.inl rfl) ha.chars (by simpa using ha.length)
  have hsecond := foldlM_plain .startField [a] [] (Or.inr (Or.inl rfl)) hb.chars
    (by simpa using hb.length)
  have hcomma : processChar limit ⟨if a = [] then .startRecord else .inField, [], a⟩ ',' =
      some ⟨.startField, [a], []⟩ := by
    split <;> rfl
  have hnewline : processChar limit ⟨if b = [] then .startField else .inField, [a], b⟩ '\n' =
      some ⟨.eatCrnl, [a, b], []⟩ := by
    split <;> rfl
  rw [List.nil_append] at hfirst hsecond
  rw [readLine, List.append_assoc, List.foldlM_append, Reader.fresh, hfirst]
  simp [List.foldlM_append, hcomma, hsecond, hnewline, endLine]

/-- **Records of plain fields are read as they were written.** -/
theorem read_render {limit : ℕ} {records : List (List Char × List Char)}
    (h : ∀ e ∈ records, Plain limit e.1 ∧ Plain limit e.2) :
    read limit (render records) = (records.map fun e => [e.1, e.2], false) := by
  unfold read
  induction records with
  | nil => simp [render, lines, rows, Reader.fresh]
  | cons e records ih =>
    obtain ⟨a, b⟩ := e
    rw [List.forall_mem_cons] at h
    obtain ⟨⟨ha, hb⟩, hrecords⟩ := h
    have hnewline : '\n' ∉ a ++ ',' :: b := by
      intro hmem
      rcases List.mem_append.mp hmem with hmem | hmem
      · exact absurd (ha.chars _ hmem).1 (by decide)
      · rcases List.mem_cons.mp hmem with hmem | hmem
        · exact absurd hmem (by decide)
        · exact absurd (hb.chars _ hmem).1 (by decide)
    rw [render, lines_append hnewline, rows, readLine_plain ha hb, ih hrecords]
    rfl

/-! ### The writer -/

/-- A field that cannot stand without quotes. -/
def needsQuotes (field : List Char) : Bool :=
  field.any fun c => isNewline c || c = '"' || c = ','

/-- A field inside quotes, with its own quotes doubled. -/
def doubleQuotes : List Char → List Char
  | [] => []
  | c :: cs => if c = '"' then '"' :: '"' :: doubleQuotes cs else c :: doubleQuotes cs

/-- A field, in quotes where it needs them. -/
def writeField (field : List Char) : List Char :=
  if needsQuotes field then '"' :: doubleQuotes field ++ ['"'] else field

/-- The fields of a record, with commas between them. -/
def writeFields : List (List Char) → List Char
  | [] => []
  | [field] => writeField field
  | field :: next :: fields => writeField field ++ ',' :: writeFields (next :: fields)

/-- A record with its end.  A single field that is empty is written in quotes. -/
def writeRecord (record : List (List Char)) : List Char :=
  (if record = [[]] then ['"', '"'] else writeFields record) ++ ['\r', '\n']

/-- Records as a text. -/
def write (records : List (List (List Char))) : List Char := records.flatMap writeRecord

example : write ["a\"b".toList :: [[]], [[]]] = "\"a\"\"b\",\r\n\"\"\r\n".toList := by decide

section Write

variable {limit : ℕ} {r r' : Reader} {c : Char} {t : List Char}

theorem lines_ne_nil (ht : t ≠ []) : lines t ≠ [] := by
  cases t with
  | nil => exact absurd rfl ht
  | cons c t =>
    unfold lines
    split
    · next heq => cases heq
    · exact List.cons_ne_nil _ _
    · split <;> exact List.cons_ne_nil _ _

/-- The records of what is left of a text, the reader being inside a line or in front of one. -/
theorem rows_cons (hc : c ≠ '\n') (ht : t ≠ []) (hr : processChar limit r c = some r') :
    rows limit r (lines (c :: t)) = rows limit r' (lines t) := by
  cases hline : lines t with
  | nil => exact absurd hline (lines_ne_nil ht)
  | cons line rest =>
    have hlines : lines (c :: t) = (c :: line) :: rest := by
      rw [lines, hline]
      exact hc
    rw [hlines]
    simp only [rows, readLine, List.foldlM_cons, hr, Option.bind_eq_bind, Option.bind_some]

/-- A newline inside quotes. -/
theorem rows_newline_quoted {fields : List (List Char)} {before : List Char}
    (hlength : before.length < limit) :
    rows limit ⟨.inQuotedField, fields, before⟩ (lines ('\n' :: t)) =
      rows limit ⟨.inQuotedField, fields, before ++ ['\n']⟩ (lines t) := by
  have hadd : processChar limit ⟨.inQuotedField, fields, before⟩ '\n' =
      some ⟨.inQuotedField, fields, before ++ ['\n']⟩ := if_pos hlength
  rw [lines, rows]
  simp [readLine, hadd, endLine]

/-- Characters that are read inside a line. -/
theorem rows_foldlM {pre : List Char} (hpre : '\n' ∉ pre) (ht : t ≠ [])
    (hr : pre.foldlM (processChar limit) r = some r') :
    rows limit r (lines (pre ++ t)) = rows limit r' (lines t) := by
  induction pre generalizing r with
  | nil =>
    cases hr
    rfl
  | cons c pre ih =>
    rw [List.mem_cons, not_or] at hpre
    rw [List.foldlM_cons] at hr
    obtain ⟨r₁, hr₁, hr⟩ := Option.bind_eq_some_iff.mp hr
    rw [List.cons_append, rows_cons (Ne.symm hpre.1) (List.append_ne_nil_of_right_ne_nil _ ht) hr₁]
    exact ih hpre.2 hr

/-- The field inside quotes. -/
theorem rows_doubleQuotes (fields : List (List Char)) {before field : List Char}
    (hlength : before.length + field.length ≤ limit) (ht : t ≠ []) :
    rows limit ⟨.inQuotedField, fields, before⟩ (lines (doubleQuotes field ++ t)) =
      rows limit ⟨.inQuotedField, fields, before ++ field⟩ (lines t) := by
  induction field generalizing before with
  | nil => rw [List.append_nil, doubleQuotes, List.nil_append]
  | cons c field ih =>
    rw [List.length_cons] at hlength
    have hfull : before.length < limit := by omega
    have hrest := @ih (before ++ [c])
      (by rw [List.length_append, List.length_singleton]; omega)
    rw [List.append_assoc, List.singleton_append] at hrest
    have hne : doubleQuotes field ++ t ≠ [] := List.append_ne_nil_of_right_ne_nil _ ht
    by_cases hquote : c = '"'
    · subst hquote
      have hsecond : processChar limit ⟨.quoteInQuotedField, fields, before⟩ '"' =
          some ⟨.inQuotedField, fields, before ++ ['"']⟩ := if_pos hfull
      rw [doubleQuotes, if_pos rfl, List.cons_append, List.cons_append,
        rows_cons (by decide) (List.cons_ne_nil _ _) rfl, rows_cons (by decide) hne hsecond]
      exact hrest
    by_cases hnewline : c = '\n'
    · subst hnewline
      rw [doubleQuotes, if_neg hquote, List.cons_append, rows_newline_quoted hfull]
      exact hrest
    · have hadd : processChar limit ⟨.inQuotedField, fields, before⟩ c =
          some ⟨.inQuotedField, fields, before ++ [c]⟩ :=
        (if_neg hquote).trans (if_pos hfull)
      rw [doubleQuotes, if_neg hquote, List.cons_append, rows_cons hnewline hne hadd]
      exact hrest

/-- The reader behind a field. -/
structure BehindField (state : ReaderState) (fields : List (List Char)) (field : List Char)
    (r : Reader) : Prop where
  saved : r.fields = fields
  current : r.field = field
  place : r.state = .inField ∨ r.state = .quoteInQuotedField ∨ field = [] ∧ r.state = state

/-- A field is read, with quotes or without. -/
theorem rows_writeField {state : ReaderState}
    (hstate : state = .startRecord ∨ state = .startField) (fields : List (List Char))
    {field : List Char} (hlength : field.length ≤ limit) :
    ∃ r, BehindField state fields field r ∧ ∀ t ≠ [],
      rows limit ⟨state, fields, []⟩ (lines (writeField field ++ t)) = rows limit r (lines t) := by
  by_cases hquotes : needsQuotes field = true
  · refine ⟨⟨.quoteInQuotedField, fields, field⟩, ⟨rfl, rfl, Or.inr (Or.inl rfl)⟩, ?_⟩
    intro t ht
    have hopen : processChar limit ⟨state, fields, []⟩ '"' =
        some ⟨.inQuotedField, fields, []⟩ := by
      rcases hstate with rfl | rfl <;> rfl
    have hne : doubleQuotes field ++ ('"' :: t) ≠ [] :=
      List.append_ne_nil_of_right_ne_nil _ (List.cons_ne_nil _ _)
    rw [writeField, if_pos hquotes, List.cons_append, List.cons_append, List.append_assoc,
      List.singleton_append, rows_cons (by decide) hne hopen,
      rows_doubleQuotes fields (by simpa using hlength) (List.cons_ne_nil _ _),
      rows_cons (by decide) ht rfl]
    rfl
  · have hplain : ∀ c ∈ field, isNewline c = false ∧ c ≠ '"' ∧ c ≠ ',' := by
      intro c hc
      rw [needsQuotes, List.any_eq_true] at hquotes
      have hnot := fun h => hquotes ⟨c, hc, h⟩
      simpa [not_or, and_assoc] using hnot
    have hread := foldlM_plain state fields [] (hstate.imp_right Or.inl) hplain
      (by simpa using hlength)
    refine ⟨⟨if field = [] then state else .inField, fields, field⟩, ⟨rfl, rfl, ?_⟩, ?_⟩
    · dsimp only
      split
      · next hempty => exact Or.inr (Or.inr ⟨hempty, rfl⟩)
      · exact Or.inl rfl
    · intro t ht
      have hnewline : '\n' ∉ field := fun hmem => absurd (hplain _ hmem).1 (by decide)
      rw [writeField, if_neg hquotes]
      exact rows_foldlM hnewline ht hread

/-- A comma behind a field. -/
theorem rows_comma {state : ReaderState} (hstate : state = .startRecord ∨ state = .startField)
    {fields : List (List Char)} {field : List Char} (h : BehindField state fields field r)
    (ht : t ≠ []) :
    rows limit r (lines (',' :: t)) =
      rows limit ⟨.startField, fields ++ [field], []⟩ (lines t) := by
  obtain ⟨rstate, rfields, rfield⟩ := r
  obtain ⟨rfl, rfl, hr⟩ := h
  refine rows_cons (by decide) ht ?_
  rcases hr with rfl | rfl | ⟨-, rfl⟩
  · rfl
  · rfl
  · rcases hstate with rfl | rfl <;> rfl

/-- The end of a record behind a field. -/
theorem rows_end {state : ReaderState} {fields : List (List Char)} {field : List Char}
    (hstate : state = .startField ∨ state = .startRecord ∧ field ≠ [])
    (h : BehindField state fields field r) (t : List Char) :
    rows limit r (lines ('\r' :: '\n' :: t)) =
      ((fields ++ [field]) :: (rows limit .fresh (lines t)).1,
        (rows limit .fresh (lines t)).2) := by
  obtain ⟨rstate, rfields, rfield⟩ := r
  obtain ⟨rfl, rfl, hr⟩ := h
  have hreturn : processChar limit ⟨rstate, rfields, rfield⟩ '\r' =
      some ⟨.eatCrnl, rfields ++ [rfield], []⟩ := by
    rcases hr with rfl | rfl | ⟨hempty, rfl⟩
    · rfl
    · rfl
    · rcases hstate with rfl | ⟨-, hne⟩
      · rfl
      · exact absurd hempty hne
  rw [rows_cons (by decide) (List.cons_ne_nil _ _) hreturn, lines, rows]
  rfl

/-- The fields of a record. -/
theorem rows_writeFields {state : ReaderState} {fields before : List (List Char)}
    (hfields : fields ≠ [])
    (hstate : state = .startField ∨ state = .startRecord ∧ fields ≠ [[]])
    (hlength : ∀ field ∈ fields, field.length ≤ limit) (t : List Char) :
    rows limit ⟨state, before, []⟩ (lines (writeFields fields ++ '\r' :: '\n' :: t)) =
      ((before ++ fields) :: (rows limit .fresh (lines t)).1,
        (rows limit .fresh (lines t)).2) := by
  induction fields generalizing state before with
  | nil => exact absurd rfl hfields
  | cons field fields ih =>
    rw [List.forall_mem_cons] at hlength
    have hstart : state = .startRecord ∨ state = .startField :=
      hstate.elim Or.inr fun h => Or.inl h.1
    obtain ⟨r, hr, hread⟩ := rows_writeField hstart before hlength.1
    cases fields with
    | nil =>
      rw [writeFields, hread _ (List.cons_ne_nil _ _)]
      exact rows_end (hstate.imp_right fun h => ⟨h.1, fun hempty => h.2 (by rw [hempty])⟩) hr t
    | cons next fields =>
      have hne : writeFields (next :: fields) ++ '\r' :: '\n' :: t ≠ [] :=
        List.append_ne_nil_of_right_ne_nil _ (List.cons_ne_nil _ _)
      rw [writeFields, List.append_assoc, List.cons_append, hread _ (List.cons_ne_nil _ _),
        rows_comma hstart hr hne, ih (List.cons_ne_nil _ _) (Or.inl rfl) hlength.2,
        List.append_assoc, List.singleton_append]

/-- **Records are read as they were written**, when no field is too long. -/
theorem read_write {records : List (List (List Char))}
    (h : ∀ record ∈ records, ∀ field ∈ record, field.length ≤ limit) :
    read limit (write records) = (records, false) := by
  unfold read
  induction records with
  | nil => rfl
  | cons record records ih =>
    rw [List.forall_mem_cons] at h
    have hrest := ih h.2
    rw [write, List.flatMap_cons, ← write, writeRecord]
    by_cases hsingle : record = [[]]
    · subst hsingle
      have hbehind : BehindField .startField [] [] ⟨.quoteInQuotedField, [], []⟩ :=
        ⟨rfl, rfl, Or.inr (Or.inl rfl)⟩
      have hquotes : rows limit .fresh (lines ('"' :: '"' :: '\r' :: '\n' :: write records)) =
          rows limit ⟨.quoteInQuotedField, [], []⟩ (lines ('\r' :: '\n' :: write records)) := by
        rw [rows_cons (by decide) (List.cons_ne_nil _ _) rfl,
          rows_cons (by decide) (List.cons_ne_nil _ _) rfl]
        rfl
      rw [if_pos rfl]
      exact hquotes.trans ((rows_end (Or.inl rfl) hbehind _).trans (by rw [hrest]; rfl))
    rw [if_neg hsingle]
    by_cases hempty : record = []
    · subst hempty
      have hreturn : processChar limit .fresh '\r' = some ⟨.eatCrnl, [], []⟩ := rfl
      have hline : rows limit .fresh (lines ('\r' :: '\n' :: write records)) =
          ([] :: (rows limit .fresh (lines (write records))).1,
            (rows limit .fresh (lines (write records))).2) := by
        rw [rows_cons (by decide) (List.cons_ne_nil _ _) hreturn, lines, rows]
        rfl
      exact hline.trans (by rw [hrest])
    · have hrecord : rows limit .fresh (lines (writeFields record ++ '\r' :: '\n' ::
          write records)) = _ :=
        rows_writeFields hempty (Or.inr ⟨rfl, hsingle⟩) h.1 (write records)
      rw [List.append_assoc]
      exact hrecord.trans (by rw [hrest, List.nil_append])

end Write

/-! ### Lengths -/

theorem length_le_doubleQuotes (field : List Char) :
    field.length ≤ (doubleQuotes field).length := by
  induction field with
  | nil => exact Nat.le_refl _
  | cons c field ih =>
    rw [doubleQuotes]
    split
    · simp only [List.length_cons]
      omega
    · simp only [List.length_cons]
      omega

theorem length_le_writeField (field : List Char) : field.length ≤ (writeField field).length := by
  have hdouble := length_le_doubleQuotes field
  rw [writeField]
  split
  · simp only [List.length_append, List.length_cons]
    omega
  · exact Nat.le_refl _

theorem length_le_writeFields {fields : List (List Char)} {field : List Char}
    (h : field ∈ fields) : field.length ≤ (writeFields fields).length := by
  induction fields with
  | nil => cases h
  | cons first fields ih =>
    have hfirst := length_le_writeField first
    cases fields with
    | nil =>
      obtain rfl := List.mem_singleton.mp h
      exact hfirst
    | cons next fields =>
      rw [writeFields, List.length_append, List.length_cons]
      rcases List.mem_cons.mp h with rfl | h
      · omega
      · have hrest := ih h
        omega

/-- No field is longer than the text. -/
theorem length_le_write {records : List (List (List Char))} {record : List (List Char)}
    {field : List Char} (hrecord : record ∈ records) (hfield : field ∈ record) :
    field.length ≤ (write records).length := by
  have hle : (writeRecord record).length ≤ (write records).length :=
    (List.sublist_flatten_of_mem (List.mem_map_of_mem hrecord)).length_le
  refine Nat.le_trans ?_ hle
  rw [writeRecord, List.length_append]
  split
  · next hsingle =>
    rw [hsingle] at hfield
    rw [List.mem_singleton.mp hfield]
    exact Nat.zero_le _
  · exact Nat.le_trans (length_le_writeFields hfield) (Nat.le_add_right _ _)

end Csv
