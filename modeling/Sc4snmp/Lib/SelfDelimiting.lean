import Sc4snmp.Lib.Text

/-!
# Codes that show where they end

Codes joined with a separator can be told apart if each of them shows where it ends: by not
having the separator in it, or, as the display of a string of octets does, by a quote that
is not quoted.

## Main definitions

* `SelfDelimiting sep code` — a code in front of the separator, or of the end, determines the
  element and what is left.
* `Text.shownOctet` — an octet inside a display.

## Main results

* `SelfDelimiting.join_injective` — **joined codes determine the elements**.
* `Text.reprOctets_append_inj` — **the display of octets shows where it ends**.
-/

variable {α : Type*} {sep : Char} {code : α → List Char}

/-- The end, or a separator. -/
def Ends (sep : Char) (s : List Char) : Prop := s = [] ∨ ∃ rest, s = sep :: rest

/-- A code determines its element and what comes after it. -/
def SelfDelimiting (sep : Char) (code : α → List Char) : Prop :=
  ∀ a b s t, Ends sep s → Ends sep t → code a ++ s = code b ++ t → a = b ∧ s = t

/-- A map of characters that keeps the separator maps what is joined. -/
theorem map_intercalate {f : Char → Char} (hsep : f sep = sep) (parts : List (List Char)) :
    (List.intercalate [sep] parts).map f = List.intercalate [sep] (parts.map (List.map f)) := by
  induction parts with
  | nil => rfl
  | cons part parts ih =>
    cases parts with
    | nil => simp
    | cons next parts =>
      rw [List.map_cons, List.map_cons, List.intercalate_cons_cons, List.intercalate_cons_cons,
        List.map_append, List.map_append, ih, List.map_singleton, hsep]
      rfl

/-- Texts without the separator in front of it, or of the end. -/
theorem append_inj_of_notMem {u v s t : List Char} (hu : sep ∉ u) (hv : sep ∉ v)
    (hs : Ends sep s) (ht : Ends sep t) (h : u ++ s = v ++ t) : u = v ∧ s = t := by
  induction u generalizing v with
  | nil =>
    cases v with
    | nil => exact ⟨rfl, h⟩
    | cons c v =>
      rcases hs with rfl | ⟨rest, rfl⟩
      · cases h
      · exact absurd ((List.cons.inj h).1 ▸ List.mem_cons_self) hv
  | cons c u ih =>
    rw [List.mem_cons, not_or] at hu
    cases v with
    | nil =>
      rcases ht with rfl | ⟨rest, rfl⟩
      · cases h
      · exact absurd (List.cons.inj h).1.symm hu.1
    | cons d v =>
      rw [List.mem_cons, not_or] at hv
      obtain ⟨hcd, hrest⟩ := List.cons.inj h
      obtain ⟨huv, hst⟩ := ih hu.2 hv.2 hrest
      exact ⟨by rw [hcd, huv], hst⟩

namespace SelfDelimiting

/-- Codes without the separator. -/
theorem of_notMem (hinj : Function.Injective code) (hsep : ∀ a, sep ∉ code a) :
    SelfDelimiting sep code := by
  intro a b s t hs ht h
  obtain ⟨hab, hst⟩ := append_inj_of_notMem (hsep a) (hsep b) hs ht h
  exact ⟨hinj hab, hst⟩

/-- What a join has after its first code. -/
def afterFirst (sep : Char) (code : α → List Char) : List α → List Char
  | [] => []
  | b :: l => sep :: List.intercalate [sep] ((b :: l).map code)

theorem ends_afterFirst (l : List α) : Ends sep (afterFirst sep code l) := by
  cases l with
  | nil => exact Or.inl rfl
  | cons b l => exact Or.inr ⟨_, rfl⟩

theorem join_cons (a : α) (l : List α) :
    List.intercalate [sep] ((a :: l).map code) = code a ++ afterFirst sep code l := by
  cases l with
  | nil => simp [afterFirst]
  | cons b l =>
    rw [List.map_cons, List.map_cons, List.intercalate_cons_cons]
    simp [afterFirst]

/-- **Joined codes determine the elements**, if none of them is empty. -/
theorem join_injective (h : SelfDelimiting sep code) (hne : ∀ a, code a ≠ []) :
    Function.Injective fun l : List α => List.intercalate [sep] (l.map code) := by
  have hcons : ∀ a (l : List α), List.intercalate [sep] ((a :: l).map code) ≠ [] := by
    intro a l hnil
    rw [join_cons] at hnil
    exact hne a (List.append_eq_nil_iff.mp hnil).1
  intro l
  induction l with
  | nil =>
    intro l' heq
    cases l' with
    | nil => rfl
    | cons b l' => exact absurd heq.symm (hcons b l')
  | cons a l ih =>
    intro l' heq
    cases l' with
    | nil => exact absurd heq (hcons a l)
    | cons b l' =>
      simp only [join_cons] at heq
      obtain ⟨rfl, hrest⟩ := h a b _ _ (ends_afterFirst l) (ends_afterFirst l') heq
      -- both joins go on with the same codes, or neither does
      cases l with
      | nil =>
        cases l' with
        | nil => rfl
        | cons d l' => cases hrest
      | cons c l =>
        cases l' with
        | nil => cases hrest
        | cons d l' => rw [ih (List.cons.inj hrest).2]

end SelfDelimiting

/-! ### The display of octets -/

namespace Text

/-- The quote around octets. -/
def octetQuote (octets : List UInt8) : Char :=
  if 39 ∈ octets ∧ 34 ∉ octets then Char.ofNat 34 else Char.ofNat 39

/-- The character that quotes another. -/
def backslash : Char := Char.ofNat 92

/-- An octet inside a display with a quote. -/
def shownOctet (quote : Char) (b : UInt8) : List Char :=
  if Char.ofNat b.toNat = quote ∨ Char.ofNat b.toNat = backslash then
    [backslash, Char.ofNat b.toNat]
  else if b = 9 then [backslash, 't']
  else if b = 10 then [backslash, 'n']
  else if b = 13 then [backslash, 'r']
  else if b < 32 ∨ 127 ≤ b then [backslash, 'x'] ++ hexOctet b
  else [Char.ofNat b.toNat]

theorem toList_reprOctets (octets : List UInt8) :
    (reprOctets octets).toList = 'b' :: octetQuote octets ::
      (octets.flatMap (shownOctet (octetQuote octets)) ++ [octetQuote octets]) := by
  rw [reprOctets, String.toList_ofList]
  rfl

/-- The value of a hexadecimal digit. -/
def hexValue (c : Char) : ℕ := if c.isDigit then c.toNat - 48 else c.toNat - 87

/-- The octet at the beginning of a display, and the number of characters that show it. -/
def readOctet : List Char → Option (UInt8 × ℕ)
  | [] => none
  | c :: cs =>
    if c ≠ backslash then some (UInt8.ofNat c.toNat, 1)
    else match cs with
      | 't' :: _ => some (9, 2)
      | 'n' :: _ => some (10, 2)
      | 'r' :: _ => some (13, 2)
      | 'x' :: d :: e :: _ => some (UInt8.ofNat (16 * hexValue d + hexValue e), 4)
      | d :: _ => some (UInt8.ofNat d.toNat, 2)
      | [] => none

/-- A quote is one of two characters. -/
def IsQuote (quote : Char) : Prop := quote = Char.ofNat 39 ∨ quote = Char.ofNat 34

theorem isQuote_octetQuote (octets : List UInt8) : IsQuote (octetQuote octets) := by
  unfold octetQuote
  split
  · exact Or.inr rfl
  · exact Or.inl rfl

theorem toNat_ofNat_of_lt : ∀ n < 256, (Char.ofNat n).toNat = n := by decide +kernel

theorem hexValue_hexOctet : ∀ n < 256,
    16 * hexValue (Nat.digitChar (n / 16)) + hexValue (Nat.digitChar (n % 16)) = n := by
  decide +kernel

theorem eq_ofNat_of_char {b : UInt8} {n : ℕ} (hn : n < 256)
    (h : Char.ofNat b.toNat = Char.ofNat n) : b = UInt8.ofNat n := by
  have hnat := congrArg Char.toNat h
  rw [toNat_ofNat_of_lt _ b.toNat_lt, toNat_ofNat_of_lt n hn] at hnat
  rw [← hnat, UInt8.ofNat_toNat]

/-- **An octet is read from the beginning of its display.** -/
theorem readOctet_shownOctet {quote : Char} (hquote : IsQuote quote) (b : UInt8) (s : List Char) :
    readOctet (shownOctet quote b ++ s) = some (b, (shownOctet quote b).length) := by
  have hchar := toNat_ofNat_of_lt b.toNat b.toNat_lt
  unfold shownOctet
  split
  · next hc =>
    have hb : b = 39 ∨ b = 34 ∨ b = 92 := by
      rcases hc with hc | hc
      · rcases hquote with rfl | rfl
        · exact Or.inl (eq_ofNat_of_char (by decide) hc)
        · exact Or.inr (Or.inl (eq_ofNat_of_char (by decide) hc))
      · exact Or.inr (Or.inr (eq_ofNat_of_char (by decide) hc))
    rcases hb with rfl | rfl | rfl <;> rfl
  split
  · next hb =>
    subst hb
    rfl
  split
  · next hb =>
    subst hb
    rfl
  split
  · next hb =>
    subst hb
    rfl
  split
  · show some (UInt8.ofNat (16 * hexValue (Nat.digitChar (b.toNat / 16)) +
      hexValue (Nat.digitChar (b.toNat % 16))), 4) = _
    rw [hexValue_hexOctet b.toNat b.toNat_lt, UInt8.ofNat_toNat]
    rfl
  · next hc _ _ _ _ =>
    show (if Char.ofNat b.toNat ≠ backslash then
      some (UInt8.ofNat (Char.ofNat b.toNat).toNat, 1) else _) = _
    rw [if_pos fun h => hc (Or.inr h), hchar, UInt8.ofNat_toNat]
    rfl

/-- A display of an octet is in front of others. -/
theorem shownOctet_append_inj {quote : Char} (hquote : IsQuote quote) {b b' : UInt8}
    {s t : List Char} (h : shownOctet quote b ++ s = shownOctet quote b' ++ t) :
    b = b' ∧ s = t := by
  have hread := congrArg readOctet h
  rw [readOctet_shownOctet hquote, readOctet_shownOctet hquote, Option.some_inj,
    Prod.mk.injEq] at hread
  obtain ⟨rfl, _⟩ := hread
  exact ⟨rfl, List.append_cancel_left h⟩

/-- The display of an octet does not begin with the quote. -/
theorem shownOctet_append_ne {quote : Char} (hquote : IsQuote quote) (b : UInt8)
    (s t : List Char) : shownOctet quote b ++ s ≠ quote :: t := by
  have hbackslash : backslash ≠ quote := by
    rcases hquote with rfl | rfl <;> decide
  intro h
  unfold shownOctet at h
  split at h
  · exact hbackslash (List.cons.inj h).1
  · next hc =>
    split at h
    · exact hbackslash (List.cons.inj h).1
    split at h
    · exact hbackslash (List.cons.inj h).1
    split at h
    · exact hbackslash (List.cons.inj h).1
    split at h
    · exact hbackslash (List.cons.inj h).1
    · exact hc (Or.inl (List.cons.inj h).1)

/-- Octets in front of the closing quote. -/
theorem shownOctets_append_inj {quote : Char} (hquote : IsQuote quote) {bs bs' : List UInt8}
    {s t : List Char} (h : bs.flatMap (shownOctet quote) ++ quote :: s =
      bs'.flatMap (shownOctet quote) ++ quote :: t) : bs = bs' ∧ s = t := by
  induction bs generalizing bs' with
  | nil =>
    cases bs' with
    | nil => exact ⟨rfl, (List.cons.inj h).2⟩
    | cons b bs' =>
      rw [List.flatMap_cons, List.append_assoc] at h
      exact absurd h.symm (shownOctet_append_ne hquote b _ _)
  | cons b bs ih =>
    cases bs' with
    | nil =>
      rw [List.flatMap_cons, List.append_assoc] at h
      exact absurd h (shownOctet_append_ne hquote b _ _)
    | cons b' bs' =>
      rw [List.flatMap_cons, List.flatMap_cons, List.append_assoc, List.append_assoc] at h
      obtain ⟨rfl, hrest⟩ := shownOctet_append_inj hquote h
      obtain ⟨rfl, hst⟩ := ih hrest
      exact ⟨rfl, hst⟩

/-- **The display of octets shows where it ends.** -/
theorem reprOctets_append_inj {bs bs' : List UInt8} {s t : List Char}
    (h : (reprOctets bs).toList ++ s = (reprOctets bs').toList ++ t) : bs = bs' ∧ s = t := by
  rw [toList_reprOctets, toList_reprOctets] at h
  simp only [List.cons_append, List.cons.injEq, true_and, List.append_assoc,
    List.nil_append] at h
  obtain ⟨hquote, hrest⟩ := h
  rw [← hquote] at hrest
  exact shownOctets_append_inj (isQuote_octetQuote bs) hrest

end Text
