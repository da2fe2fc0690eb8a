import Sc4snmp.Inventory.ConditionalVarbinds
import Sc4snmp.Lib.Ipv6Text
import Sc4snmp.Traps.EngineIds
import Sc4snmp.Traps.Users

/-!
# The values of a trap on their way to the worker

`cb_fun` of `traps.py` hands a trap over as texts, each written by
`format_trap_varbind_value` of `snmp/manager.py`.  The receiver has no MIBs: a bare octet
string may be an address, or anything else.  Octets that look like an address are written as
one, and octets that pysnmp displays as nothing in hexadecimal digits, so that no octet of
either is lost.

## Main definitions

* `ReceivedValue` — a value as pysnmp has decoded it.
* `looksLikeRawAddress`, `formatTrapVarbindValue` — the source.
* `opaqueText` — the form of octets that are not displayed.
* `readTrapText` — the octets of a text.

## Main results

* `readTrapText_opaqueText` — what is written in a form of its own is read again.
* `received_values_read` — **the values of every trap that is handed over**.
-/

namespace Sc4snmp

/-! ### The source -/

/-- A value of a varbind, as pysnmp has decoded it. -/
structure ReceivedValue where
  /-- Its type is `IpAddress`. -/
  isIpAddress : Bool
  /-- `prettyPrint()`, if it has that. -/
  prettyPrint : Option String
  /-- `asOctets()`, if it has octets. -/
  octets : Option (List UInt8)

/-- What pysnmp displays. -/
def ReceivedValue.displayed (val : ReceivedValue) : String := val.prettyPrint.getD ""

/-- `_PRINTABLE_OCTETS`. -/
def isPrintableOctet (b : UInt8) : Bool := 0x20 ≤ b && b < 0x7F

/-- `_looks_like_raw_address`. -/
def looksLikeRawAddress (octets : List UInt8) : Bool :=
  (octets.length = 4 || octets.length = 16) && octets.any fun b => !isPrintableOctet b

/-- The groups of two octets of an address. -/
def octetGroups : List UInt8 → List ℕ
  | high :: low :: octets => (256 * high.toNat + low.toNat) :: octetGroups octets
  | _ => []

/-- `str(ipaddress.IPv6Address(octets))`.  Python writes an address that has an IPv4 address
mapped into it with the dotted form of that from version 3.13 on. -/
def ipv6AddressText (dotted : Bool) (octets : List UInt8) : String :=
  if dotted = true ∧ octets.take 12 = List.replicate 10 0 ++ [0xFF, 0xFF] then
    "::ffff:" ++ dottedOctets (octets.drop 12)
  else Ipv6Text.text (octetGroups octets)

/-- `format_trap_varbind_value`. -/
def formatTrapVarbindValue (dotted : Bool) (val : ReceivedValue) : String :=
  if val.isIpAddress then val.displayed
  else match val.octets with
    | none => val.displayed
    | some octets =>
      if looksLikeRawAddress octets then
        if octets.length = 4 then dottedOctets octets else ipv6AddressText dotted octets
      else if val.displayed = "" ∧ octets ≠ [] then "0x" ++ hexText octets
      else val.displayed

/-! ### Reading -/

/-- The two octets of a group. -/
def groupOctets (n : ℕ) : List UInt8 := [UInt8.ofNat (n / 256), UInt8.ofNat (n % 256)]

/-- The octets of a dotted text. -/
def readDotted (s : String) : List UInt8 :=
  ((dottedNumbers s).getD []).map UInt8.ofNat

/-- The octets of the text of an address: one with dots and colons has an IPv4 address mapped
into it. -/
def readAddressText (s : String) : List UInt8 :=
  if '.' ∈ s.toList then
    if ':' ∈ s.toList then
      List.replicate 10 0 ++ [0xFF, 0xFF] ++ readDotted (((Text.splitOn ':' s).getLast?).getD "")
    else readDotted s
  else (Ipv6Text.read s).flatMap groupOctets

/-- The octets of a text that is no display of pysnmp's. -/
def readTrapText (s : String) : List UInt8 :=
  if 'x' ∈ s.toList then ((readHex (s.toList.drop 2)).toOption).getD [] else readAddressText s

theorem flatMap_groupOctets {octets : List UInt8} (h : octets.length % 2 = 0) :
    (octetGroups octets).flatMap groupOctets = octets := by
  induction octets using octetGroups.induct with
  | case1 high low octets ih =>
    have hlow := low.toNat_lt
    have hrest : octets.length % 2 = 0 := by
      rw [List.length_cons, List.length_cons] at h
      omega
    have hdiv : (256 * high.toNat + low.toNat) / 256 = high.toNat := by omega
    have hmod : (256 * high.toNat + low.toNat) % 256 = low.toNat := by omega
    rw [octetGroups, List.flatMap_cons, ih hrest, groupOctets, hdiv, hmod, UInt8.ofNat_toNat,
      UInt8.ofNat_toNat]
    rfl
  | case2 octets hshort =>
    cases octets with
    | nil => rfl
    | cons high octets =>
      cases octets with
      | nil => simp at h
      | cons low octets => exact absurd rfl (hshort high low octets)

theorem length_octetGroups (octets : List UInt8) :
    (octetGroups octets).length = octets.length / 2 := by
  induction octets using octetGroups.induct with
  | case1 high low octets ih =>
    rw [octetGroups, List.length_cons, ih, List.length_cons, List.length_cons]
    omega
  | case2 octets hshort =>
    cases octets with
    | nil => rfl
    | cons high octets =>
      cases octets with
      | nil => simp [octetGroups]
      | cons low octets => exact absurd rfl (hshort high low octets)

/-! ### Dotted texts -/

/-- The characters of a dotted text. -/
theorem mem_dottedOctets {octets : List UInt8} {c : Char} (h : c ∈ (dottedOctets octets).toList) :
    c = '.' ∨ c.isDigit = true := by
  rw [dottedOctets, String.toList_intercalate] at h
  rcases Text.mem_intercalate h with h | ⟨piece, hpiece, hc⟩
  · exact Or.inl (List.mem_singleton.mp h)
  · obtain ⟨part, hpart, rfl⟩ := List.mem_map.mp hpiece
    obtain ⟨b, -, rfl⟩ := List.mem_map.mp hpart
    rw [Nat.toString_eq_ofList_toDigits, String.toList_ofList] at hc
    exact Or.inr (Nat.isDigit_of_mem_toDigits (by decide) (by decide) hc)

theorem notMem_dottedOctets {c : Char} (hdot : c ≠ '.') (hdigit : c.isDigit = false)
    (octets : List UInt8) : c ∉ (dottedOctets octets).toList := by
  intro h
  rcases mem_dottedOctets h with heq | hc
  · exact hdot heq
  · rw [hdigit] at hc
    cases hc

/-- Octets that are more than one have dots between them. -/
theorem dot_mem_dottedOctets {octets : List UInt8} (h : 1 < octets.length) :
    '.' ∈ (dottedOctets octets).toList := by
  obtain ⟨b, octets, rfl⟩ := List.exists_cons_of_length_pos (Nat.zero_lt_of_lt h)
  obtain ⟨b', octets, rfl⟩ := List.exists_cons_of_length_pos (Nat.lt_of_succ_lt_succ h)
  rw [dottedOctets, List.map_cons, List.map_cons, String.intercalate_cons_cons,
    String.toList_append, String.toList_append]
  simp

theorem readDotted_dottedOctets {octets : List UInt8} (hne : octets ≠ []) :
    readDotted (dottedOctets octets) = octets := by
  rw [readDotted, dottedNumbers_dottedOctets hne, Option.getD_some, List.map_map]
  have hid : UInt8.ofNat ∘ UInt8.toNat = id := funext fun b => UInt8.ofNat_toNat
  rw [hid, List.map_id]

/-! ### What is written is read again -/

/-- A character that is in no text of an address. -/
theorem notMem_ipv6Text {c : Char} (hcolon : c ≠ ':') (hdigit : ∀ d < 16, c ≠ Nat.digitChar d)
    (groups : List ℕ) : c ∉ (Ipv6Text.text groups).toList := by
  intro h
  rcases Ipv6Text.mem_text h with heq | ⟨d, hd, heq⟩
  · exact hcolon heq
  · exact hdigit d hd heq

theorem readAddressText_ipv4 {octets : List UInt8} (hlength : octets.length = 4) :
    readAddressText (dottedOctets octets) = octets := by
  have hcolon : ':' ∉ (dottedOctets octets).toList :=
    notMem_dottedOctets (by decide) (by decide) octets
  have hne : octets ≠ [] := List.ne_nil_of_length_pos (by omega)
  rw [readAddressText, if_pos (dot_mem_dottedOctets (by omega)), if_neg hcolon,
    readDotted_dottedOctets hne]

theorem readAddressText_ipv6 (dotted : Bool) {octets : List UInt8} (hlength : octets.length = 16) :
    readAddressText (ipv6AddressText dotted octets) = octets := by
  unfold ipv6AddressText
  split
  · next hmapped =>
    -- the last four octets are written as an IPv4 address
    have hrest : (octets.drop 12).length = 4 := by rw [List.length_drop, hlength]
    have hdot : '.' ∈ ("::ffff:" ++ dottedOctets (octets.drop 12)).toList := by
      rw [String.toList_append]
      exact List.mem_append_right _ (dot_mem_dottedOctets (by omega))
    have hcolon : ':' ∈ ("::ffff:" ++ dottedOctets (octets.drop 12)).toList := by
      rw [String.toList_append]
      exact List.mem_append_left _ (by decide)
    have hlast : (Text.splitOn ':' ("::ffff:" ++ dottedOctets (octets.drop 12))).getLast? =
        some (dottedOctets (octets.drop 12)) := by
      have hparts : "::ffff:" ++ dottedOctets (octets.drop 12) =
          ":".intercalate ["", "", "ffff", dottedOctets (octets.drop 12)] := by
        apply String.toList_injective
        simp [String.toList_append]
      rw [hparts, Text.splitOn_intercalate_of_notMem rfl (List.cons_ne_nil _ _)]
      · rfl
      · simp only [List.forall_mem_cons, List.not_mem_nil, false_implies, implies_true, and_true]
        exact ⟨by decide, by decide, by decide, notMem_dottedOctets (by decide) (by decide) _⟩
    have hne : octets.drop 12 ≠ [] := List.ne_nil_of_length_pos (by omega)
    rw [readAddressText, if_pos hdot, if_pos hcolon, hlast, Option.getD_some,
      readDotted_dottedOctets hne, ← hmapped.2, List.take_append_drop]
  · have hdot : '.' ∉ (Ipv6Text.text (octetGroups octets)).toList :=
      notMem_ipv6Text (by decide) (by decide) _
    rw [readAddressText, if_neg hdot, Ipv6Text.read_text, flatMap_groupOctets]
    · rw [hlength]
    · rw [length_octetGroups, hlength]

/-- A value is written in a form of its own, because of its octets. -/
structure ReceivedValue.Opaque (val : ReceivedValue) (octets : List UInt8) : Prop where
  bare : val.isIpAddress = false
  octets_eq : val.octets = some octets
  ne_nil : octets ≠ []
  shown : looksLikeRawAddress octets = true ∨ val.displayed = ""

/-- The form: the address that the octets look like, or `0x` and their digits. -/
def opaqueText (dotted : Bool) (octets : List UInt8) : String :=
  if looksLikeRawAddress octets then
    if octets.length = 4 then dottedOctets octets else ipv6AddressText dotted octets
  else "0x" ++ hexText octets

theorem formatTrapVarbindValue_opaque (dotted : Bool) {val : ReceivedValue} {octets : List UInt8}
    (h : val.Opaque octets) : formatTrapVarbindValue dotted val = opaqueText dotted octets := by
  rw [formatTrapVarbindValue, h.bare, if_neg Bool.false_ne_true, h.octets_eq, opaqueText]
  dsimp only
  split
  · rfl
  · next hraw => rw [if_pos ⟨h.shown.resolve_left hraw, h.ne_nil⟩]

/-- **What is written in a form of its own is read again.** -/
theorem readTrapText_opaqueText (dotted : Bool) (octets : List UInt8) :
    readTrapText (opaqueText dotted octets) = octets := by
  rw [opaqueText]
  split
  · next hraw =>
    rw [looksLikeRawAddress, Bool.and_eq_true, Bool.or_eq_true, decide_eq_true_eq,
      decide_eq_true_eq] at hraw
    split
    · next hlength =>
      have hx : 'x' ∉ (dottedOctets octets).toList :=
        notMem_dottedOctets (by decide) (by decide) octets
      rw [readTrapText, if_neg hx, readAddressText_ipv4 hlength]
    · next hlength =>
      have hx : 'x' ∉ (ipv6AddressText dotted octets).toList := by
        unfold ipv6AddressText
        split
        · rw [String.toList_append, List.mem_append, not_or]
          exact ⟨by decide, notMem_dottedOctets (by decide) (by decide) _⟩
        · exact notMem_ipv6Text (by decide) (by decide) _
      rw [readTrapText, if_neg hx, readAddressText_ipv6 dotted (hraw.1.resolve_left hlength)]
  · have hchars : ("0x" ++ hexText octets).toList =
        '0' :: 'x' :: octets.flatMap Text.hexOctet := by
      have hhex : (hexText octets).toList = octets.flatMap Text.hexOctet := String.toList_ofList
      rw [String.toList_append, hhex]
      rfl
    rw [readTrapText, hchars, if_pos (by simp)]
    show ((readHex (octets.flatMap Text.hexOctet)).toOption).getD [] = octets
    rw [readHex_hexText]
    rfl

/-- Other values are written as pysnmp displays them. -/
theorem formatTrapVarbindValue_eq_displayed (dotted : Bool) {val : ReceivedValue}
    (h : ∀ octets, ¬ val.Opaque octets) :
    formatTrapVarbindValue dotted val = val.displayed := by
  unfold formatTrapVarbindValue
  split
  · rfl
  · next hbare =>
    split
    · rfl
    · next octets hoctets =>
      have hopaque := h octets
      split
      · next hraw =>
        have hne : octets ≠ [] := by
          rintro rfl
          exact Bool.false_ne_true hraw
        exact absurd ⟨Bool.eq_false_iff.mpr hbare, hoctets, hne, Or.inl hraw⟩ hopaque
      · split
        · next hempty =>
          exact absurd ⟨Bool.eq_false_iff.mpr hbare, hoctets, hempty.2, Or.inr hempty.1⟩ hopaque
        · rfl

/-! ### Traps -/

/-- A trap with these varbinds, as texts. -/
def ReceivedTrap.ofValues (dotted : Bool) (deviceIp : String)
    (varbinds : List (String × ReceivedValue)) (engineId : Option String) : ReceivedTrap where
  deviceIp := deviceIp
  varbinds := varbinds.map fun varbind => (varbind.1, formatTrapVarbindValue dotted varbind.2)
  engineId := engineId

/-- It makes no difference that the code limits the varbinds before it writes their values. -/
theorem limitTrapVarbindPairs_map (dotted : Bool) (limit : ℕ)
    (varbinds : List (String × ReceivedValue)) :
    limitTrapVarbindPairs limit
        (varbinds.map fun varbind => (varbind.1, formatTrapVarbindValue dotted varbind.2)) =
      (if limit = 0 ∨ varbinds.length ≤ limit then varbinds else varbinds.take limit).map
        fun varbind => (varbind.1, formatTrapVarbindValue dotted varbind.2) := by
  rw [limitTrapVarbindPairs, List.length_map]
  split
  · rfl
  · rw [List.map_take]

/-- **The values of every trap that is handed over**: up to the limit there is one for each
varbind, in order and under its name.  Octets that look like an address are written as one, and
octets that are displayed as nothing in hexadecimal digits; both are read again, and other values
are what pysnmp displays. -/
theorem received_values_read (env : ReceiverEnv) (dotted : Bool) (deviceIp : String)
    (varbinds : List (String × ReceivedValue)) (engineId : Option String) {i : ℕ} {name : String}
    {val : ReceivedValue} (hvarbind : varbinds[i]? = some (name, val))
    (hlimit : env.maxTrapVarbindsToDecode = 0 ∨ i < env.maxTrapVarbindsToDecode) :
    ∃ s, ((ReceivedTrap.ofValues dotted deviceIp varbinds engineId).work env).data[i]? =
        some (name, s) ∧
      (∀ octets, val.Opaque octets → s = opaqueText dotted octets ∧ readTrapText s = octets) ∧
        ((∀ octets, ¬ val.Opaque octets) → s = val.displayed) := by
  have hopaque : ∀ octets, val.Opaque octets →
      formatTrapVarbindValue dotted val = opaqueText dotted octets ∧
        readTrapText (formatTrapVarbindValue dotted val) = octets := by
    intro octets h
    have hform := formatTrapVarbindValue_opaque dotted h
    exact ⟨hform, hform ▸ readTrapText_opaqueText dotted octets⟩
  refine ⟨formatTrapVarbindValue dotted val, ?_, hopaque,
    formatTrapVarbindValue_eq_displayed dotted⟩
  show (limitTrapVarbindPairs env.maxTrapVarbindsToDecode
    (varbinds.map fun varbind => (varbind.1, formatTrapVarbindValue dotted varbind.2)))[i]? = _
  rw [limitTrapVarbindPairs_map, List.getElem?_map]
  split
  · rw [hvarbind]
    rfl
  · next hover =>
    have hi : i < env.maxTrapVarbindsToDecode := hlimit.resolve_left fun h => hover (Or.inl h)
    rw [List.getElem?_take_of_lt hi, hvarbind]
    rfl

/-- Octets that pysnmp displays as nothing, next to an address. -/
theorem received_values_read_address :
    ∃ s, ((ReceivedTrap.ofValues true "10.0.0.1"
        [("1.3.6.1.2.1.2.2.1.6", ⟨false, some "", some [0, 80, 86, 190, 1]⟩),
          ("1.3.6.1.2.1.15.3.1.7", ⟨false, some "", some [10, 0, 0, 7]⟩)] none).work
            ⟨2, false⟩).data[1]? =
        some ("1.3.6.1.2.1.15.3.1.7", s) ∧ s = "10.0.0.7" ∧ readTrapText s = [10, 0, 0, 7] := by
  obtain ⟨s, hs, hread, -⟩ := received_values_read ⟨2, false⟩ true "10.0.0.1"
    [("1.3.6.1.2.1.2.2.1.6", ⟨false, some "", some [0, 80, 86, 190, 1]⟩),
      ("1.3.6.1.2.1.15.3.1.7", ⟨false, some "", some [10, 0, 0, 7]⟩)] none rfl
    (Or.inr Nat.one_lt_two)
  obtain ⟨hform, hoctets⟩ := hread [10, 0, 0, 7]
    ⟨rfl, rfl, List.cons_ne_nil _ _, Or.inl (by decide)⟩
  exact ⟨s, hs, hform.trans (by decide +kernel), hoctets⟩

end Sc4snmp
