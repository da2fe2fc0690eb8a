import Sc4snmp.Lib.Text

/-!
# The short form of IPv6 addresses

An address is eight groups of hexadecimal digits with colons between them, and the longest
run of zeros among them, the first of those of its length, is left out if there is more
than one.  What is left out is known from what is there.

## Main definitions

* `Ipv6Text.longestZeros` — the run that is left out.
* `Ipv6Text.compress`, `Ipv6Text.expand` — the groups that are written, and all of them.
* `Ipv6Text.text`, `Ipv6Text.read` — the text of some groups, and the groups of a text.

## Main results

* `longestZeros_spec` — the run is one of zeros.
* `expand_compress` — **what is left out comes back**.
* `read_text` — **a text is read as the groups it is of**.
-/

namespace Ipv6Text

/-! ### Groups -/

/-- A group, without leading zeros. -/
def hextetText (n : ℕ) : String := String.ofList (Nat.toDigits 16 n)

/-- The value of a hexadecimal digit. -/
def digitValue (c : Char) : ℕ := if c.toNat < 97 then c.toNat - 48 else c.toNat - 87

/-- The number a group is the text of. -/
def readHextet (s : String) : ℕ := s.toList.foldl (fun n c => 16 * n + digitValue c) 0

theorem digitValue_digitChar : ∀ n < 16, digitValue n.digitChar = n := by decide

theorem readHextet_hextetText (n : ℕ) : readHextet (hextetText n) = n := by
  rw [readHextet, hextetText, String.toList_ofList]
  induction n using Nat.strong_induction_on with
  | _ n ih =>
    rw [Nat.toDigits_eq_if (by decide)]
    split
    · next hlt =>
      rw [List.foldl_cons, List.foldl_nil, digitValue_digitChar n hlt]
      omega
    · next hle =>
      have hlower : n / 16 < n := Nat.div_lt_self (by omega) (by decide)
      rw [List.foldl_append, ih _ hlower, List.foldl_cons, List.foldl_nil,
        digitValue_digitChar _ (Nat.mod_lt n (by decide))]
      omega

theorem hextetText_ne_empty (n : ℕ) : hextetText n ≠ "" := by
  intro h
  have hnil := congrArg String.toList h
  rw [hextetText, String.toList_ofList] at hnil
  exact Nat.toDigits_ne_nil hnil

/-- The digits of a group. -/
theorem mem_hextetText {n : ℕ} {c : Char} (h : c ∈ (hextetText n).toList) :
    ∃ d < 16, c = Nat.digitChar d := by
  rw [hextetText, String.toList_ofList] at h
  induction n using Nat.strong_induction_on with
  | _ n ih =>
    rw [Nat.toDigits_eq_if (by decide)] at h
    split at h
    · next hlt => exact ⟨n, hlt, List.mem_singleton.mp h⟩
    · next hle =>
      rcases List.mem_append.mp h with h | h
      · exact ih _ (Nat.div_lt_self (by omega) (by decide)) h
      · exact ⟨n % 16, Nat.mod_lt n (by decide), List.mem_singleton.mp h⟩

/-! ### Zeros -/

/-- What a search for zeros has found: the longest run, and the one it is in, each with its
start and its length. -/
structure Zeros where
  best : ℕ × ℕ
  current : ℕ × ℕ

/-- One group. -/
def Zeros.step (zeros : Zeros) (index : ℕ) (hextet : String) : Zeros :=
  if hextet = "0" then
    let current := (if zeros.current.2 = 0 then index else zeros.current.1, zeros.current.2 + 1)
    { best := if zeros.best.2 < current.2 then current else zeros.best, current }
  else { zeros with current := (0, 0) }

/-- The groups from an index on. -/
def searchZeros (zeros : Zeros) (index : ℕ) : List String → Zeros
  | [] => zeros
  | hextet :: hextets => searchZeros (zeros.step index hextet) (index + 1) hextets

/-- The start and the length of the longest run of zeros. -/
def longestZeros (hextets : List String) : ℕ × ℕ := (searchZeros ⟨(0, 0), (0, 0)⟩ 0 hextets).best

/-- There is a run of zeros of a length at a start, if the length is not zero. -/
def RunOf (hextets : List String) (run : ℕ × ℕ) : Prop :=
  run.2 ≠ 0 → ∃ before after,
    hextets = before ++ List.replicate run.2 "0" ++ after ∧ before.length = run.1

/-- The current run is at the end. -/
def EndsIn (hextets : List String) (run : ℕ × ℕ) : Prop :=
  run.2 ≠ 0 → ∃ before, hextets = before ++ List.replicate run.2 "0" ∧ before.length = run.1

theorem EndsIn.runOf {hextets : List String} {run : ℕ × ℕ} (h : EndsIn hextets run) :
    RunOf hextets run := by
  intro hne
  obtain ⟨before, heq, hlength⟩ := h hne
  exact ⟨before, [], by rw [List.append_nil, heq], hlength⟩

theorem RunOf.append {hextets : List String} {run : ℕ × ℕ} (h : RunOf hextets run)
    (more : List String) : RunOf (hextets ++ more) run := by
  intro hne
  obtain ⟨before, after, heq, hlength⟩ := h hne
  exact ⟨before, after ++ more, by rw [heq, List.append_assoc], hlength⟩

/-- One group keeps the runs what they are. -/
theorem runs_step {done : List String} {zeros : Zeros} (hbest : RunOf done zeros.best)
    (hcurrent : EndsIn done zeros.current) (hextet : String) :
    RunOf (done ++ [hextet]) (zeros.step done.length hextet).best ∧
      EndsIn (done ++ [hextet]) (zeros.step done.length hextet).current := by
  unfold Zeros.step
  split
  · next hzero =>
    subst hzero
    have hends : EndsIn (done ++ ["0"])
        (if zeros.current.2 = 0 then done.length else zeros.current.1, zeros.current.2 + 1) := by
      intro _
      by_cases hstart : zeros.current.2 = 0
      · exact ⟨done, by simp [hstart], by simp [hstart]⟩
      · obtain ⟨before, heq, hlength⟩ := hcurrent hstart
        refine ⟨before, ?_, by simp [hstart, hlength]⟩
        rw [heq, List.append_assoc, List.replicate_succ']
    refine ⟨?_, hends⟩
    dsimp only
    split
    · exact hends.runOf
    · exact hbest.append _
  · exact ⟨hbest.append _, fun hne => absurd rfl hne⟩

theorem runs_searchZeros {done : List String} {zeros : Zeros} (hbest : RunOf done zeros.best)
    (hcurrent : EndsIn done zeros.current) (hextets : List String) :
    RunOf (done ++ hextets) (searchZeros zeros done.length hextets).best := by
  induction hextets generalizing done zeros with
  | nil => rwa [List.append_nil]
  | cons hextet hextets ih =>
    obtain ⟨hbest', hcurrent'⟩ := runs_step hbest hcurrent hextet
    have hrest := ih hbest' hcurrent'
    rw [List.length_append, List.length_singleton, List.append_assoc] at hrest
    exact hrest

/-- **The longest run is one of zeros.** -/
theorem longestZeros_spec (hextets : List String) : RunOf hextets (longestZeros hextets) :=
  @runs_searchZeros [] ⟨(0, 0), (0, 0)⟩ (fun hne => absurd rfl hne) (fun hne => absurd rfl hne)
    hextets

/-! ### Compression -/

/-- The groups that are written: an empty one stands for the zeros, with another one in front
of it at the beginning and behind it at the end. -/
def compress (hextets : List String) : List String :=
  let (start, length) := longestZeros hextets
  if 1 < length then
    (if start = 0 then [""] else []) ++ hextets.take start ++ [""] ++
      hextets.drop (start + length) ++ (if start + length = hextets.length then [""] else [])
  else hextets

/-- All groups, of which there are eight. -/
def expand (parts : List String) : List String :=
  if "" ∈ parts then
    let before := parts.takeWhile (· ≠ "")
    let after := (parts.reverse.takeWhile (· ≠ "")).reverse
    before ++ List.replicate (8 - before.length - after.length) "0" ++ after
  else parts

/-- The first parts that are not empty. -/
theorem takeWhile_ne_empty {parts rest : List String} (h : ∀ part ∈ parts, part ≠ "") :
    (parts ++ "" :: rest).takeWhile (· ≠ "") = parts := by
  rw [List.takeWhile_append_of_pos (by simpa using h)]
  simp

/-- **What is left out comes back.** -/
theorem expand_compress {hextets : List String} (hlength : hextets.length = 8)
    (hne : ∀ hextet ∈ hextets, hextet ≠ "") : expand (compress hextets) = hextets := by
  have hempty : "" ∉ hextets := fun hmem => hne "" hmem rfl
  obtain ⟨start, length, hzeros⟩ : ∃ start length, longestZeros hextets = (start, length) :=
    ⟨_, _, rfl⟩
  have hrun := longestZeros_spec hextets
  rw [compress, hzeros]
  rw [hzeros] at hrun
  dsimp only
  split
  swap
  · rw [expand, if_neg hempty]
  · next hlong =>
    obtain ⟨before, after, heq, hstart⟩ := hrun (by omega)
    dsimp only at heq hstart
    subst hstart
    have htake : hextets.take before.length = before := by
      rw [heq, List.append_assoc, List.take_left]
    have hdrop : hextets.drop (before.length + length) = after := by
      rw [heq]
      refine List.drop_left' ?_
      rw [List.length_append, List.length_replicate]
    rw [htake, hdrop]
    have hbefore : ∀ part ∈ before, part ≠ "" := fun part hpart =>
      hne part (by rw [heq]; simp [hpart])
    have hafter : ∀ part ∈ after, part ≠ "" := fun part hpart =>
      hne part (by rw [heq]; simp [hpart])
    have hsum : before.length + length + after.length = 8 := by
      rw [← hlength, heq, List.length_append, List.length_append, List.length_replicate]
    -- the parts in front of the empty ones, and those behind them
    have hfirst : ((if before.length = 0 then [""] else []) ++ before ++ [""] ++ after ++
        (if before.length + length = hextets.length then [""] else [])).takeWhile (· ≠ "") =
          before := by
      by_cases hnil : before = []
      · subst hnil
        rfl
      · have hpos : before.length ≠ 0 := by simpa using hnil
        rw [if_neg hpos, List.nil_append, List.append_assoc, List.append_assoc,
          List.singleton_append]
        exact takeWhile_ne_empty hbefore
    have hlast : ((if before.length = 0 then [""] else []) ++ before ++ [""] ++ after ++
        (if before.length + length = hextets.length then [""] else [])).reverse.takeWhile
          (· ≠ "") = after.reverse := by
      by_cases hnil : after = []
      · subst hnil
        have hend : before.length + length = hextets.length := by
          rw [hlength, ← hsum, List.length_nil, Nat.add_zero]
        rw [if_pos hend, List.reverse_append]
        rfl
      · have hpos : ¬ before.length + length = hextets.length := by
          have := List.length_pos_iff.mpr hnil
          omega
        rw [if_neg hpos, List.append_nil, List.reverse_append, List.reverse_append,
          List.reverse_singleton, List.singleton_append]
        exact takeWhile_ne_empty fun part hpart => hafter part (List.mem_reverse.mp hpart)
    rw [expand, if_pos (by simp), hfirst, hlast, List.reverse_reverse, heq]
    dsimp only
    have hzero : 8 - before.length - after.length = length := by omega
    rw [hzero]

/-! ### Texts -/

/-- The text of an address of eight groups. -/
def text (groups : List ℕ) : String := ":".intercalate (compress (groups.map hextetText))

/-- The groups of a text. -/
def read (s : String) : List ℕ := (expand (Text.splitOn ':' s)).map readHextet

/-- Only groups and empty texts are written. -/
theorem mem_compress {hextets : List String} {part : String} (h : part ∈ compress hextets) :
    part = "" ∨ part ∈ hextets := by
  unfold compress at h
  split at h
  next start length _ =>
  split at h
  · simp only [List.mem_append] at h
    rcases h with (((h | h) | h) | h) | h
    · split at h
      · exact Or.inl (List.mem_singleton.mp h)
      · cases h
    · exact Or.inr (List.mem_of_mem_take h)
    · exact Or.inl (List.mem_singleton.mp h)
    · exact Or.inr (List.mem_of_mem_drop h)
    · split at h
      · exact Or.inl (List.mem_singleton.mp h)
      · cases h
  · exact Or.inr h

/-- The characters of a text. -/
theorem mem_text {groups : List ℕ} {c : Char} (h : c ∈ (text groups).toList) :
    c = ':' ∨ ∃ d < 16, c = Nat.digitChar d := by
  rw [text, String.toList_intercalate] at h
  rcases Text.mem_intercalate h with h | ⟨piece, hpiece, hc⟩
  · exact Or.inl (List.mem_singleton.mp h)
  · obtain ⟨part, hpart, rfl⟩ := List.mem_map.mp hpiece
    rcases mem_compress hpart with rfl | hpart
    · cases hc
    · obtain ⟨n, -, rfl⟩ := List.mem_map.mp hpart
      exact Or.inr (mem_hextetText hc)

/-- **A text is read as the groups it is of.** -/
theorem read_text {groups : List ℕ} (hlength : groups.length = 8) :
    read (text groups) = groups := by
  have hparts : ∀ part ∈ compress (groups.map hextetText), ':' ∉ part.toList := by
    intro part hpart hcolon
    rcases mem_compress hpart with rfl | hpart
    · cases hcolon
    · obtain ⟨n, -, rfl⟩ := List.mem_map.mp hpart
      obtain ⟨d, hd, heq⟩ := mem_hextetText hcolon
      revert heq
      revert d
      decide
  have hexpand : expand (compress (groups.map hextetText)) = groups.map hextetText :=
    expand_compress (by rwa [List.length_map]) fun hextet hmem => by
      obtain ⟨n, -, rfl⟩ := List.mem_map.mp hmem
      exact hextetText_ne_empty n
  have hne : compress (groups.map hextetText) ≠ [] := by
    intro hnil
    rw [hnil] at hexpand
    have := congrArg List.length hexpand
    rw [List.length_map, hlength] at this
    cases this
  rw [read, text, Text.splitOn_intercalate_of_notMem rfl hne hparts, hexpand, List.map_map]
  have hid : readHextet ∘ hextetText = id := funext readHextet_hextetText
  rw [hid, List.map_id]

example : text [0x2001, 0xdb8, 0, 0, 1, 0, 0, 1] = "2001:db8::1:0:0:1" := by decide +kernel

end Ipv6Text
