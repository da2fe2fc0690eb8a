import Mathlib.Data.List.Find
import Sc4snmp.Lib.Json
import Sc4snmp.Lib.PyVal
import Sc4snmp.Lib.Wildcard

/-!
# The group of a discovered device

`Discovery.find_device_group` reads the description of a device against the rules of its
discovery, each with a wildcard pattern and a group.  A pattern is translated by `fnmatch` to a
regular expression that ends with the end of the text, and `re.search` lets the match begin
anywhere: a pattern is taken as if a star stood in front of it.

Which characters are the same when case is ignored is a parameter.  What is only logged is left
out.

## Main definitions

* `Place`, `fnmatchTranslate` — the patterns of `fnmatch`.
* `findDeviceGroup` — the source.
* `MatchesWhole`, `MatchesEnd` — the pattern of a rule matches a text, or an end of it.
* `firstMatchGroup` — the group of the first rule whose pattern matches the text.

## Main results

* `findDeviceGroup_eq` — what the code does: the first rule that matches an end.
* `findDeviceGroup_firstMatch_iff` — **when the group is that of the first rule that matches**.
* `findDeviceGroup_of_stars` — patterns with a star in front are read as they are meant.
-/

namespace Sc4snmp

open Wildcard

/-! ### Patterns of `fnmatch` -/

/-- A place of a pattern. -/
inductive Place
  /-- `?`. -/
  | any
  | lit (c : Char)
  /-- `[…]` or `[!…]`, with the ranges that are not empty. -/
  | oneOf (negated : Bool) (ranges : List (Char × Char))
  deriving DecidableEq, Repr

/-- A place accepts a character, case being ignored; `variants` has the characters that are the
same as a character, itself among them. -/
def Place.accepts (variants : Char → List Char) : Place → Char → Bool
  | any, _ => true
  | lit d, c => d ∈ variants c
  | oneOf negated ranges, c =>
    ((variants c).any fun v => ranges.any fun r => r.1 ≤ v && v ≤ r.2) != negated

/-- The characters and ranges of a set, without the ranges that are empty. -/
def setItems : List Char → List (Char × Option Char)
  | a :: '-' :: b :: cs => if a ≤ b then (a, some b) :: setItems cs else setItems cs
  | c :: cs => (c, none) :: setItems cs
  | [] => []

/-- The ranges of a set. -/
def rangesOf (items : List (Char × Option Char)) : List (Char × Char) :=
  items.map fun item => (item.1, item.2.getD item.1)

/-- The set between two brackets. -/
def setPlace : List Char → Place
  | '!' :: cs => .oneOf true (rangesOf (setItems cs))
  | cs =>
    -- what `fnmatch` tests for `!` is the set without its empty ranges
    match setItems cs with
    | ('!', none) :: items => .oneOf true (rangesOf items)
    | ('!', some b) :: items => .oneOf true (rangesOf (('-', none) :: (b, none) :: items))
    | items => .oneOf false (rangesOf items)

/-- The length of the set behind a bracket, if a bracket ends it.  A bracket that is the first
element of the set does not. -/
def setLength {α : Type} [DecidableEq α] (bang close : α) (es : List α) : Option ℕ :=
  let i := if es[0]? = some bang then 1 else 0
  let j := if es[i]? = some close then i + 1 else i
  let k := j + ((es.drop j).takeWhile (· ≠ close)).length
  if k < es.length then some k else none

/-- The tokens of a text, behind some characters that have been read already. -/
def textTokens : ℕ → List Char → List (Token Place)
  | _, [] => []
  | n + 1, _ :: cs => textTokens n cs
  | 0, '*' :: cs => .star :: textTokens 0 cs
  | 0, '?' :: cs => .one .any :: textTokens 0 cs
  | 0, '[' :: cs => match setLength '!' ']' cs with
    | some k => .one (setPlace (cs.take k)) :: textTokens (k + 1) cs
    | none => .one (.lit '[') :: textTokens 0 cs
  | 0, c :: cs => .one (.lit c) :: textTokens 0 cs

/-- The tokens of a list in the place of a text, each of its texts taken as a character; an
element that is no text is `none`. -/
def itemTokens : List (Option String) → Except PyError (List (Token Place))
  | [] => .ok []
  | e :: es => do
    let tokens ← match e with
      | some "*" => .ok [.star]
      | some "?" => .ok [.one .any]
      | some "[" =>
        -- a set of the list has no `replace` and no `find`
        if (setLength (some "!") (some "]") es).isSome then .error .attributeError
        else .ok [.one (.lit '[')]
      | some s => .ok (s.toList.map fun c => .one (.lit c))
      | none => .error .typeError
    return tokens ++ (← itemTokens es)

/-- `fnmatch.translate`, as the tokens the regular expression is made of. -/
def fnmatchTranslate : Json → Except PyError (List (Token Place))
  | .str s => .ok (textTokens 0 s.toList)
  | .arr items => itemTokens (items.map Json.text?)
  | .obj _ => .error .keyError
  | _ => .error .typeError

example : fnmatchTranslate (.str "[!a-c]?[]x-]*[z") =
    .ok [.one (.oneOf true [('a', 'c')]), .one .any,
      .one (.oneOf false [(']', ']'), ('x', 'x'), ('-', '-')]), .star, .one (.lit '['),
      .one (.lit 'z')] := by
  rfl

/-- `re.search` with `re.IGNORECASE`, for an expression of `fnmatch`. -/
def reSearch (variants : Char → List Char) (tokens : List (Token Place)) (value : String) : Bool :=
  (compile tokens).search (Place.accepts variants) value.toList

/-! ### The rules -/

/-- `DEFAULT_GROUP_NAME`. -/
def defaultGroupName : Json := .str "default_group"

/-- `device_rule.get`. -/
def ruleGet (rule : Json) (key : String) (default : Json) : Except PyError Json :=
  match rule with
  | .obj _ => .ok ((rule.get? key).getD default)
  | _ => .error .attributeError

/-- The tokens of the pattern of a rule, if it has one. -/
def ruleTokens (rule : Json) : Except PyError (Option (List (Token Place))) := do
  let pattern ← ruleGet rule "patterns" .null
  if !pattern.truthy then return none
  return some (← fnmatchTranslate pattern)

/-- The `try` of `find_device_group`: the group of a rule whose pattern is found. -/
def deviceRuleGroup (variants : Char → List Char) (value : String) (rule : Json) :
    Except PyError (Option Json) := do
  match ← ruleTokens rule with
  | none => return none
  | some tokens =>
    if reSearch variants tokens value then return some (← ruleGet rule "group" defaultGroupName)
    else return none

/-- The loop of `find_device_group`: a rule that raises is passed over. -/
def deviceRulesGroup (variants : Char → List Char) (value : String) : List Json → Json
  | [] => defaultGroupName
  | rule :: rules => match deviceRuleGroup variants value rule with
    | .ok (some group) => group
    | .ok none => deviceRulesGroup variants value rules
    | .error _ => deviceRulesGroup variants value rules

/-- `find_device_group`.  The varbinds are pairs of a name and the text `prettyPrint` gives. -/
def findDeviceGroup (variants : Char → List Char) (varbinds : List (String × String))
    (deviceRules : Json) : Except PyError Json :=
  match deviceRules with
  | .arr rules => match varbinds with
    | [] => .error .indexError
    | (_, value) :: _ => .ok (deviceRulesGroup variants value rules)
  | _ => .ok defaultGroupName

/-! ### What a rule says -/

/-- The rule can be read: no part of it raises. -/
def WellFormedRule (rule : Json) : Bool :=
  match ruleTokens rule with
  | .ok _ => true
  | .error _ => false

/-- The tokens of the pattern of a rule have a property. -/
def patternHas (p : List (Token Place) → Bool) (rule : Json) : Bool :=
  match ruleTokens rule with
  | .ok (some tokens) => p tokens
  | _ => false

/-- The wildcard pattern of a rule matches the whole of a text. -/
def MatchesWhole (variants : Char → List Char) (value : String) : Json → Bool :=
  patternHas fun tokens => isMatch (Place.accepts variants) tokens value.toList

/-- The wildcard pattern of a rule matches an end of a text. -/
def MatchesEnd (variants : Char → List Char) (value : String) : Json → Bool :=
  patternHas fun tokens =>
    value.toList.tails.any (isMatch (Place.accepts variants) tokens)

/-- The group of a rule. -/
def groupOfRule (rule : Json) : Json := (rule.get? "group").getD defaultGroupName

/-- The group of the first rule whose wildcard pattern matches the text. -/
def firstMatchGroup (variants : Char → List Char) (value : String) (rules : List Json) : Json :=
  ((rules.find? (MatchesWhole variants value)).map groupOfRule).getD defaultGroupName

/-- The first rule that matches an end of the text, of those in front of the first one that
matches the text. -/
def earlyRule (variants : Char → List Char) (value : String) (rules : List Json) : Option Json :=
  (rules.takeWhile fun rule => !MatchesWhole variants value rule).find? (MatchesEnd variants value)

variable {variants : Char → List Char} {value : String}

theorem wellFormed_of_patternHas {p : List (Token Place) → Bool} {rule : Json}
    (h : patternHas p rule = true) : WellFormedRule rule = true := by
  unfold patternHas at h
  unfold WellFormedRule
  split at h
  · next tokens htokens => rw [htokens]
  · cases h

theorem matchesEnd_of_matchesWhole {rule : Json} (h : MatchesWhole variants value rule = true) :
    MatchesEnd variants value rule = true := by
  unfold MatchesWhole patternHas at h
  unfold MatchesEnd patternHas
  cases htokens : ruleTokens rule with
  | error err =>
    rw [htokens] at h
    cases h
  | ok tokens =>
    rw [htokens] at h
    cases tokens with
    | none => cases h
    | some tokens => exact isMatch_star_of_isMatch h

/-- A rule with a pattern has a group. -/
theorem ruleGet_group {rule : Json} {tokens : Option (List (Token Place))}
    (h : ruleTokens rule = .ok tokens) :
    ruleGet rule "group" defaultGroupName = .ok (groupOfRule rule) := by
  cases rule with
  | obj members => rfl
  | _ => cases h

/-- **What the code does with a rule.** -/
theorem deviceRuleGroup_cases (rule : Json) :
    (MatchesEnd variants value rule = true ∧
      deviceRuleGroup variants value rule = .ok (some (groupOfRule rule))) ∨
    (MatchesEnd variants value rule = false ∧
      ∀ group, deviceRuleGroup variants value rule ≠ .ok (some group)) := by
  unfold MatchesEnd patternHas deviceRuleGroup
  cases htokens : ruleTokens rule with
  | error err => exact Or.inr ⟨rfl, fun _ h => by cases h⟩
  | ok tokens =>
    have hgroup := ruleGet_group htokens
    cases tokens with
    | none => exact Or.inr ⟨rfl, fun _ h => by cases h⟩
    | some tokens =>
      have hsearch : reSearch variants tokens value =
          value.toList.tails.any (isMatch (Place.accepts variants) tokens) :=
        search_compile tokens value.toList
      dsimp only [bind, Except.bind]
      rw [hsearch, hgroup]
      cases value.toList.tails.any (isMatch (Place.accepts variants) tokens) with
      | true => exact Or.inl ⟨rfl, rfl⟩
      | false => exact Or.inr ⟨rfl, fun _ h => by cases h⟩

/-- What the loop does: it takes the first rule that matches an end. -/
theorem deviceRulesGroup_eq (rules : List Json) :
    deviceRulesGroup variants value rules =
      ((rules.find? (MatchesEnd variants value)).map groupOfRule).getD defaultGroupName := by
  induction rules with
  | nil => rfl
  | cons rule rules ih =>
    unfold deviceRulesGroup
    obtain ⟨hend, hgroup⟩ | ⟨hend, hnot⟩ := @deviceRuleGroup_cases variants value rule
    · rw [hgroup, List.find?_cons_of_pos hend]
      rfl
    · rw [List.find?_cons_of_neg (by simp [hend]), ← ih]
      split
      · next group hgroup => exact absurd hgroup (hnot group)
      · rfl
      · rfl

/-- **What the code does**: it takes the group of the first rule that matches an end. -/
theorem findDeviceGroup_eq (name : String) (others : List (String × String)) (rules : List Json) :
    findDeviceGroup variants ((name, value) :: others) (.arr rules) =
      .ok (((rules.find? (MatchesEnd variants value)).map groupOfRule).getD defaultGroupName) :=
  congrArg Except.ok (deviceRulesGroup_eq rules)

/-- A rule that cannot be read changes nothing. -/
theorem find?_wellFormedRule (rules : List Json) :
    (rules.filter WellFormedRule).find? (MatchesEnd variants value) =
      rules.find? (MatchesEnd variants value) := by
  rw [List.find?_filter]
  refine List.find?_congr fun rule _ => ?_
  rw [Bool.eq_iff_iff, decide_eq_true_eq]
  exact and_iff_right_of_imp wellFormed_of_patternHas

/-! ### The first rule that matches -/

/-- The first element with a property against the first with a stronger one: they give the same
when the first one has the stronger property, or gives the same anyway. -/
theorem find?_agrees_iff {α γ : Type} {p q : α → Bool} (hqp : ∀ a, q a = true → p a = true)
    (g : α → γ) (d : γ) (l : List α) :
    ((l.find? p).map g).getD d = ((l.find? q).map g).getD d ↔
      ∀ a, (l.takeWhile fun a => !q a).find? p = some a →
        g a = ((l.find? q).map g).getD d := by
  induction l with
  | nil => exact iff_of_true rfl fun a h => by cases h
  | cons b l ih =>
    by_cases hq : q b = true
    · rw [List.find?_cons_of_pos (hqp b hq), List.find?_cons_of_pos hq,
        List.takeWhile_cons_of_neg (by simp [hq])]
      exact iff_of_true rfl fun a h => by cases h
    · rw [List.find?_cons_of_neg hq, List.takeWhile_cons_of_pos (by simp [hq])]
      by_cases hp : p b = true
      · rw [List.find?_cons_of_pos hp, List.find?_cons_of_pos hp, Option.map_some, Option.getD_some]
        constructor
        · rintro h a ⟨⟩
          exact h
        · exact fun h => h b rfl
      · rw [List.find?_cons_of_neg hp, List.find?_cons_of_neg hp]
        exact ih

/-- **The group is that of the first rule whose pattern matches the text** exactly if no rule in
front of it matches only an end of the text, or the first that does has the same group. -/
theorem findDeviceGroup_firstMatch_iff (variants : Char → List Char) (name value : String)
    (others : List (String × String)) (rules : List Json) :
    (findDeviceGroup variants ((name, value) :: others) (.arr rules) =
        .ok (firstMatchGroup variants value rules) ∧
      findDeviceGroup variants ((name, value) :: others) (.arr (rules.filter WellFormedRule)) =
        findDeviceGroup variants ((name, value) :: others) (.arr rules)) ↔
      ∀ rule, earlyRule variants value rules = some rule →
        groupOfRule rule = firstMatchGroup variants value rules := by
  have hskip : findDeviceGroup variants ((name, value) :: others)
      (.arr (rules.filter WellFormedRule)) =
        findDeviceGroup variants ((name, value) :: others) (.arr rules) := by
    rw [findDeviceGroup_eq, findDeviceGroup_eq, find?_wellFormedRule]
  rw [and_iff_left hskip, findDeviceGroup_eq, Except.ok.injEq]
  exact find?_agrees_iff (fun rule => matchesEnd_of_matchesWhole) groupOfRule defaultGroupName rules

/-- The letters of ASCII in both cases. -/
def asciiVariants (c : Char) : List Char := [c.toLower, c.toUpper]

/-- A rule for descriptions that begin with `Linux`. -/
def linuxRules : List Json := [.obj [("patterns", .str "Linux*"), ("group", .str "linux-group")]]

/-- **A pattern without a star in front is found in the middle of a text.** -/
theorem findDeviceGroup_linuxRules :
    findDeviceGroup asciiVariants [("SNMPv2-MIB::sysDescr.0", "Acme Linux 5.4")]
        (.arr linuxRules) = .ok (.str "linux-group") ∧
      firstMatchGroup asciiVariants "Acme Linux 5.4" linuxRules = .str "default_group" ∧
      findDeviceGroup asciiVariants [("SNMPv2-MIB::sysDescr.0", "Acme Linux 5.4")]
        (.arr linuxRules) ≠ .ok (firstMatchGroup asciiVariants "Acme Linux 5.4" linuxRules) := by
  have hfound : findDeviceGroup asciiVariants [("SNMPv2-MIB::sysDescr.0", "Acme Linux 5.4")]
      (.arr linuxRules) = .ok (.str "linux-group") := by
    rfl
  have hmeant : firstMatchGroup asciiVariants "Acme Linux 5.4" linuxRules =
      .str "default_group" := by
    rfl
  refine ⟨hfound, hmeant, ?_⟩
  rw [hfound, hmeant]
  exact fun h => absurd (Json.str.inj (Except.ok.inj h)) (by decide)

/-- **Patterns with a star in front are read as they are meant.** -/
theorem findDeviceGroup_of_stars {rules : List Json}
    (h : ∀ rule ∈ rules, ∀ tokens, ruleTokens rule = .ok (some tokens) →
      ∃ rest, tokens = .star :: rest) (name : String) (others : List (String × String)) :
    findDeviceGroup variants ((name, value) :: others) (.arr rules) =
      .ok (firstMatchGroup variants value rules) := by
  have hsame : rules.find? (MatchesEnd variants value) =
      rules.find? (MatchesWhole variants value) := by
    refine List.find?_congr fun rule hrule => ?_
    unfold MatchesEnd MatchesWhole patternHas
    cases htokens : ruleTokens rule with
    | error err => rfl
    | ok tokens =>
      cases tokens with
      | none => rfl
      | some tokens =>
        obtain ⟨rest, rfl⟩ := h rule hrule tokens htokens
        exact isMatch_star_star rest value.toList
  rw [findDeviceGroup_eq, hsame, firstMatchGroup]

end Sc4snmp
