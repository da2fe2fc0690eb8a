import Sc4snmp.Common.CollectionManager
import Sc4snmp.Snmp.ProfileRefresh

/-!
# Profiles that the schemas accept

The schemas let every varbind through that is a list of numbers and texts.  Processing reads
the first element of each, and cuts the key of an instance, `MIB::object.index`, at `::`.

## Main definitions

* `Accepted` — some schema accepts every profile.
* `WellKeyed` — no varbind is empty, and the keys of instances come apart in two.

## Main results

* `divisible_of_colonFree` — a varbind without colons is processed.
* `build_returns_iff` — **the accepted configurations that are processed**.
-/

namespace Sc4snmp

/-! ### Keys -/

/-- A varbind without a colon in its elements is processed. -/
theorem Varbind.divisible_of_colonFree {v : Varbind} (hne : v ≠ [])
    (h : ∀ item ∈ v, ':' ∉ item.format.toList) : v.Divisible := by
  refine ⟨hne, ?_⟩
  intro hlength
  rcases v with _ | ⟨mib, _ | ⟨object, _ | ⟨i, index⟩⟩⟩
  · exact absurd rfl hne
  · simp at hlength
  · simp at hlength
  · obtain ⟨hmib, h⟩ := List.forall_mem_cons.mp h
    obtain ⟨hobject, hindex⟩ := List.forall_mem_cons.mp h
    -- the key is `MIB::field`, with the one separator between them
    let field := object.format ++ "." ++ ".".intercalate ((i :: index).map VarbindItem.format)
    have hfield : ':' ∉ field.toList := by
      have hrest : ':' ∉ (".".intercalate ((i :: index).map VarbindItem.format)).toList := by
        rw [String.toList_intercalate]
        refine Text.notMem_intercalate (by decide) ?_
        intro part hpart
        rw [List.map_map, List.mem_map] at hpart
        obtain ⟨item, hitem, rfl⟩ := hpart
        exact hindex item hitem
      rw [String.toList_append, String.toList_append, List.mem_append, List.mem_append]
      rintro ((hmem | hmem) | hmem)
      · exact hobject hmem
      · exact absurd hmem (by decide)
      · exact hrest hmem
    refine ⟨_, mib.format.toList, field.toList, rfl, ?_⟩
    have hkey : (mib.format ++ "::" ++ object.format ++ "." ++
        ".".intercalate ((i :: index).map VarbindItem.format)).toList =
        mib.format.toList ++ ':' :: ':' :: field.toList := by
      simp [field, String.toList_append]
    show Text.splitDoubled ':' (mib.format ++ "::" ++ object.format ++ "." ++
        ".".intercalate ((i :: index).map VarbindItem.format)).toList = _
    rw [hkey, Text.splitDoubled_append (Text.splitDoubled_of_notMem hmib),
      Text.splitDoubled_of_notMem hfield]
    intro hlast
    exact hmib (List.mem_of_getLast? hlast)

/-! ### Configurations -/

namespace ProfileCollection

/-- Some schema accepts every profile. -/
def Accepted (config : Dict String ProfileBody) : Prop :=
  ∀ name body, config.get? name = some body → allProfileSchemas.any (· body) = true

/-- No varbind is empty, and the key of an instance is a text with one `::`. -/
def WellKeyed (config : Dict String ProfileBody) : Prop :=
  ∀ name body, config.get? name = some body →
    ∀ v ∈ body.varBinds.getD [], Varbind.Divisible v

/-- Every schema asks for varbinds. -/
theorem varBinds_of_accepted {body : ProfileBody} (h : allProfileSchemas.any (· body) = true) :
    ∃ varbinds, body.varBinds = some varbinds := by
  rw [← Option.isSome_iff_exists]
  obtain ⟨schema, hschema, hbody⟩ := List.any_eq_true.mp h
  simp only [allProfileSchemas, List.mem_cons, List.not_mem_nil, or_false] at hschema
  rcases hschema with rfl | rfl | rfl | rfl | rfl
  · simp only [standardProfileSchema, Bool.and_eq_true] at hbody
    exact hbody.1.1.2
  · simp only [walkProfileSchema, Bool.and_eq_true] at hbody
    exact hbody.1.1.2
  · simp only [baseProfileSchema, Bool.and_eq_true] at hbody
    exact hbody.1.1.2
  · simp only [smartProfileSchema, Bool.and_eq_true] at hbody
    exact hbody.1.1.2
  · simp only [conditionalProfileSchema, Bool.and_eq_true] at hbody
    exact hbody.1.1.2

theorem allProcessable_of_accepted {config : Dict String ProfileBody} (h : Accepted config) :
    AllProcessable config ↔ WellKeyed config := by
  unfold AllProcessable WellKeyed
  constructor
  · intro hall name body hbody v hv
    obtain ⟨varbinds, hvarbinds, hdivisible⟩ := hall name body hbody
    rw [hvarbinds] at hv
    exact hdivisible v hv
  · intro hkeyed name body hbody
    obtain ⟨varbinds, hvarbinds⟩ := varBinds_of_accepted (h name body hbody)
    refine ⟨varbinds, hvarbinds, ?_⟩
    intro v hv
    refine hkeyed name body hbody v ?_
    rw [hvarbinds]
    exact hv

/-- A configuration is processed when all of its profiles can be. -/
theorem build_returns_iff (config : Dict String ProfileBody) :
    (∃ fresh, build config = (fresh, .ok ())) ↔ AllProcessable config := by
  constructor
  · rintro ⟨fresh, h⟩
    exact (build_iff config fresh h).1
  · exact build_of_processable

/-- **A configuration that the schemas accept is processed exactly when it is well keyed.** -/
theorem accepted_processed_iff (config : Dict String ProfileBody) (h : Accepted config) :
    (∃ fresh, build config = (fresh, .ok ())) ↔ WellKeyed config :=
  (build_returns_iff config).trans (allProcessable_of_accepted h)

/-- An address of the interface table is an index. -/
def neighborProfile : ProfileBody :=
  { frequency := some 60
    varBinds := some [[.str "IP-MIB", .str "ipAddressIfIndex", .str "ipv6", .str "fe80::1"]] }

/-- A configuration with it. -/
def neighborConfig : Dict String ProfileBody := Dict.ofList [("neighbors", neighborProfile)]

theorem accepted_neighborConfig : Accepted neighborConfig := by
  intro name body hbody
  have hmem : (name, body) ∈ neighborConfig.entries := Dict.mem_entries_iff.mpr hbody
  obtain ⟨rfl, rfl⟩ := Prod.mk.inj (List.mem_singleton.mp hmem)
  rfl

theorem accepted_processed_iff_neighborConfig :
    (∃ fresh, build neighborConfig = (fresh, .ok ())) ↔ WellKeyed neighborConfig :=
  accepted_processed_iff neighborConfig accepted_neighborConfig

/-- The address has a `::` of its own. -/
theorem accepted_processed_fails :
    Accepted neighborConfig ∧ ¬ ∃ fresh, build neighborConfig = (fresh, .ok ()) := by
  refine ⟨accepted_neighborConfig, ?_⟩
  rintro ⟨fresh, h⟩
  have hraises : (build neighborConfig).2 = .error .valueError := rfl
  rw [h] at hraises
  cases hraises

end ProfileCollection

end Sc4snmp
