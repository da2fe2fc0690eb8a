import Sc4snmp.Snmp.ProfileCombination

/-!
# What a profile is divided into

A profile is divided into the varbinds that are walked and the ones that are asked for.
None of the configured varbinds is lost by that: one that is not kept itself is covered
by a general one that is.  And nothing is requested twice: what is kept is covered by
nothing else that is.

A key is cut at its first two colons when the general varbinds of an instance are looked
for.  A MIB name with a colon at its end makes three of them, and the instance is taken
for one of another MIB.

## Main definitions

* `Varbind.PlainlyNamed` — varbinds of names without dots and doubled colons.
* `Profile.Divides` — what a processed profile keeps of its varbinds.

## Main results

* `divides_process` — **processing divides the varbinds of a profile**.
* `divides_process_fails` — an instance that is lost.
-/

namespace Sc4snmp

/-- The names of the varbind have neither dots nor doubled colons. -/
inductive Varbind.PlainlyNamed : Varbind → Prop
  | mib {mib : String} : PlainName mib → PlainlyNamed [.str mib]
  | object {mib object : String} {index : List VarbindItem} : PlainName mib → PlainName object →
      PlainlyNamed (.str mib :: .str object :: index)

/-- The MIB of the varbind has no colon at its end. -/
def Varbind.MibEnds (v : Varbind) : Prop :=
  ∀ mib, v.head? = some (.str mib) → mib.toList.getLast? ≠ some ':'

theorem Varbind.PlainlyNamed.wellFormed {v : Varbind} (h : v.PlainlyNamed) (hmib : v.MibEnds) :
    v.WellFormed := by
  cases h with
  | mib hname => exact .mib ⟨hname, hmib _ rfl⟩
  | object hname hobject => exact .object ⟨hname, hmib _ rfl⟩ hobject

/-- What a container keeps is covered by nothing else that it keeps. -/
theorem VarBindContainer.Keeps.apart {c : VarBindContainer} {S : Varbind → Prop}
    (h : c.Keeps S) {k : VarbindItem} {v : Varbind} (hget : c.map.get? k = some v) :
    ∀ u ∈ v.parents, .str u.key ∉ c.map := by
  intro u hu hmem
  obtain ⟨hv, rfl⟩ := h.entries k v hget
  obtain ⟨w, hw, hnone, hkey⟩ := (h.keys _).mp (Dict.mem_keys_iff.mpr ⟨v, hget⟩)
  have hparents := Varbind.parents_eq_of_key_eq (h.wellFormed v hv) (h.wellFormed w hw)
    (VarbindItem.str.inj hkey)
  have hshort := (h.mem_short_iff ((h.wellFormed v hv).of_mem_parents hu)
    (Varbind.length_lt_of_mem_parents hu).2).mp hmem
  rw [hparents] at hu
  exact hnone u hu hshort.1

namespace Profile

/-- **What a processed profile keeps of its varbinds**: each of them or a general one that covers
it, nothing but them, and nothing that something else covers; the mappings have the keys of the
containers. -/
structure Divides (body : ProfileBody) (V : List Varbind) (p : Profile) : Prop where
  covered : ∀ v ∈ V, ∃ u, (u = v ∨ u ∈ v.parents) ∧
    (.str u.key ∈ p.varbindsBulk.map ∨ .str u.key ∈ p.varbindsGet.map)
  bulk : ∀ k v, p.varbindsBulk.map.get? k = some v →
    k = .str v.key ∧ (v ∈ V ∨ (body.conditionType = some "walk" ∧ v = [.str "SNMPv2-MIB"]))
  get : ∀ k v, p.varbindsGet.map.get? k = some v → k = .str v.key ∧ v ∈ V
  uncovered : ∀ k v, p.varbindsGet.map.get? k = some v →
    k ∉ p.varbindsBulk.map ∧ ∀ u ∈ v.parents, .str u.key ∉ p.varbindsBulk.map
  apartBulk : ∀ k v, p.varbindsBulk.map.get? k = some v →
    ∀ u ∈ v.parents, .str u.key ∉ p.varbindsBulk.map
  apartGet : ∀ k v, p.varbindsGet.map.get? k = some v →
    ∀ u ∈ v.parents, .str u.key ∉ p.varbindsGet.map
  mappings : if body.conditionType = some "walk" then
      p.varbindsBulkMapping = Dict.empty ∧ p.varbindsGetMapping = Dict.empty
    else p.varbindsBulkMapping.keys = p.varbindsBulk.map.keys ∧
      p.varbindsGetMapping.keys = p.varbindsGet.map.keys

section Division

variable {p : Profile} {L : List Varbind}

/-- Each varbind is kept, or a general one that covers it. -/
theorem Asks.covered (h : p.Asks (BulkOf L) (GetOf L)) {v : Varbind} (hv : v ∈ L) :
    ∃ u, (u = v ∨ u ∈ v.parents) ∧
      (.str u.key ∈ p.varbindsBulk.map ∨ .str u.key ∈ p.varbindsGet.map) := by
  by_cases hcovered : ∃ u ∈ v.parents, u ∈ L
  · obtain ⟨u, hu, huL⟩ := hcovered
    obtain ⟨t, ht, htL, htop⟩ := Varbind.exists_top_parent (BulkOf L) hu
      ⟨huL, (Varbind.length_lt_of_mem_parents hu).2⟩
    exact ⟨t, Or.inr ht, Or.inl ((h.bulk.keys _).mpr ⟨t, htL, htop, rfl⟩)⟩
  · have hnone : ∀ u ∈ v.parents, u ∉ L := fun u hu huL => hcovered ⟨u, hu, huL⟩
    refine ⟨v, Or.inl rfl, ?_⟩
    by_cases hshort : v.length < 3
    · exact Or.inl ((h.bulk.keys _).mpr ⟨v, ⟨hv, hshort⟩, fun u hu huB => hnone u hu huB.1, rfl⟩)
    · exact Or.inr ((h.get.keys _).mpr ⟨v, ⟨hv, by omega, hnone⟩, fun u hu huG =>
        hnone u hu huG.1, rfl⟩)

/-- What is asked for is not walked, and nothing that is walked covers it. -/
theorem Asks.uncovered (h : p.Asks (BulkOf L) (GetOf L)) {k : VarbindItem} {v : Varbind}
    (hget : p.varbindsGet.map.get? k = some v) :
    k ∉ p.varbindsBulk.map ∧ ∀ u ∈ v.parents, .str u.key ∉ p.varbindsBulk.map := by
  obtain ⟨hv, rfl⟩ := h.get.entries k v hget
  have hwell := h.get.wellFormed v hv
  constructor
  · intro hmem
    obtain ⟨w, hw, -, hkey⟩ := (h.bulk.keys _).mp hmem
    have hlength := (Varbind.key_injective hwell (h.bulk.wellFormed w hw)
      (VarbindItem.str.inj hkey)).2.mp hv.2.1
    have hshort := hw.2
    omega
  · intro u hu hmem
    obtain ⟨t, ht, htL⟩ := (h.bulk.exists_parent_iff hwell).mp ⟨u, hu, hmem⟩
    exact hv.2.2 t ht htL.1

/-- **Processing divides the varbinds of a profile.** -/
theorem divides_process (name : String) (body : ProfileBody) (V : List Varbind)
    (hvarbinds : body.varBinds = some V) (hV : ∀ v ∈ V, v.PlainlyNamed ∧ v.MibEnds) (p : Profile)
    (h : (new name body).process = .ok p) : p.Divides body V := by
  obtain ⟨divided, rfl, hasks, hframe⟩ := exists_divided hvarbinds
    (fun v hv => (hV v hv).1.wellFormed (hV v hv).2) h
  have hbulk : divided.mapProfile.varbindsBulk = divided.varbindsBulk := by
    unfold mapProfile
    split <;> rfl
  have hget : divided.mapProfile.varbindsGet = divided.varbindsGet := by
    unfold mapProfile
    split <;> rfl
  have hL : ∀ v, v ∈ dividedVarbinds body V ↔
      v ∈ V ∨ (body.conditionType = some "walk" ∧ v = [.str "SNMPv2-MIB"]) := by
    intro v
    unfold dividedVarbinds
    split
    · next hwalk => simp [hwalk, or_comm]
    · next hwalk => simp [hwalk]
  have hmapping : divided.type = body.conditionType ∧ divided.varbindsBulkMapping = Dict.empty ∧
      divided.varbindsGetMapping = Dict.empty := by
    rw [hframe]
    exact ⟨rfl, rfl, rfl⟩
  refine ⟨?_, ?_, ?_, ?_, ?_, ?_, ?_⟩
  · rw [hbulk, hget]
    exact fun v hv => hasks.covered ((hL v).mpr (Or.inl hv))
  · rw [hbulk]
    intro k v hkv
    obtain ⟨hv, hk⟩ := hasks.bulk.entries k v hkv
    exact ⟨hk, (hL v).mp hv.1⟩
  · rw [hget]
    intro k v hkv
    obtain ⟨hv, hk⟩ := hasks.get.entries k v hkv
    refine ⟨hk, ((hL v).mp hv.1).resolve_right ?_⟩
    -- the system group has no index
    rintro ⟨-, rfl⟩
    exact absurd hv.2.1 (by decide)
  · rw [hbulk, hget]
    exact fun k v hkv => hasks.uncovered hkv
  · rw [hbulk]
    exact fun k v hkv => hasks.bulk.apart hkv
  · rw [hget]
    exact fun k v hkv => hasks.get.apart hkv
  · unfold mapProfile
    rw [hmapping.1]
    split
    · exact hmapping.2
    · simp [VarBindContainer.getProfileMapping, Dict.keys, Dict.mapValues, Function.comp_def]

end Division

/-- A walk profile with an object and an instance. -/
def interfaceWalk : ProfileBody where
  varBinds := some [[.str "IF-MIB", .str "ifDescr", .int 1], [.str "TCP-MIB", .str "tcpOutRsts"]]
  condition := some { type := some "walk" }

theorem divides_process_interfaceWalk : ∃ p, (new "interfaces" interfaceWalk).process = .ok p ∧
    p.Divides interfaceWalk
      [[.str "IF-MIB", .str "ifDescr", .int 1], [.str "TCP-MIB", .str "tcpOutRsts"]] := by
  have hnames : ∀ v ∈ [[VarbindItem.str "IF-MIB", .str "ifDescr", .int 1],
      [.str "TCP-MIB", .str "tcpOutRsts"]], Varbind.PlainlyNamed v ∧ Varbind.MibEnds v := by
    intro v hv
    simp only [List.mem_cons, List.not_mem_nil, or_false] at hv
    rcases hv with rfl | rfl
    · refine ⟨.object ⟨by decide, by decide⟩ ⟨by decide, by decide⟩, fun mib hmib => ?_⟩
      cases hmib
      decide
    · refine ⟨.object ⟨by decide, by decide⟩ ⟨by decide, by decide⟩, fun mib hmib => ?_⟩
      cases hmib
      decide
  have hreturns : (new "interfaces" interfaceWalk).process.isOk = true := by decide
  cases h : (new "interfaces" interfaceWalk).process with
  | error e =>
    rw [h] at hreturns
    cases hreturns
  | ok p => exact ⟨p, rfl, divides_process "interfaces" interfaceWalk _ rfl hnames p h⟩

/-! ### An instance that is lost -/

/-- A MIB, and an instance of another one with a colon at the end of its name. -/
def colonVarbinds : List Varbind := [[.str "A"], [.str "A:", .str "b", .int 1]]

theorem colonVarbinds_plainlyNamed : ∀ v ∈ colonVarbinds, v.PlainlyNamed := by
  intro v hv
  simp only [colonVarbinds, List.mem_cons, List.not_mem_nil, or_false] at hv
  rcases hv with rfl | rfl
  · exact .mib ⟨by decide, by decide⟩
  · exact .object ⟨by decide, by decide⟩ ⟨by decide, by decide⟩

/-- The instance is taken for one of the walked MIB, and left out. -/
theorem divides_process_fails :
    ¬ ∀ (name : String) (body : ProfileBody) (V : List Varbind), body.varBinds = some V →
      (∀ v ∈ V, v.PlainlyNamed) → ∀ p, (new name body).process = .ok p → p.Divides body V := by
  intro hclaim
  have hprocess : ((new "colon" { varBinds := some colonVarbinds }).process.map fun p =>
      (p.varbindsBulk.map.keys, p.varbindsGet.map.keys)) = .ok ([.str "A"], []) := by decide
  cases h : (new "colon" { varBinds := some colonVarbinds }).process with
  | error e =>
    rw [h] at hprocess
    cases hprocess
  | ok p =>
    rw [h] at hprocess
    obtain ⟨hbulk, hget⟩ : p.varbindsBulk.map.keys = [.str "A"] ∧ p.varbindsGet.map.keys = [] :=
      Prod.ext_iff.mp (Except.ok.inj hprocess)
    obtain ⟨u, hu, hkept⟩ := (hclaim "colon" _ colonVarbinds rfl colonVarbinds_plainlyNamed p
      h).covered [.str "A:", .str "b", .int 1] (by decide)
    have hother : ∀ u, u = [VarbindItem.str "A:", .str "b", .int 1] ∨
        u ∈ Varbind.parents [.str "A:", .str "b", .int 1] →
          VarbindItem.str (Varbind.key u) ∉ [VarbindItem.str "A"] := by
      intro u hu
      rcases hu with rfl | hu
      · decide
      · revert u
        decide
    rcases hkept with hmem | hmem
    · have hmem' : .str u.key ∈ p.varbindsBulk.map.keys := hmem
      rw [hbulk] at hmem'
      exact hother u hu hmem'
    · have hmem' : .str u.key ∈ p.varbindsGet.map.keys := hmem
      rw [hget] at hmem'
      exact absurd hmem' List.not_mem_nil

end Profile

end Sc4snmp
