import Sc4snmp.Enrich.Tasks

/-!
# The operations of a call of `enrich`

Which operations a call performs, whatever it finds: those of the restart check, and then
those on the documents of its groups.

## Main definitions

* `afterCheck` — the part of `enrich` after the restart check.
* `Admits` — some operations include those on the documents of some groups.

## Main results

* `enrich_eq` — a call is a read, the restart check and the rest.
* `performs_checkRestart`, `performs_afterCheck` — what the two parts perform.
-/

namespace Sc4snmp

namespace Enrich

open Program (perform done Performs)

variable {β γ : Type} {P : EnrichOp β γ → Prop} {a : String} {G : Set String}

/-- The part of `enrich` after the restart check. -/
def afterCheck (env : EnrichEnv β γ) (call : EnrichCall β γ) :
    EnrichProgram β γ (Except PyError (Dict String (ResultGroup β γ))) := do
  let db ← perform (.findAttributes call.address)
  let isAny := db.attributes.any fun doc => doc.address = call.address
  match ← enrichGroups env call.address isAny call.result.keys ([], call.result) with
  | .error err => done (.error err)
  | .ok (bulk, result) =>
    bulkWriteAttributes call.address (env.bulkOrder bulk)
    return .ok result

/-- A call is a read, the restart check and the rest. -/
theorem enrich_eq (env : EnrichEnv β γ) (call : EnrichCall β γ) :
    enrich env call = perform (.findTarget call.address) >>= fun db =>
      (checkRestart env ((db.targets.get? call.address).bind (·.sysUpTime)) call.address
        (call.result.entries.map Prod.snd)).andThen fun _ => afterCheck env call := by
  refine bind_congr fun db => bind_congr fun checked => ?_
  cases checked with
  | error err => rfl
  | ok u => rfl

/-- The operations of the restart check. -/
theorem performs_checkRestart (env : EnrichEnv β γ) (hset : ∀ metric, P (.setUpTime a metric))
    (htrigger : P (.triggerWalk a)) (current : Option γ) (groups : List (ResultGroup β γ)) :
    Performs P (fun _ => True) (checkRestart env current a groups) := by
  induction groups with
  | nil => trivial
  | cons group groups ih =>
    unfold checkRestart
    split
    · exact ih
    · refine Program.performs_perform_bind.mpr ⟨hset _, fun _ => ?_⟩
      split
      · exact ih
      · split
        · split
          · exact Program.performs_perform_bind.mpr ⟨htrigger, fun _ => ih⟩
          · exact ih
        · trivial
        · trivial

/-- Some operations include those on the documents of some groups of an address. -/
structure Admits (P : EnrichOp β γ → Prop) (a : String) (G : Set String) : Prop where
  findAttributes : P (.findAttributes a)
  setState : ∀ stages, P (.setState a stages)
  initialise : ∀ key ∈ G, ∀ indexes, P (.initialise a (keyHash key) indexes key)
  setFields : ∀ key ∈ G, ∀ stages upsert, P (.setFields a (keyHash key) stages upsert)

namespace Admits

theorem setAttributeUpdates (h : Admits P a G) (env : EnrichEnv β γ) {key : String} (hkey : key ∈ G)
    (current : Option (AttributesDoc β)) (fields : List (String × β)) (u : Updates β) :
    Performs P (fun _ => True) (setAttributeUpdates env a (keyHash key) current fields u) := by
  induction fields generalizing u with
  | nil => trivial
  | cons e fields ih =>
    unfold Enrich.setAttributeUpdates
    apply Performs.bind fun _ => True
    · unfold flushUpdates
      split
      · exact Program.performs_perform_bind.mpr ⟨h.setState _, fun _ => trivial⟩
      · trivial
    intro u₁ _
    apply Performs.bind fun _ => True
    · unfold flushAttributeUpdates
      split
      · exact Program.performs_perform_bind.mpr ⟨h.setFields key hkey _ _, fun _ => trivial⟩
      · trivial
    intro u₂ _
    exact ih u₂

theorem updateCollections (h : Admits P a G) {key : String} (hkey : key ∈ G) (u : Updates β) :
    Performs P (fun _ => True)
      (updateCollections a (keyHash key) u : EnrichProgram β γ Unit) := by
  unfold Enrich.updateCollections
  have hrest : Performs P (fun _ => True) (do
      if u.attributeUpdates ≠ [] then
        let _ ← perform (.setFields a (keyHash key) u.attributeUpdates false) :
          EnrichProgram β γ Unit) := by
    split
    · exact Program.performs_perform_bind.mpr ⟨h.setFields key hkey _ _, fun _ => trivial⟩
    · trivial
  dsimp only
  split
  · exact Program.performs_perform_bind.mpr ⟨h.setState _, fun _ => hrest⟩
  · exact hrest

theorem writeGroup (h : Admits P a G) (env : EnrichEnv β γ) {key : String} (hkey : key ∈ G)
    (isAny : Bool) (group : ResultGroup β γ) :
    Performs P (fun _ => True) (writeGroup env a isAny key group) := by
  unfold Enrich.writeGroup
  apply Performs.bind fun _ => True
  · unfold findCurrent
    split
    · exact Program.performs_perform_bind.mpr ⟨h.findAttributes, fun _ => trivial⟩
    · trivial
  intro current _
  have hrest : Performs P (fun _ => True) (do
      let u ← Enrich.setAttributeUpdates env a (keyHash key) current group.fields.entries
        ⟨[], [], []⟩
      Enrich.updateCollections a (keyHash key) u
      return (current, u.newFields)) := by
    apply Performs.bind _ (h.setAttributeUpdates env hkey current _ _)
    intro u _
    exact Performs.bind _ (h.updateCollections hkey u) fun _ _ => trivial
  dsimp only
  split
  · exact Program.performs_perform_bind.mpr ⟨h.initialise key hkey _, fun _ => hrest⟩
  · exact hrest

/-- The loop leaves writes for documents of its groups only. -/
theorem enrichGroups (h : Admits P a G) (env : EnrichEnv β γ) (isAny : Bool) {keys : List String}
    (hkeys : ∀ key ∈ keys, key ∈ G) (st : LoopState β γ)
    (hst : ∀ w ∈ st.1, ∃ key ∈ G, w.1 = keyHash key) :
    Performs P (fun r => ∀ st', r = .ok st' → ∀ w ∈ st'.1, ∃ key ∈ G, w.1 = keyHash key)
      (enrichGroups env a isAny keys st) := by
  induction keys generalizing st with
  | nil =>
    intro st' hst'
    cases hst'
    exact hst
  | cons key keys ih =>
    rw [List.forall_mem_cons] at hkeys
    obtain ⟨bulk, result⟩ := st
    unfold Enrich.enrichGroups
    split
    · exact ih hkeys.2 (bulk, result) hst
    · apply Performs.bind _ (h.writeGroup env hkeys.1 isAny _)
      rintro ⟨current, newFields⟩ -
      have hbulk : ∀ w ∈ (if newFields = [] then bulk else bulk ++ [(keyHash key, newFields)]),
          ∃ key ∈ G, w.1 = keyHash key := by
        split
        · exact hst
        · rw [List.forall_mem_append]
          exact ⟨hst, List.forall_mem_singleton.mpr ⟨key, hkeys.1, rfl⟩⟩
      cases current with
      | none => exact ih hkeys.2 _ hbulk
      | some doc =>
        dsimp only
        cases doc.id with
        -- a document without an id: `enrich` raises
        | none => exact fun _ h => by cases h
        | some id => exact ih hkeys.2 _ hbulk

theorem bulkWriteAttributes (h : Admits P a G) {writes : List (String × List (String × Stored β))}
    (hwrites : ∀ w ∈ writes, ∃ key ∈ G, w.1 = keyHash key) :
    Performs P (fun _ => True) (bulkWriteAttributes a writes : EnrichProgram β γ Unit) := by
  induction writes with
  | nil => trivial
  | cons w writes ih =>
    rw [List.forall_mem_cons] at hwrites
    obtain ⟨⟨key, hkey, hw⟩, hwrites⟩ := hwrites
    obtain ⟨hash, stages⟩ := w
    obtain rfl : hash = keyHash key := hw
    exact Program.performs_perform_bind.mpr ⟨h.setFields key hkey _ _, fun _ => ih hwrites⟩

end Admits

/-- **The operations after the restart check** are on the documents of the groups. -/
theorem performs_afterCheck (env : EnrichEnv β γ) (call : EnrichCall β γ)
    (h : Admits P call.address {key | key ∈ call.result.keys}) :
    Performs P (fun _ => True) (afterCheck env call) := by
  unfold afterCheck
  refine Program.performs_perform_bind.mpr ⟨h.findAttributes, fun _ => ?_⟩
  apply Performs.bind _ (h.enrichGroups env _ (fun _ hkey => hkey) _ fun _ hw => by cases hw)
  intro looped hlooped
  cases looped with
  | error err => trivial
  | ok st =>
    have hbulk : ∀ w ∈ env.bulkOrder st.1, ∃ key ∈ {key | key ∈ call.result.keys},
        w.1 = keyHash key := fun w hw =>
      hlooped st rfl w ((env.bulkOrder_perm st.1).mem_iff.mp hw)
    exact Performs.bind _ (h.bulkWriteAttributes hbulk) fun _ _ => trivial

end Enrich

end Sc4snmp
