import Sc4snmp.Snmp.LostVarbinds
import Sc4snmp.Snmp.VarbindsResolver

/-!
# A poll and the profiles it reports

`Poller.do_work` of `snmp/manager.py` for a poll: the profiles polled together become one,
what it walks and what it asks for is requested, and the answers fill the metrics.  Each
group of the metrics notes the profiles that its metrics are attributed to, as texts, and in
the end its texts are joined.

The authentication, the transport and the log are left out, and so is the loading of the MIB
families of the profile, which only the MIB data before the run tells of.

## Main definitions

* `RequestPart` — the walked and the asked part of a poll.
* `Poll`, `Poll.doWork` — a poll, and what it collects.
* `Poll.reads` — the varbinds the loops of a poll get to.
* `ResponseVarbind.MetricOf` — a varbind gives a group a metric.
* `TextsOf`, `Noted` — what the groups have noted.

## Main results

* `Poll.noted_request` — **each group has noted the texts of its metrics, each once**, unless
  it was begun without a mapping.
-/

namespace Sc4snmp

/-- The part of a poll that is walked, and the one that is asked for. -/
inductive RequestPart
  | bulk | get
  deriving DecidableEq, Repr

/-- The varbinds of a part. -/
def Profile.container (p : Profile) : RequestPart → VarBindContainer
  | .bulk => p.varbindsBulk
  | .get => p.varbindsGet

/-- The mapping of a part. -/
def Profile.mapping (p : Profile) : RequestPart → Dict VarbindItem String
  | .bulk => p.varbindsBulkMapping
  | .get => p.varbindsGetMapping

/-- An entry of a mapping whose key is a text. -/
def textEntry : VarbindItem × String → Option (String × String)
  | (.str k, v) => some (k, v)
  | (.int _, _) => none

/-- A mapping by the texts among its keys, which are what the metrics are looked up by.  A
varbind that is a lone number has no other key; it names no object, and is never polled. -/
def textKeyed (mapping : Dict VarbindItem String) : Dict String String :=
  Dict.ofList (mapping.entries.filterMap textEntry)

/-- The profiles of a group, as `do_work` joins them. -/
def joinedProfiles (metrics : Metrics) (key : String) : Option String :=
  ((metrics.get? key).bind MetricGroup.profiles).map (",".intercalate ·)

/-- A poll: the worker, the profiles it polls, and the answers it gets. -/
structure Poll (B : Type) where
  config : PollerConfig
  py : PySnmp B
  collection : ProfileCollection
  profiles : List String
  /-- The MIB data of the worker when the MIB families are loaded. -/
  mibs : MibState B
  bulkAnswers : List CommandAnswer
  getAnswers : List (Option CommandAnswer)

namespace Poll

variable {B : Type}

/-- The bulk walks of `do_work`, if there is anything to walk. -/
def requestBulk (poll : Poll B) (p : Profile) : Except PyError Metrics :=
  if p.varbindsBulk.map.entries.isEmpty then .ok Dict.empty
  else (runBulkRequest poll.config poll.py (textKeyed p.varbindsBulkMapping) poll.bulkAnswers
    poll.mibs Dict.empty).map Prod.snd

/-- The requests of `do_work` for the joined profile. -/
def request (poll : Poll B) (p : Profile) : Except PyError Metrics :=
  poll.requestBulk p >>= fun metrics =>
    if p.varbindsGet.map.entries.isEmpty then .ok metrics
    else runGetRequest poll.config (textKeyed p.varbindsGetMapping) poll.getAnswers metrics

/-- `Poller.do_work`, as the metrics before their profiles are joined. -/
def doWork (poll : Poll B) : Except PyError Metrics := do
  match ← poll.collection.getPollingInfoFromProfiles poll.profiles false with
  | .profile p => poll.request p
  | _ => return Dict.empty

/-- The tables that are read in a part. -/
def tables (poll : Poll B) (p : Profile) : RequestPart → List (List ResponseVarbind)
  | .bulk =>
    if p.varbindsBulk.map.entries.isEmpty then []
    else bulkPasses poll.config poll.py poll.mibs poll.bulkAnswers
  | .get =>
    if p.varbindsGet.map.entries.isEmpty then []
    else poll.getAnswers.filterMap (Option.map CommandAnswer.varbindTable)

/-- The varbinds the loops of a part get to. -/
def readsOf (poll : Poll B) (p : Profile) (part : RequestPart) :
    List (RequestPart × ResponseVarbind) :=
  ((poll.tables p part).flatMap (reportedPart poll.config.mibMap)).map fun vb => (part, vb)

/-- The varbinds the loops of the poll get to. -/
def reads (poll : Poll B) : List (RequestPart × ResponseVarbind) :=
  match poll.collection.getPollingInfoFromProfiles poll.profiles false with
  | .ok (.profile p) => poll.readsOf p .bulk ++ poll.readsOf p .get
  | _ => []

end Poll

/-! ### What a group notes -/

/-- The varbind gives the group a metric. -/
def ResponseVarbind.MetricOf (vb : ResponseVarbind) (key : String) : Prop :=
  vb.resolved = true ∧ vb.groupKey = key ∧
    ∃ item, vb.item? = some item ∧ isMetric item.type item.value = true

/-- A profile is noted once. -/
def noteProfile (profile : Option String) (profiles : List String) : List String :=
  match profile with
  | some profile => if profile = "" ∨ profile ∈ profiles then profiles else profiles ++ [profile]
  | none => profiles

section Groups

variable {mapping : Dict String String} {metrics : Metrics} {vb : ResponseVarbind} {key : String}

theorem profiles_addProfile (group : MetricGroup) (profile : Option String) :
    (group.addProfile profile).profiles = group.profiles.map (noteProfile profile) := by
  unfold MetricGroup.addProfile noteProfile
  cases hprofiles : group.profiles with
  | none => cases profile <;> simp [hprofiles]
  | some profiles =>
    cases profile with
    | none => simp [hprofiles]
    | some profile =>
      dsimp only
      split <;> simp_all

theorem mem_noteProfile {profile : Option String} {profiles : List String} {text : String} :
    text ∈ noteProfile profile profiles ↔
      text ∈ profiles ∨ (profile = some text ∧ text ≠ "") := by
  unfold noteProfile
  cases profile with
  | none => simp
  | some profile =>
    dsimp only
    split
    · next h =>
      constructor
      · exact Or.inl
      · rintro (hmem | ⟨heq, hne⟩)
        · exact hmem
        · cases heq
          exact h.resolve_left hne
    · next h =>
      rw [List.mem_append, List.mem_singleton, Option.some.injEq]
      constructor
      · rintro (hmem | rfl)
        · exact Or.inl hmem
        · exact Or.inr ⟨rfl, fun hempty => h (Or.inl hempty)⟩
      · rintro (hmem | ⟨rfl, -⟩)
        · exact Or.inl hmem
        · exact Or.inr rfl

theorem nodup_noteProfile {profile : Option String} {profiles : List String}
    (h : profiles.Nodup) : (noteProfile profile profiles).Nodup := by
  unfold noteProfile
  cases profile with
  | none => exact h
  | some profile =>
    dsimp only
    split
    · exact h
    · next hnew =>
      rw [List.nodup_append]
      refine ⟨h, List.nodup_singleton _, fun a ha b hb heq => hnew (Or.inr ?_)⟩
      rw [List.mem_singleton] at hb
      exact hb ▸ heq ▸ ha

/-- A varbind leaves the other groups alone. -/
theorem get?_processResolved_of_ne (h : key ≠ vb.groupKey) :
    (processResolved mapping vb metrics).get? key = metrics.get? key := by
  have hbegin : (handleGroupkeyWithoutMetrics mapping vb.groupKey vb.identity.index
      metrics).get? key = metrics.get? key := by
    unfold handleGroupkeyWithoutMetrics
    split
    · rfl
    · rw [Dict.get?_insert, if_neg h]
  unfold processResolved
  cases vb.item? with
  | none => exact hbegin
  | some item =>
    dsimp only
    unfold handleMetrics
    split
    · exact hbegin
    · rw [Dict.get?_insert, if_neg h]
      exact hbegin

/-- What is noted in a group before a varbind; a group is begun with a list if there is a
mapping. -/
def notedBefore (mapping : Dict String String) (metrics : Metrics) (key : String) :
    Option (List String) :=
  match metrics.get? key with
  | some group => group.profiles
  | none => if mapping.entries.isEmpty then none else some []

/-- **A varbind notes its profile in its group**, if it is a metric. -/
theorem profiles_processResolved (mapping : Dict String String) (metrics : Metrics)
    (hresolved : vb.resolved = true) :
    ∃ group, (processResolved mapping vb metrics).get? vb.groupKey = some group ∧
      (vb.MetricOf vb.groupKey → group.profiles = (notedBefore mapping metrics vb.groupKey).map
        (noteProfile (setProfileName mapping vb.identity))) ∧
      (¬ vb.MetricOf vb.groupKey → group.profiles = notedBefore mapping metrics vb.groupKey) := by
  -- the group is there, or begins with the list of its part
  have hbegin : ∃ group, (handleGroupkeyWithoutMetrics mapping vb.groupKey vb.identity.index
      metrics).get? vb.groupKey = some group ∧
        group.profiles = notedBefore mapping metrics vb.groupKey := by
    unfold handleGroupkeyWithoutMetrics notedBefore
    split
    · next hmem =>
      obtain ⟨group, hgroup⟩ := Dict.mem_keys_iff.mp hmem
      exact ⟨group, hgroup, by rw [hgroup]⟩
    · next hnew =>
      refine ⟨_, by rw [Dict.get?_insert, if_pos rfl], ?_⟩
      rw [Dict.get?_eq_none_iff.mpr hnew]
  obtain ⟨group, hgroup, hprofiles⟩ := hbegin
  unfold processResolved
  cases hitem : vb.item? with
  | none =>
    refine ⟨group, hgroup, ?_, fun _ => hprofiles⟩
    rintro ⟨-, -, item, hsome, -⟩
    rw [hitem] at hsome
    cases hsome
  | some item =>
    dsimp only
    unfold handleMetrics
    rw [hgroup]
    dsimp only
    refine ⟨_, by rw [Dict.get?_insert, if_pos rfl], ?_, ?_⟩
    · rintro ⟨-, -, item', hitem', hmetric⟩
      cases hitem.symm.trans hitem'
      rw [MetricGroup.write, if_pos hmetric, profiles_addProfile, ← hprofiles]
    · intro hnot
      have hfield : ¬ isMetric item.type item.value = true := fun hmetric =>
        hnot ⟨hresolved, rfl, item, hitem, hmetric⟩
      rw [MetricGroup.write, if_neg hfield, ← hprofiles]

end Groups

/-! ### Runs -/

/-- The read that begins a group. -/
def firstRead (reads : List (RequestPart × ResponseVarbind)) (key : String) :
    Option (RequestPart × ResponseVarbind) :=
  reads.find? fun r => r.2.resolved && decide (r.2.groupKey = key)

/-- The texts are those the metrics of a group are attributed to, each once. -/
structure TextsOf (mapping : RequestPart → Dict String String)
    (reads : List (RequestPart × ResponseVarbind)) (key : String) (texts : List String) : Prop where
  nodup : texts.Nodup
  mem_iff : ∀ text, text ∈ texts ↔ text ≠ "" ∧ ∃ r ∈ reads, r.2.MetricOf key ∧
    setProfileName (mapping r.1) r.2.identity = some text

/-- What the groups have noted: a group that was begun in a part with a mapping, the texts of
its metrics, another one nothing. -/
structure Noted (mapping : RequestPart → Dict String String)
    (reads : List (RequestPart × ResponseVarbind)) (metrics : Metrics) : Prop where
  group : ∀ key group, metrics.get? key = some group → ∃ r, firstRead reads key = some r ∧
    if (mapping r.1).entries.isEmpty then group.profiles = none
    else ∃ texts, group.profiles = some texts ∧ TextsOf mapping reads key texts
  begun : ∀ r ∈ reads, r.2.resolved = true → ∃ group, metrics.get? r.2.groupKey = some group

section Noting

variable {mapping : RequestPart → Dict String String} {part : RequestPart}
  {mibMap : Dict String String}
  {reads : List (RequestPart × ResponseVarbind)} {metrics : Metrics} {vb : ResponseVarbind}
  {key : String} {texts : List String}

theorem noted_empty : Noted mapping [] Dict.empty :=
  ⟨fun _ _ h => by simp at h, fun _ h => absurd h List.not_mem_nil⟩

/-- Another read, of a varbind that gives the group a metric. -/
theorem TextsOf.metric (h : TextsOf mapping reads key texts) (hof : vb.MetricOf key) :
    TextsOf mapping (reads ++ [(part, vb)]) key
      (noteProfile (setProfileName (mapping part) vb.identity) texts) := by
  refine ⟨nodup_noteProfile h.nodup, fun text => ?_⟩
  simp only [mem_noteProfile, h.mem_iff, List.mem_append, List.mem_singleton, or_and_right,
    exists_or, exists_eq_left, hof, true_and, and_or_left]
  exact or_congr_right and_comm

/-- Another read, of any other varbind. -/
theorem TextsOf.other (h : TextsOf mapping reads key texts) (hnot : ¬ vb.MetricOf key) :
    TextsOf mapping (reads ++ [(part, vb)]) key texts := by
  refine ⟨h.nodup, fun text => ?_⟩
  simp only [h.mem_iff, List.mem_append, List.mem_singleton, or_and_right, exists_or,
    exists_eq_left, hnot, false_and, or_false]

/-- A read leaves the beginning of a group alone. -/
theorem firstRead_append {r r' : RequestPart × ResponseVarbind} (h : firstRead reads key = some r) :
    firstRead (reads ++ [r']) key = some r := by
  rw [firstRead, List.find?_append, ← firstRead, h, Option.some_or]

/-- A read that is not of a group. -/
theorem Noted.group_append (h : Noted mapping reads metrics) {group : MetricGroup}
    (hgroup : metrics.get? key = some group) (hnot : ¬ vb.MetricOf key) :
    ∃ r, firstRead (reads ++ [(part, vb)]) key = some r ∧
      if (mapping r.1).entries.isEmpty then group.profiles = none
      else ∃ texts, group.profiles = some texts ∧
        TextsOf mapping (reads ++ [(part, vb)]) key texts := by
  obtain ⟨r, hr, hprofiles⟩ := h.group key group hgroup
  refine ⟨r, firstRead_append hr, ?_⟩
  split at hprofiles
  · next hempty => rwa [if_pos hempty]
  · next hsome =>
    obtain ⟨texts, htexts, hof⟩ := hprofiles
    rw [if_neg hsome]
    exact ⟨texts, htexts, hof.other hnot⟩

/-- What is noted in the group of a varbind when it comes. -/
theorem Noted.notedBefore (h : Noted mapping reads metrics) (part : RequestPart)
    (hresolved : vb.resolved = true) :
    ∃ r, firstRead (reads ++ [(part, vb)]) vb.groupKey = some r ∧
      if (mapping r.1).entries.isEmpty then notedBefore (mapping part) metrics vb.groupKey = none
      else ∃ texts, notedBefore (mapping part) metrics vb.groupKey = some texts ∧
        TextsOf mapping reads vb.groupKey texts := by
  unfold Sc4snmp.notedBefore
  cases hget : metrics.get? vb.groupKey with
  | some group =>
    obtain ⟨r, hr, hprofiles⟩ := h.group vb.groupKey group hget
    exact ⟨r, firstRead_append hr, hprofiles⟩
  | none =>
    -- no read of the group came before
    have hnone : ∀ r ∈ reads, r.2.resolved = true → r.2.groupKey ≠ vb.groupKey := by
      intro r hr hres hkey
      obtain ⟨group, hgroup⟩ := h.begun r hr hres
      rw [hkey, hget] at hgroup
      cases hgroup
    have hfirst : firstRead reads vb.groupKey = none := by
      rw [firstRead, List.find?_eq_none]
      intro r hr hmatch
      obtain ⟨hres, hkey⟩ := Bool.and_eq_true_iff.mp hmatch
      exact hnone r hr hres (of_decide_eq_true hkey)
    refine ⟨(part, vb), ?_, ?_⟩
    · rw [firstRead, List.find?_append, ← firstRead, hfirst, Option.none_or]
      simp [hresolved]
    · dsimp only
      split
      · rfl
      · refine ⟨[], rfl, List.nodup_nil, fun text => iff_of_false List.not_mem_nil ?_⟩
        rintro ⟨-, r, hr, hmetric, -⟩
        exact hnone r hr hmetric.1 hmetric.2.1

/-- A resolved varbind. -/
theorem Noted.processResolved (h : Noted mapping reads metrics) (hresolved : vb.resolved = true) :
    Noted mapping (reads ++ [(part, vb)]) (processResolved (mapping part) vb metrics) := by
  obtain ⟨group, hgroup, hmetric, hfield⟩ :=
    profiles_processResolved (mapping part) metrics hresolved
  refine ⟨?_, ?_⟩
  · intro key group' hgroup'
    by_cases hkey : key = vb.groupKey
    · subst hkey
      cases hgroup.symm.trans hgroup'
      obtain ⟨r, hr, hbefore⟩ := h.notedBefore part hresolved
      refine ⟨r, hr, ?_⟩
      -- a metric notes the text of its profiles, a field does not
      by_cases hof : vb.MetricOf vb.groupKey
      · rw [hmetric hof]
        split at hbefore
        · next hempty =>
          rw [if_pos hempty, hbefore]
          rfl
        · next hsome =>
          obtain ⟨texts, htexts, hof'⟩ := hbefore
          rw [if_neg hsome, htexts]
          exact ⟨_, rfl, hof'.metric hof⟩
      · rw [hfield hof]
        split at hbefore
        · next hempty => rwa [if_pos hempty]
        · next hsome =>
          obtain ⟨texts, htexts, hof'⟩ := hbefore
          rw [if_neg hsome]
          exact ⟨texts, htexts, hof'.other hof⟩
    · rw [get?_processResolved_of_ne hkey] at hgroup'
      exact h.group_append hgroup' fun hof => hkey hof.2.1.symm
  · intro r hr hresolved'
    by_cases hkey : r.2.groupKey = vb.groupKey
    · exact ⟨group, hkey ▸ hgroup⟩
    · rw [get?_processResolved_of_ne hkey]
      rcases List.mem_append.mp hr with hr | hr
      · exact h.begun r hr hresolved'
      · rw [List.mem_singleton] at hr
        exact absurd (congrArg (fun r => r.2.groupKey) hr) hkey

/-- A varbind that is not resolved is passed over. -/
theorem Noted.unresolved (h : Noted mapping reads metrics) (hvb : vb.resolved ≠ true) :
    Noted mapping (reads ++ [(part, vb)]) metrics := by
  refine ⟨fun key group hgroup => h.group_append hgroup fun hof => hvb hof.1,
    fun r hr hresolved => ?_⟩
  rcases List.mem_append.mp hr with hr | hr
  · exact h.begun r hr hresolved
  · rw [List.mem_singleton] at hr
    subst hr
    exact absurd hresolved hvb

/-- The loop over a table. -/
theorem Noted.processFrom (table : List ResponseVarbind) (remotemibs : List String)
    (h : Noted mapping reads metrics) :
    Noted mapping (reads ++ (reportedPart mibMap table).map fun vb => (part, vb))
      (Sc4snmp.processFrom mibMap (mapping part) table remotemibs metrics).metrics := by
  induction table generalizing reads metrics with
  | nil => simpa [Sc4snmp.processFrom, reportedPart] using h
  | cons vb table ih =>
    rw [reportedPart_cons]
    by_cases hresolved : vb.resolved = true
    · rw [processFrom_resolved hresolved, if_neg (by simp [blocks_of_resolved hresolved]),
        List.map_cons, List.append_cons]
      exact ih (h.processResolved hresolved)
    by_cases hblocks : vb.blocks mibMap = true
    · rw [processFrom_blocks hblocks, if_pos hblocks, List.map_nil, List.append_nil]
      exact h
    · rw [processFrom_unknown hresolved hblocks, if_neg hblocks, List.map_cons, List.append_cons]
      exact ih (h.unresolved hresolved)

/-- Several tables. -/
theorem Noted.readTables (part : RequestPart) (tables : List (List ResponseVarbind))
    (h : Noted mapping reads metrics) :
    Noted mapping (reads ++ (tables.flatMap (reportedPart mibMap)).map fun vb => (part, vb))
      (Sc4snmp.readTables mibMap (mapping part) tables metrics) := by
  induction tables generalizing reads metrics with
  | nil => simpa [Sc4snmp.readTables] using h
  | cons table tables ih =>
    rw [List.flatMap_cons, List.map_append, ← List.append_assoc]
    exact ih (h.processFrom table [])

end Noting

namespace Poll

variable {B : Type} {poll : Poll B} {p : Profile} {metrics : Metrics}

/-- The two parts of the requests. -/
theorem request_eq (h : poll.request p = .ok metrics) :
    metrics = readTables poll.config.mibMap (textKeyed p.varbindsGetMapping) (poll.tables p .get)
      (readTables poll.config.mibMap (textKeyed p.varbindsBulkMapping) (poll.tables p .bulk)
        Dict.empty) := by
  obtain ⟨walked, hwalked, h⟩ := PyError.bind_eq_ok.mp h
  have hbulk : walked = readTables poll.config.mibMap (textKeyed p.varbindsBulkMapping)
      (poll.tables p .bulk) Dict.empty := by
    unfold tables
    unfold requestBulk at hwalked
    dsimp only
    -- nothing is requested for an empty list of varbinds
    split at hwalked
    · next hempty =>
      cases hwalked
      rw [if_pos hempty]
      rfl
    · next hsome =>
      cases hrun : runBulkRequest poll.config poll.py (textKeyed p.varbindsBulkMapping)
          poll.bulkAnswers poll.mibs Dict.empty with
      | error err =>
        rw [hrun] at hwalked
        cases hwalked
      | ok walk =>
        rw [hrun] at hwalked
        cases hwalked
        rw [if_neg hsome, runBulkRequest_eq _ _ hrun]
  rw [← hbulk]
  unfold tables
  dsimp only
  split at h
  · next hempty =>
    cases h
    rw [if_pos hempty]
    rfl
  · next hsome => rw [if_neg hsome, runGetRequest_eq _ _ h]

/-- **What the groups of a poll have noted.** -/
theorem noted_request (h : poll.request p = .ok metrics) :
    Noted (fun part => textKeyed (p.mapping part)) (poll.readsOf p .bulk ++ poll.readsOf p .get)
      metrics := by
  rw [request_eq h]
  have hbulk : Noted (fun part => textKeyed (p.mapping part)) (poll.readsOf p .bulk)
      (readTables poll.config.mibMap (textKeyed p.varbindsBulkMapping) (poll.tables p .bulk)
        Dict.empty) :=
    Noted.readTables .bulk _ noted_empty
  exact Noted.readTables .get _ hbulk

end Poll

end Sc4snmp
