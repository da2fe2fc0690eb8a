import Mathlib.Data.List.Pairwise
import Sc4snmp.Snmp.MergedProfiles
import Sc4snmp.Snmp.ProfileCombination

/-!
# The profiles reported with the metrics

A group of a poll notes the texts of its metrics, each once, and joins them in the end.  So
what is reported is told by the names its metrics show, the profiles under their keys up to
the first generated one.  A profile behind a generated one is not reported, two texts that
share a name repeat it, and a group that was begun where no profile is mapped reports none.

## Main definitions

* `Contributes` — a varbind of a profile gave a group a metric.
* `AttributedExactly` — the profiles of a group are those that contributed to it.
* `Attributable` — the names its metrics show are.

## Main results

* `TextsOf.mem_commaNames`, `TextsOf.nodup_commaNames` — what the joined texts of a group list.
* `attributedExactly_iff` — **the attribution of a group is exact exactly when it is
  attributable**.
* `attributedExactly_fails` — two generated profiles that ask for one instance.
-/

namespace Sc4snmp

/-! ### Exact attribution -/

variable {B : Type}

/-- The profiles of the poll. -/
def Poll.polled (poll : Poll B) : List (String × Profile) := poll.collection.polled poll.profiles

/-- The names a varbind of an answer shows. -/
def Poll.shown (poll : Poll B) (r : RequestPart × ResponseVarbind) : List String :=
  shownNames (askedIn poll.polled r.1) r.2.identity

/-- A varbind of the profile gave the group a metric: which varbinds of an answer are covered
by which varbinds of a profile, pysnmp and the device tell. -/
def Contributes (covers : Varbind → ObjectIdentity → Prop) (poll : Poll B) (name key : String) :
    Prop :=
  ∃ p, (name, p) ∈ poll.polled ∧ ∃ r ∈ poll.reads, r.2.MetricOf key ∧
    ∃ v ∈ (p.container r.1).map.values, covers v r.2.identity

/-- **The attribution of a group is exact**: its text lists the reported names of the polled
profiles that contributed to it, each once, and no others. -/
def AttributedExactly (covers : Varbind → ObjectIdentity → Prop) (poll : Poll B)
    (metrics : Metrics) (key : String) : Prop :=
  ∃ text, joinedProfiles metrics key = some text ∧ (commaNames text).Nodup ∧
    ∀ name, name ∈ commaNames text ↔
      ∃ polled ∈ poll.profiles, cleanProfileName polled = name ∧ Contributes covers poll polled key

/-- One of the polled profiles is mapped in the part: a walk profile is in none. -/
def Poll.Mapped (poll : Poll B) (part : RequestPart) : Prop :=
  ∃ e ∈ poll.polled, ∃ k, .str k ∈ (e.2.mapping part).keys

/-- The group is attributable: it was begun in a part with a mapping, its metrics show the
profiles that contributed to it and no others, none twice, and two of them that show a
profile both show the same ones. -/
structure Attributable (covers : Varbind → ObjectIdentity → Prop) (poll : Poll B) (key : String) :
    Prop where
  mapped : ∀ r, firstRead poll.reads key = some r → poll.Mapped r.1
  shows : ∀ polled ∈ poll.profiles, Contributes covers poll polled key →
    ∃ r ∈ poll.reads, r.2.MetricOf key ∧ cleanProfileName polled ∈ poll.shown r
  contributed : ∀ r ∈ poll.reads, r.2.MetricOf key → ∀ name ∈ poll.shown r,
    ∃ polled ∈ poll.profiles, cleanProfileName polled = name ∧ Contributes covers poll polled key
  once : ∀ r ∈ poll.reads, r.2.MetricOf key → (poll.shown r).Nodup
  apart : ∀ r ∈ poll.reads, r.2.MetricOf key → ∀ r' ∈ poll.reads, r'.2.MetricOf key →
    poll.shown r ≠ poll.shown r' → (poll.shown r).Disjoint (poll.shown r')

/-! ### The profiles of a worker -/

namespace Profile

theorem divideOne_frame {p p' : Profile} {v : Varbind} (h : p.divideOne v = .ok p') :
    p'.name = p.name ∧ ∀ part, p'.mapping part = p.mapping part := by
  unfold divideOne at h
  split at h
  · obtain ⟨c, -, h⟩ := PyError.bind_eq_ok.mp h
    cases h
    exact ⟨rfl, fun part => by cases part <;> rfl⟩
  · obtain ⟨key, -, h⟩ := PyError.bind_eq_ok.mp h
    obtain ⟨covered, -, h⟩ := PyError.bind_eq_ok.mp h
    split at h
    · cases h
      exact ⟨rfl, fun _ => rfl⟩
    · obtain ⟨c, -, h⟩ := PyError.bind_eq_ok.mp h
      cases h
      exact ⟨rfl, fun part => by cases part <;> rfl⟩

/-- Dividing leaves the name and the mappings of a profile alone. -/
theorem foldlM_divideOne_frame {vs : List Varbind} {p p' : Profile}
    (h : vs.foldlM divideOne p = .ok p') :
    p'.name = p.name ∧ ∀ part, p'.mapping part = p.mapping part := by
  induction vs generalizing p with
  | nil =>
    cases h
    exact ⟨rfl, fun _ => rfl⟩
  | cons v vs ih =>
    rw [List.foldlM_cons] at h
    obtain ⟨p₁, hfirst, h⟩ := PyError.bind_eq_ok.mp h
    obtain ⟨hname, hmapping⟩ := divideOne_frame hfirst
    obtain ⟨hname', hmapping'⟩ := ih h
    exact ⟨hname'.trans hname, fun part => (hmapping' part).trans (hmapping part)⟩

/-- What is processed is mapped at the end, from its name; until then its mappings are empty. -/
theorem exists_unmapped {name : String} {body : ProfileBody} {p : Profile}
    (h : (new name body).process = .ok p) :
    ∃ divided : Profile, p = divided.mapProfile ∧ divided.name = name ∧
      ∀ part, divided.mapping part = Dict.empty := by
  obtain ⟨V, hV, -⟩ := (process_returns_iff name body).mp ⟨p, h⟩
  rw [process_eq hV] at h
  obtain ⟨divided, hdivided, h⟩ := PyError.bind_eq_ok.mp h
  cases h
  obtain ⟨hname, hmapping⟩ := foldlM_divideOne_frame hdivided
  exact ⟨divided, rfl, hname, fun part => (hmapping part).trans (by cases part <;> rfl)⟩

theorem name_process {name : String} {body : ProfileBody} {p : Profile}
    (h : (new name body).process = .ok p) : p.name = name := by
  obtain ⟨divided, rfl, hname, -⟩ := exists_unmapped h
  unfold mapProfile
  split
  · exact hname
  · exact hname

/-- **A processed profile is labelled with its name.** -/
theorem labelled_process {name : String} {body : ProfileBody} {p : Profile}
    (h : (new name body).process = .ok p) : p.Labelled name := by
  obtain ⟨divided, rfl, hname, hempty⟩ := exists_unmapped h
  intro part k text hget
  unfold mapProfile at hget
  split at hget
  · rw [hempty, Dict.get?_empty] at hget
    cases hget
  · have hmapped : ∀ c : VarBindContainer, (c.getProfileMapping divided.name).get? k = some text →
        text = name := by
      intro c hc
      rw [VarBindContainer.getProfileMapping, Dict.get?_mapValues] at hc
      obtain ⟨v, -, rfl⟩ := Option.map_eq_some_iff.mp hc
      exact hname
    cases part with
    | bulk => exact hmapped _ hget
    | get => exact hmapped _ hget

end Profile

namespace ProfileCollection

/-- Every profile of the collection was processed under its name. -/
def Processed (c : ProfileCollection) : Prop :=
  ∀ name p, c.listOfProfiles.get? name = some p → ∃ body, (Profile.new name body).process = .ok p

theorem processed_processProfiles {c : ProfileCollection} (h : c.Processed) :
    c.processProfiles.1.Processed := by
  have hfrom : ∀ (profiles : List (String × ProfileBody)) (processed : Dict String Profile),
      (∀ name p, processed.get? name = some p →
        ∃ body, (Profile.new name body).process = .ok p) →
      ∀ name p, (processFrom profiles processed).1.get? name = some p →
        ∃ body, (Profile.new name body).process = .ok p := by
    intro profiles
    induction profiles with
    | nil => exact fun processed hprocessed => hprocessed
    | cons profile profiles ih =>
      obtain ⟨profileName, body⟩ := profile
      intro processed hprocessed
      unfold processFrom
      cases hp : (Profile.new profileName body).process with
      -- processing ends at the first profile that raises
      | error err => exact hprocessed
      | ok currentProfile =>
        refine ih _ ?_
        intro name p hget
        rw [Dict.get?_insert] at hget
        split at hget
        · next heq =>
          cases hget
          exact ⟨body, heq ▸ hp⟩
        · exact hprocessed name p hget
  exact hfrom _ _ h

/-- **The profiles of a worker are processed**, whatever configurations it has read. -/
theorem processed_build (config : Dict String ProfileBody) : (build config).1.Processed :=
  processed_processProfiles fun name p hget => by simp at hget

theorem processed_update {c : ProfileCollection} (h : c.Processed)
    (config : Dict String ProfileBody) : (c.update config).1.Processed := by
  unfold update
  split
  · exact h
  · exact processed_processProfiles h

theorem Processed.labelledFor {c : ProfileCollection} (h : c.Processed) (names : List String) :
    c.LabelledFor names := by
  intro name _ p hget
  unfold getProfile at hget
  split at hget
  · next q hq =>
    split at hget
    · cases hget
    · cases hget
      obtain ⟨body, hbody⟩ := h name p hq
      exact Profile.labelled_process hbody
  · cases hget

end ProfileCollection

/-! ### The text of a group -/

/-- A text of texts lists what each of them lists. -/
theorem commaNames_intercalate {texts : List String} (h : ∀ t ∈ texts, t ≠ "") :
    commaNames (",".intercalate texts) = texts.flatMap (Text.splitOn ',') := by
  cases texts with
  | nil => rfl
  | cons t texts =>
    have hne : ",".intercalate (t :: texts) ≠ "" := by
      intro hempty
      have ht : t ≠ "" := h t List.mem_cons_self
      apply ht
      have htoList := congrArg String.toList hempty
      rw [String.toList_intercalate, List.map_cons] at htoList
      apply String.toList_injective
      cases texts with
      | nil => simpa using htoList
      | cons u texts =>
        rw [List.map_cons, List.intercalate_cons_cons, String.toList_empty,
          List.append_eq_nil_iff, List.append_eq_nil_iff] at htoList
        exact htoList.1.1
    rw [commaNames, if_neg hne, Text.splitOn_intercalate rfl (List.cons_ne_nil t texts)]

section Texts

variable {mapping : RequestPart → Dict String String}
  {reads : List (RequestPart × ResponseVarbind)} {key : String} {texts : List String}
  {shown : RequestPart × ResponseVarbind → List String}

/-- The texts of a group, when each metric has the text of the names it shows. -/
theorem TextsOf.mem_iff_shown (h : TextsOf mapping reads key texts)
    (hshown : ∀ r, setProfileName (mapping r.1) r.2.identity =
      if shown r = [] then none else some (",".intercalate (shown r)))
    (hplain : ∀ r, ∀ n ∈ shown r, n ≠ "" ∧ ',' ∉ n.toList) (text : String) :
    text ∈ texts ↔ ∃ r ∈ reads, r.2.MetricOf key ∧ shown r ≠ [] ∧
      text = ",".intercalate (shown r) := by
  rw [h.mem_iff]
  constructor
  · rintro ⟨-, r, hr, hmetric, htext⟩
    rw [hshown] at htext
    split at htext
    · cases htext
    · next hne => exact ⟨r, hr, hmetric, hne, (Option.some.inj htext).symm⟩
  · rintro ⟨r, hr, hmetric, hne, rfl⟩
    refine ⟨intercalate_ne_empty hne (hplain r), r, hr, hmetric, ?_⟩
    rw [hshown, if_neg hne]

/-- The joined texts list the names the metrics of the group show. -/
theorem TextsOf.mem_commaNames (h : TextsOf mapping reads key texts)
    (hshown : ∀ r, setProfileName (mapping r.1) r.2.identity =
      if shown r = [] then none else some (",".intercalate (shown r)))
    (hplain : ∀ r, ∀ n ∈ shown r, n ≠ "" ∧ ',' ∉ n.toList) (name : String) :
    name ∈ commaNames (",".intercalate texts) ↔
      ∃ r ∈ reads, r.2.MetricOf key ∧ name ∈ shown r := by
  have hmem := h.mem_iff_shown hshown hplain
  have hsplit : ∀ r, shown r ≠ [] → Text.splitOn ',' (",".intercalate (shown r)) = shown r :=
    fun r hne => Text.splitOn_intercalate_of_notMem rfl hne fun n hn => (hplain r n hn).2
  rw [commaNames_intercalate fun t ht => ((h.mem_iff t).mp ht).1, List.mem_flatMap]
  constructor
  · rintro ⟨t, ht, hname⟩
    obtain ⟨r, hr, hmetric, hne, rfl⟩ := (hmem t).mp ht
    rw [hsplit r hne] at hname
    exact ⟨r, hr, hmetric, hname⟩
  · rintro ⟨r, hr, hmetric, hname⟩
    have hne : shown r ≠ [] := List.ne_nil_of_mem hname
    refine ⟨_, (hmem _).mpr ⟨r, hr, hmetric, hne, rfl⟩, ?_⟩
    rwa [hsplit r hne]

/-- They list each once when no metric shows a name twice and two of them show none in common
or the same. -/
theorem TextsOf.nodup_commaNames (h : TextsOf mapping reads key texts)
    (hshown : ∀ r, setProfileName (mapping r.1) r.2.identity =
      if shown r = [] then none else some (",".intercalate (shown r)))
    (hplain : ∀ r, ∀ n ∈ shown r, n ≠ "" ∧ ',' ∉ n.toList) :
    (commaNames (",".intercalate texts)).Nodup ↔
      (∀ r ∈ reads, r.2.MetricOf key → (shown r).Nodup) ∧
      ∀ r ∈ reads, r.2.MetricOf key → ∀ r' ∈ reads, r'.2.MetricOf key →
        shown r ≠ shown r' → (shown r).Disjoint (shown r') := by
  have hmem := h.mem_iff_shown hshown hplain
  have hsplit : ∀ r, shown r ≠ [] → Text.splitOn ',' (",".intercalate (shown r)) = shown r :=
    fun r hne => Text.splitOn_intercalate_of_notMem rfl hne fun n hn => (hplain r n hn).2
  rw [commaNames_intercalate fun t ht => ((h.mem_iff t).mp ht).1, List.nodup_flatMap]
  refine and_congr ⟨?_, ?_⟩ ⟨?_, ?_⟩
  · intro hall r hr hmetric
    by_cases hne : shown r = []
    · rw [hne]
      exact List.nodup_nil
    · have hnodup := hall _ ((hmem _).mpr ⟨r, hr, hmetric, hne, rfl⟩)
      rwa [hsplit r hne] at hnodup
  · intro hall t ht
    obtain ⟨r, hr, hmetric, hne, rfl⟩ := (hmem t).mp ht
    rw [hsplit r hne]
    exact hall r hr hmetric
  · intro hpairs r hr hmetric r' hr' hmetric' hdiff
    by_cases hne : shown r = []
    · rw [hne]
      exact List.disjoint_nil_left _
    by_cases hne' : shown r' = []
    · rw [hne']
      exact List.disjoint_nil_right _
    have hsymm : Std.Symm (Function.onFun List.Disjoint (Text.splitOn ',')) :=
      ⟨fun _ _ hdisjoint _ hx hy => hdisjoint hy hx⟩
    have htext : ",".intercalate (shown r) ≠ ",".intercalate (shown r') := fun heq =>
      hdiff (by rw [← hsplit r hne, heq, hsplit r' hne'])
    have hdisjoint := hpairs.forall ((hmem _).mpr ⟨r, hr, hmetric, hne, rfl⟩)
      ((hmem _).mpr ⟨r', hr', hmetric', hne', rfl⟩) htext
    rwa [Function.onFun_apply, hsplit r hne, hsplit r' hne'] at hdisjoint
  · intro hpairs
    refine h.nodup.pairwise_of_forall_ne ?_
    intro t ht t' ht' hdiff
    obtain ⟨r, hr, hmetric, hne, rfl⟩ := (hmem t).mp ht
    obtain ⟨r', hr', hmetric', hne', rfl⟩ := (hmem t').mp ht'
    rw [Function.onFun_apply, hsplit r hne, hsplit r' hne']
    exact hpairs r hr hmetric r' hr' hmetric' fun heq => hdiff (by rw [heq])

end Texts

/-! ### The attribution of a group -/

/-- A part is mapped when its merged mapping has a text for a key. -/
theorem mapped_iff {poll : Poll B} {part : RequestPart} {mapping : Dict VarbindItem String}
    (h : MergedMapping mapping (askedIn poll.polled part)) :
    (textKeyed mapping).entries.isEmpty = false ↔ poll.Mapped part := by
  have hkey : ∀ k, .str k ∈ mapping.keys ↔
      ∃ e ∈ poll.polled, .str k ∈ (e.2.mapping part).keys := by
    intro k
    rw [h.keys, List.mem_eraseDups, List.mem_flatMap]
    constructor
    · rintro ⟨a, ha, hk⟩
      obtain ⟨e, he, rfl⟩ := List.mem_map.mp ha
      exact ⟨e, he, hk⟩
    · rintro ⟨e, he, hk⟩
      exact ⟨_, List.mem_map_of_mem he, hk⟩
  rw [List.isEmpty_eq_false_iff_exists_mem]
  constructor
  · rintro ⟨⟨k, text⟩, hmem⟩
    have hentry := Dict.mem_entries_iff.mp (mem_entries_textKeyed.mp hmem)
    obtain ⟨e, he, hk⟩ := (hkey k).mp (Dict.mem_keys_iff.mpr ⟨text, hentry⟩)
    exact ⟨e, he, k, hk⟩
  · rintro ⟨e, he, k, hk⟩
    obtain ⟨text, htext⟩ := Dict.mem_keys_iff.mp ((hkey k).mpr ⟨e, he, hk⟩)
    exact ⟨(k, text), mem_entries_textKeyed.mpr (Dict.mem_entries_iff.mpr htext)⟩

/-- **The attribution of a group is exact exactly when it is attributable**: the group was
begun in a part in which a profile is mapped, and what its metrics show, the profiles under
their keys up to the first generated one, are the profiles that contributed to it, each
once. -/
theorem attributedExactly_iff (covers : Varbind → ObjectIdentity → Prop) (poll : Poll B)
    (hprocessed : poll.collection.Processed) (hnames : ∀ name ∈ poll.profiles, ReportableName name)
    {metrics : Metrics} (hrun : poll.doWork = .ok metrics) {key : String} (hkey : key ∈ metrics) :
    AttributedExactly covers poll metrics key ↔ Attributable covers poll key := by
  obtain ⟨info, hinfo, hrun⟩ := PyError.bind_eq_ok.mp hrun
  have hjoins := ProfileCollection.joins_getPollingInfo (hprocessed.labelledFor poll.profiles)
    (fun name hname => (hnames name hname).plain) hinfo
  cases info with
  | nothing =>
    cases hrun
    exact absurd hkey Dict.notMem_empty
  | none =>
    cases hrun
    exact absurd hkey Dict.notMem_empty
  | profile p =>
    have hmerged : ∀ part, MergedMapping (p.mapping part) (askedIn poll.polled part) := hjoins
    have hasked : ∀ part, ∀ a ∈ askedIn poll.polled part, ReportableName a.1 := by
      intro part a ha
      obtain ⟨⟨name, q⟩, he, rfl⟩ := List.mem_map.mp ha
      exact hnames name (ProfileCollection.mem_polled.mp he).1
    have hreads : poll.reads = poll.readsOf p .bulk ++ poll.readsOf p .get := by
      rw [Poll.reads, hinfo]
    have hnoted := Poll.noted_request (hrun : poll.request p = .ok metrics)
    rw [← hreads] at hnoted
    obtain ⟨group, hgroup⟩ := Dict.mem_keys_iff.mp hkey
    obtain ⟨r, hfirst, hprofiles⟩ := hnoted.group key group hgroup
    have hjoined : joinedProfiles metrics key = group.profiles.map (",".intercalate ·) := by
      rw [joinedProfiles, hgroup, Option.bind_some]
    cases hempty : (textKeyed (p.mapping r.1)).entries.isEmpty with
    | true =>
      -- the group has no list of profiles
      rw [if_pos hempty] at hprofiles
      refine iff_of_false ?_ fun h => ?_
      · rintro ⟨text, htext, -⟩
        rw [hjoined, hprofiles] at htext
        cases htext
      · have hfull := (mapped_iff (hmerged r.1)).mpr (h.mapped r hfirst)
        rw [hempty] at hfull
        cases hfull
    | false =>
      rw [if_neg (by simp [hempty])] at hprofiles
      obtain ⟨texts, htexts, hof⟩ := hprofiles
      have hshown : ∀ r : RequestPart × ResponseVarbind,
          setProfileName (textKeyed (p.mapping r.1)) r.2.identity =
            if poll.shown r = [] then none else some (",".intercalate (poll.shown r)) :=
        fun r => setProfileName_merged (hmerged r.1) (hasked r.1) r.2.identity
      have hplain : ∀ r, ∀ n ∈ poll.shown r, n ≠ "" ∧ ',' ∉ n.toList :=
        fun r _ hn => mem_shownNames (hasked r.1) hn
      have hlists := hof.mem_commaNames hshown hplain
      have honce := hof.nodup_commaNames hshown hplain
      rw [htexts, Option.map_some] at hjoined
      constructor
      · rintro ⟨text, htext, hnodup, hexact⟩
        cases hjoined.symm.trans htext
        obtain ⟨hself, hapart⟩ := honce.mp hnodup
        refine ⟨fun r' hr' => ?_, fun polled hpolled hcontributes => ?_,
          fun r' hr' hmetric name hname => ?_, hself, hapart⟩
        · cases hfirst.symm.trans hr'
          exact (mapped_iff (hmerged r.1)).mp hempty
        · exact (hlists _).mp ((hexact _).mpr ⟨polled, hpolled, rfl, hcontributes⟩)
        · exact (hexact name).mp ((hlists name).mpr ⟨r', hr', hmetric, hname⟩)
      · intro h
        refine ⟨_, hjoined, honce.mpr ⟨h.once, h.apart⟩, fun name => ?_⟩
        rw [hlists]
        constructor
        · rintro ⟨r', hr', hmetric, hname⟩
          exact h.contributed r' hr' hmetric name hname
        · rintro ⟨polled, hpolled, rfl, hcontributes⟩
          exact h.shows polled hpolled hcontributes

/-! ### Two generated profiles -/

/-- A varbind covers what it names: a MIB, an object or an instance. -/
def NamesIdentity : Varbind → ObjectIdentity → Prop
  | [mib], identity => mib.format = identity.mib
  | [mib, object], identity => mib.format = identity.mib ∧ object.format = identity.metric
  | v, identity => v.key = identity.prettyPrint

/-- Two profiles generated for a device ask for the octets of one interface. -/
def generatedProfiles : Dict String ProfileBody :=
  Dict.ofList [("traffic__10|0|0|1",
    { varBinds := some [[.str "IF-MIB", .str "ifInOctets", .int 1]] }),
    ("load__10|0|0|1", { varBinds := some [[.str "IF-MIB", .str "ifInOctets", .int 1]] })]

/-- The octets. -/
def ifInOctets : ResponseVarbind where
  identity := ⟨"1.3.6.1.2.1.2.2.1.10.1", "IF-MIB::ifInOctets.1", "IF-MIB", "ifInOctets",
    [.single (.int 1)]⟩
  value := ⟨"Counter32", .ok (), .ok "5"⟩

/-- A poll of the two profiles. -/
def generatedPoll : Poll Unit where
  config := ⟨Dict.empty, false⟩
  py := failingLoads
  collection := (ProfileCollection.build generatedProfiles).1
  profiles := ["traffic__10|0|0|1", "load__10|0|0|1"]
  mibs := freshMibState
  bulkAnswers := []
  getAnswers := [some ⟨none, 0, [ifInOctets]⟩]

/-- What the poll collects. -/
def generatedMetrics : Metrics := generatedPoll.doWork.toOption.getD Dict.empty

theorem doWork_generatedPoll : generatedPoll.doWork = .ok generatedMetrics := by rfl

theorem reportableName_generated : ∀ name ∈ generatedPoll.profiles, ReportableName name := by
  have htraffic : ReportableName "traffic__10|0|0|1" := ⟨by decide, by decide⟩
  have hload : ReportableName "load__10|0|0|1" := ⟨by decide, by decide⟩
  exact List.forall_mem_cons.mpr ⟨htraffic, List.forall_mem_singleton.mpr hload⟩

/-- Both profiles ask for the octets, and both gave the group its metric. -/
theorem contributes_load : Contributes NamesIdentity generatedPoll "load__10|0|0|1"
    ifInOctets.groupKey := by
  have hprofile : ∃ p, generatedPoll.collection.getProfile "load__10|0|0|1" = .profile p ∧
      [.str "IF-MIB", .str "ifInOctets", .int 1] ∈ (p.container .get).map.values :=
    ⟨_, rfl, by decide⟩
  obtain ⟨p, hp, hv⟩ := hprofile
  have hcovers : Varbind.key [.str "IF-MIB", .str "ifInOctets", .int 1] =
      ifInOctets.identity.prettyPrint := by decide
  have hreads : generatedPoll.reads = [(.get, ifInOctets)] := by rfl
  refine ⟨p, ProfileCollection.mem_polled.mpr ⟨by decide, hp⟩, (.get, ifInOctets), ?_, ?_,
    _, hv, hcovers⟩
  · rw [hreads]
    exact List.mem_singleton_self _
  · exact ⟨by decide, rfl, _, rfl, by decide⟩

theorem attributedExactly_iff_generatedPoll :
    (generatedPoll.collection.Processed ∧ (∀ name ∈ generatedPoll.profiles, ReportableName name) ∧
      generatedPoll.doWork = .ok generatedMetrics ∧ ifInOctets.groupKey ∈ generatedMetrics) ∧
    (AttributedExactly NamesIdentity generatedPoll generatedMetrics ifInOctets.groupKey ↔
      Attributable NamesIdentity generatedPoll ifInOctets.groupKey) :=
  ⟨⟨ProfileCollection.processed_build _, reportableName_generated, doWork_generatedPoll, by decide⟩,
    attributedExactly_iff NamesIdentity generatedPoll (ProfileCollection.processed_build _)
      reportableName_generated doWork_generatedPoll (by decide)⟩

/-- The text of the instance names both profiles and is cut behind the first: the group
reports `traffic` alone. -/
theorem attributedExactly_fails : ¬ ∀ (poll : Poll Unit) (metrics : Metrics) (key : String),
    poll.collection.Processed → (∀ name ∈ poll.profiles, ReportableName name) →
    poll.doWork = .ok metrics → key ∈ metrics →
    AttributedExactly NamesIdentity poll metrics key := by
  intro hclaim
  obtain ⟨text, htext, -, hexact⟩ := hclaim generatedPoll generatedMetrics ifInOctets.groupKey
    (ProfileCollection.processed_build _) reportableName_generated doWork_generatedPoll (by decide)
  have htraffic : joinedProfiles generatedMetrics ifInOctets.groupKey = some "traffic" := by decide
  cases htraffic.symm.trans htext
  have hload : "load" ∈ commaNames "traffic" :=
    (hexact "load").mpr ⟨"load__10|0|0|1", by decide, by decide, contributes_load⟩
  exact absurd hload (by decide)

end Sc4snmp
