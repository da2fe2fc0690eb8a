import Sc4snmp.Common.InventoryProcessor

/-!
# One owner for each device

`getAllHosts` expands the groups of an inventory and leaves out the single hosts
that a group has as well.  The key a group host is looked up by is built from its
own port, the default one when it has none; the record it yields has the port of its
line instead.  The two agree on the default port only.

## Main definitions

* `lineGroup`, `expansions`, `isSingleHost` — what a line of the inventory stands for.
* `resolvedKey` — the address and port of the record a line yields.
* `OneOwner` — a single host is left out exactly when a group yields its key.
* `PortsAgree` — the inventories for which it is.

## Main results

* `processLines_spec` — what the loop over the lines collects.
* `getAllHosts_oneOwner_iff` — **each device has one owner exactly when the ports agree**.
-/

namespace Sc4snmp

/-! ### What a line stands for -/

/-- The group a line names and the hosts it has. -/
def lineGroup (groups : Groups) (source : SourceRecord) : Option (String × List GroupObject) :=
  match source.columns.get? "address" with
  | some (.str address) =>
    match address.toList with
    | [] => none
    | c :: _ =>
      if c = '#' ∨ c = '$' ∨ Text.isDigit c then none
      else (returnElement groups address).map fun hosts => (address, hosts)
  | _ => none

/-- The hosts of the group a line names. -/
def lineHosts (groups : Groups) (source : SourceRecord) : List GroupObject :=
  ((lineGroup groups source).map Prod.snd).getD []

/-- The lines a line of a group becomes. -/
def expansions (groups : Groups) (source : SourceRecord) : List SourceRecord :=
  match lineGroup groups source with
  | some (groupName, hosts) => hosts.map (hostGroupObject source groupName)
  | none => []

/-- The line is a host: it begins with a digit or names no group. -/
def isSingleHost (groups : Groups) (source : SourceRecord) : Bool :=
  match source.columns.get? "address" with
  | some (.str address) =>
    match address.toList with
    | [] => false
    | c :: _ => c ≠ '#' && (Text.isDigit c || (c ≠ '$' && (returnElement groups address).isNone))
  | _ => false

/-- The port that stands for a group in the mapping, after a line that names it. -/
def groupPort (source : SourceRecord) : PyVal :=
  if (source.get "port").truthy then source.get "port" else .int 161

/-- The mapping of groups to ports after the lines of an inventory. -/
def portMapping (groups : Groups) (lines : List SourceRecord) (mapping : Dict String PyVal) :
    Dict String PyVal :=
  lines.foldl (fun mapping source => match lineGroup groups source with
    | some (groupName, _) => mapping.insert groupName (groupPort source)
    | none => mapping) mapping

/-! ### Keys -/

namespace GroupObject

/-- The port of a host of a group without regard to its line. -/
def ownPort (o : GroupObject) : ℤ :=
  match o.port with
  | some p => if p = 0 then 161 else p
  | none => 161

/-- The key the host is looked up by. -/
def hostKey (o : GroupObject) : String := o.address ++ ":" ++ toString o.ownPort

theorem transformAddressToKey_host (o : GroupObject) :
    transformAddressToKey (.str o.address) o.portVal = .ok o.hostKey := by
  cases hport : o.port with
  | none =>
    have hkey : o.hostKey = o.address ++ ":" ++ "161" := by rw [hostKey, ownPort, hport]; rfl
    rw [portVal, hport, hkey, String.append_assoc]
    rfl
  | some p =>
    rw [portVal, hport, hostKey, ownPort, hport]
    exact transformAddressToKey_int (.str o.address) p

end GroupObject

/-! ### The loop over the lines -/

theorem addGroupHosts_eq (source : SourceRecord) (groupName : String) (hosts : List GroupObject)
    (st : ProcessorState) :
    addGroupHosts source groupName hosts st = .ok
      { st with
        hostsFromGroups := st.hostsFromGroups.updateList (hosts.map fun o => (o.hostKey, ()))
        inventoryRecords := st.inventoryRecords ++
          hosts.map (hostGroupObject source groupName) } := by
  induction hosts generalizing st with
  | nil => simp [addGroupHosts]
  | cons o hosts ih =>
    rw [addGroupHosts, o.transformAddressToKey_host]
    simp only [bind, Except.bind, ih, List.map_cons, Dict.updateList_cons, List.append_assoc,
      List.singleton_append]

/-- What the loop over the lines of an inventory collects. -/
structure Processed (groups : Groups) (lines : List SourceRecord) (st st' : ProcessorState) :
    Prop where
  records : st'.inventoryRecords = st.inventoryRecords ++ lines.flatMap (expansions groups)
  single : st'.singleHosts = st.singleHosts ++ lines.filter (isSingleHost groups)
  hosts : ∀ k, k ∈ st'.hostsFromGroups ↔
    k ∈ st.hostsFromGroups ∨ ∃ source ∈ lines, ∃ o ∈ lineHosts groups source, k = o.hostKey
  mapping : st'.inventoryGroupPortMapping = portMapping groups lines st.inventoryGroupPortMapping

/-- A line that expands to nothing and is a single host or not. -/
theorem processed_of_lineGroup_none {groups : Groups} (st : ProcessorState) {source : SourceRecord}
    (h : lineGroup groups source = none) :
    Processed groups [source] st
      { st with singleHosts := st.singleHosts ++ [source].filter (isSingleHost groups) } := by
  refine ⟨?_, rfl, ?_, ?_⟩
  · simp [expansions, h]
  · intro k
    simp [lineHosts, h]
  · simp [portMapping, h]

section Line

variable {groups : Groups} {source : SourceRecord} {address : String} {c : Char} {cs : List Char}

theorem isSingleHost_eq (haddr : source.columns.get? "address" = some (.str address))
    (hlist : address.toList = c :: cs) :
    isSingleHost groups source = (decide (c ≠ '#') &&
      (Text.isDigit c || (decide (c ≠ '$') && (returnElement groups address).isNone))) := by
  simp only [isSingleHost, haddr, hlist]

theorem lineGroup_eq (haddr : source.columns.get? "address" = some (.str address))
    (hlist : address.toList = c :: cs) :
    lineGroup groups source =
      if c = '#' ∨ c = '$' ∨ Text.isDigit c = true then none
      else (returnElement groups address).map fun hosts => (address, hosts) := by
  simp only [lineGroup, haddr, hlist]

theorem startsWith_dollar (hlist : address.toList = c :: cs) :
    Text.startsWith address "$" = decide (c = '$') := by
  have hstart : Text.startsWith address "$" = ('$' == c) := by
    simp [Text.startsWith, hlist, List.isPrefixOf]
  rw [hstart, Bool.beq_eq_decide_eq]
  simp [eq_comm]

/-- A line with the name of a group, or with a name that no group has. -/
theorem processed_getGroupHosts {st st' : ProcessorState}
    (haddr : source.columns.get? "address" = some (.str address))
    (hlist : address.toList = c :: cs) (hcomment : c ≠ '#') (hdigit : ¬ Text.isDigit c = true)
    (h : getGroupHosts groups source address st = .ok st') : Processed groups [source] st st' := by
  have hsingle := @isSingleHost_eq groups _ _ _ _ haddr hlist
  have hgroup := @lineGroup_eq groups _ _ _ _ haddr hlist
  rw [getGroupHosts, startsWith_dollar hlist] at h
  by_cases hdollar : c = '$'
  · simp [hdollar] at h
  rw [decide_eq_false hdollar, if_neg Bool.false_ne_true] at h
  rw [if_neg (by simp [hcomment, hdollar, hdigit])] at hgroup
  cases hfound : returnElement groups address with
  | none =>
    -- a name no group has
    rw [hfound] at h hgroup
    cases h
    have hyes : isSingleHost groups source = true := by
      simp [hsingle, hcomment, hdollar, hfound]
    simpa [hyes] using processed_of_lineGroup_none st hgroup
  | some hosts =>
    rw [hfound, Option.map_some] at hgroup
    have hnot : isSingleHost groups source = false := by
      simp [hsingle, hdigit, hfound]
    rw [hfound] at h
    cases hport : source.columns.get? "port" with
    | none => simp [SourceRecord.getItem, hport, bind, Except.bind] at h
    | some port =>
      simp only [SourceRecord.getItem, hport, bind, Except.bind, addGroupHosts_eq,
        Except.ok.injEq] at h
      subst h
      have hport' : source.get "port" = port := by
        rw [SourceRecord.get, Dict.getD, hport, Option.getD_some]
      refine ⟨?_, ?_, ?_, ?_⟩
      · simp [expansions, hgroup]
      · simp [hnot]
      · intro k
        rw [show k ∈ st.hostsFromGroups.updateList _ ↔ _ from Dict.mem_keys_updateList, or_comm]
        refine or_congr Iff.rfl ?_
        simp [lineHosts, hgroup, eq_comm]
      · simp [portMapping, hgroup, groupPort, hport']

end Line

theorem processLine_spec {groups : Groups} {st st' : ProcessorState} {source : SourceRecord}
    (h : processLine groups st source = .ok st') : Processed groups [source] st st' := by
  cases haddr : source.columns.get? "address" with
  | none => simp [processLine, SourceRecord.getItem, haddr, bind, Except.bind] at h
  | some v =>
    simp only [processLine, SourceRecord.getItem, haddr, bind, Except.bind] at h
    cases v with
    | none => cases h
    | bool b => cases h
    | int i => cases h
    | str address =>
      cases hlist : address.toList with
      | nil => simp [hlist] at h
      | cons c cs =>
        simp only [hlist] at h
        have hsingle := @isSingleHost_eq groups _ _ _ _ haddr hlist
        have hgroup := @lineGroup_eq groups _ _ _ _ haddr hlist
        split at h
        · next heq => cases heq
        · next heq =>
          -- a comment
          obtain rfl : c = '#' := by simpa using congrArg List.head? heq
          cases h
          have hnot : isSingleHost groups source = false := by simp [hsingle]
          simpa [hnot] using processed_of_lineGroup_none st (hgroup.trans (if_pos (.inl rfl)))
        · next d ds hcomment heq =>
          obtain ⟨rfl, rfl⟩ := List.cons.inj heq
          have hcomment : c ≠ '#' := hcomment
          by_cases hdigit : Text.isDigit c = true
          · -- an address
            rw [if_pos hdigit] at h
            cases h
            have hyes : isSingleHost groups source = true := by simp [hsingle, hcomment, hdigit]
            simpa [hyes] using
              processed_of_lineGroup_none st (hgroup.trans (if_pos (.inr (.inr hdigit))))
          · rw [if_neg hdigit] at h
            exact processed_getGroupHosts haddr hlist hcomment hdigit h

theorem processLines_spec {groups : Groups} {lines : List SourceRecord} {st st' : ProcessorState}
    (h : lines.foldlM (processLine groups) st = .ok st') : Processed groups lines st st' := by
  induction lines generalizing st with
  | nil =>
    cases h
    exact ⟨by simp, by simp, by simp, rfl⟩
  | cons source lines ih =>
    rw [List.foldlM_cons] at h
    cases hline : processLine groups st source with
    | error err => rw [hline] at h; cases h
    | ok st₁ =>
      rw [hline] at h
      have h₁ := processLine_spec hline
      have h₂ := ih h
      refine ⟨?_, ?_, ?_, ?_⟩
      · rw [h₂.records, h₁.records]
        simp
      · rw [h₂.single, h₁.single, List.append_assoc, ← List.filter_append, List.singleton_append]
      · intro k
        rw [h₂.hosts, h₁.hosts]
        simp [or_assoc]
      · rw [h₂.mapping, h₁.mapping]
        rfl

/-! ### The record of a line -/

/-- The port of the record a line yields: the default one when none is given. -/
def resolvedPort (port : PyVal) : Option ℤ :=
  if port.isBlank || !port.truthy then some 161 else port.toInt.toOption

/-- The address and the port of the record a line yields. -/
def resolvedKey (source : SourceRecord) : Option (String × ℤ) :=
  match source.columns.get? "address" with
  | some (.str address) => (resolvedPort (source.get "port")).map fun port => (address, port)
  | _ => none

theorem columns_hostGroupObject (source : SourceRecord) (groupName : String) (o : GroupObject) :
    (hostGroupObject source groupName o).columns =
      (source.columns.updateList o.items).insert "group" (.str groupName) := by
  have hset : ∀ (items : List (String × PyVal)) (line : SourceRecord),
      (items.foldl (fun line item => line.set item.1 item.2) line).columns =
        line.columns.updateList items := by
    intro items
    induction items with
    | nil => exact fun _ => rfl
    | cons item items ih => exact fun line => ih (line.set item.1 item.2)
  have hallowed : o.items.filter (fun item => item.1 ∈ allowedKeysValues) = o.items := by
    rw [List.filter_eq_self]
    intro item hitem
    simp only [GroupObject.items, List.mem_append, List.mem_cons, List.not_mem_nil, or_false,
      Option.mem_toList, Option.map_eq_some_iff] at hitem
    rcases hitem with (((((rfl | ⟨_, -, rfl⟩) | ⟨_, -, rfl⟩) | ⟨_, -, rfl⟩) | ⟨_, -, rfl⟩) |
      ⟨_, -, rfl⟩) | ⟨_, -, rfl⟩ <;> simp [allowedKeysValues]
  rw [hostGroupObject, hallowed, SourceRecord.set, hset]

/-- The line of a host of a group has the host's address. -/
theorem get?_hostGroupObject_address (source : SourceRecord) (groupName : String)
    (o : GroupObject) :
    (hostGroupObject source groupName o).columns.get? "address" = some (.str o.address) := by
  rw [columns_hostGroupObject, Dict.get?_insert, if_neg (by decide), GroupObject.items]
  simp only [List.append_assoc]
  rw [Dict.updateList_append, Dict.get?_updateList_of_notMem]
  · simp
  · simp only [List.map_append, List.mem_append, List.mem_map, Option.mem_toList,
      Option.map_eq_some_iff]
    rintro (h | h | h | h | h | h) <;> obtain ⟨_, ⟨_, -, rfl⟩, h⟩ := h <;> simp at h

/-- The line of a host of a group has the host's port, or else its own. -/
theorem get?_hostGroupObject_port (source : SourceRecord) (groupName : String) (o : GroupObject) :
    (hostGroupObject source groupName o).columns.get? "port" =
      match o.port with
      | some p => some (.int p)
      | none => source.columns.get? "port" := by
  rw [columns_hostGroupObject, Dict.get?_insert, if_neg (by decide), GroupObject.items]
  simp only [List.append_assoc]
  rw [Dict.updateList_append, Dict.updateList_append, Dict.get?_updateList_of_notMem]
  · cases o.port <;> simp
  · simp only [List.map_append, List.mem_append, List.mem_map, Option.mem_toList,
      Option.map_eq_some_iff]
    rintro (h | h | h | h | h) <;> obtain ⟨_, ⟨_, -, rfl⟩, h⟩ := h <;> simp at h

/-! ### Keys and numbers -/

/-- The port is written as the plain numeral of its number, or is the default one. -/
def PlainPort (port : PyVal) (number : ℤ) : Prop := number = 161 ∨ port.format = toString number

/-- The key of a line: its address, and the text of its port unless that is the
default one. -/
theorem transformAddressToKey_spec {address : String} {port : PyVal} {key : String}
    (h : transformAddressToKey (.str address) port = .ok key) :
    ∃ number text, resolvedPort port = some number ∧ key = address ++ ":" ++ text ∧
      ':' ∉ text.toList ∧ ∀ m : ℤ, toString m = text ↔ m = number ∧ PlainPort port number := by
  have hdefault : address ++ ":161" = address ++ ":" ++ "161" := by
    rw [String.append_assoc]
    rfl
  have hplain : ∀ m : ℤ, toString m = "161" ↔ m = 161 := fun m =>
    ⟨fun hm => Text.toString_int_injective hm, fun hm => by rw [hm]; rfl⟩
  have hformat : (PyVal.str address).format = address := rfl
  rw [transformAddressToKey] at h
  by_cases htruthy : port.truthy = true
  · rw [htruthy, if_neg (by decide)] at h
    cases hint : port.toInt with
    | error err => rw [hint] at h; cases h
    | ok number =>
      have hresolved : resolvedPort port = some number := by
        simp [resolvedPort, PyVal.isBlank_of_toInt hint, htruthy, hint, Except.toOption]
      rw [hint, hformat] at h
      simp only [bind, Except.bind] at h
      -- the default port has one spelling in a key, whatever it is written as in the line
      by_cases hnumber : number = 161
      · rw [if_pos hnumber, Except.ok.injEq, hdefault] at h
        refine ⟨number, "161", hresolved, h.symm, by decide, fun m => ?_⟩
        rw [hplain, hnumber]
        exact ⟨fun hm => ⟨hm, Or.inl rfl⟩, And.left⟩
      · rw [if_neg hnumber, Except.ok.injEq] at h
        refine ⟨number, port.format, hresolved, h.symm, PyVal.colon_notMem_format hint,
          fun m => ⟨fun hm => ?_, ?_⟩⟩
        · obtain rfl := PyVal.toInt_of_format hm.symm hint
          exact ⟨rfl, Or.inr hm.symm⟩
        · rintro ⟨rfl, h161 | hnumeral⟩
          · exact absurd h161 hnumber
          · exact hnumeral.symm
  · rw [Bool.not_eq_true] at htruthy
    rw [htruthy, if_pos (by decide), Except.ok.injEq, hformat] at h
    have hresolved : resolvedPort port = some 161 := by simp [resolvedPort, htruthy]
    refine ⟨161, "161", hresolved, h.symm.trans hdefault, by decide, fun m => ?_⟩
    rw [hplain]
    exact ⟨fun hm => ⟨hm, Or.inl rfl⟩, And.left⟩

/-- Keys with texts without a colon determine address and text. -/
theorem key_inj {a b s t : String} (hs : ':' ∉ s.toList) (ht : ':' ∉ t.toList) :
    a ++ ":" ++ s = b ++ ":" ++ t ↔ a = b ∧ s = t := by
  refine ⟨fun h => ?_, by rintro ⟨rfl, rfl⟩; rfl⟩
  have hlist : a.toList ++ ':' :: s.toList = b.toList ++ ':' :: t.toList := by
    have h' := congrArg String.toList h
    simpa [String.toList_append] using h'
  obtain ⟨ha, hs'⟩ := Text.append_separator_inj hs ht hlist
  exact ⟨String.toList_inj.mp ha, String.toList_inj.mp hs'⟩

/-- A numeral has no colon. -/
theorem colon_notMem_toString (n : ℤ) : ':' ∉ (toString n).toList := fun h =>
  absurd (Text.isIntChar_toString n ':' h) (by decide)

/-! ### One owner -/

section OneOwner

variable (groups : Groups) (lines : List SourceRecord)

/-- Some host of a group has this address and this port of its own. -/
def OwnPortHost (address : String) (port : ℤ) : Prop :=
  ∃ source ∈ lines, ∃ o ∈ lineHosts groups source,
    o.address = address ∧ o.port.isSome ∧ o.ownPort = port

/-- Some host of a group has this address and no port. -/
def PortlessHost (address : String) : Prop :=
  ∃ source ∈ lines, ∃ o ∈ lineHosts groups source, o.address = address ∧ o.port = none

/-- Some host of a group has this address, no port, and a line with this one. -/
def InheritingHost (address : String) (port : ℤ) : Prop :=
  ∃ source ∈ lines, ∃ o ∈ lineHosts groups source,
    o.address = address ∧ o.port = none ∧ resolvedPort (source.get "port") = some port

/-- A record of a group has this address and port. -/
def GroupYields (key : String × ℤ) : Prop :=
  ∃ record ∈ lines.flatMap (expansions groups), resolvedKey record = some key

/-- A single host is left out exactly when a group yields a record with its key;
hence no two records, one from a host and one from a group, share their key. -/
structure OneOwner (single : List SourceRecord) : Prop where
  leftOut : ∀ source ∈ lines, isSingleHost groups source = true →
    (source ∉ single ↔ ∃ key, resolvedKey source = some key ∧ GroupYields groups lines key)
  disjoint : ∀ source ∈ single, ∀ key, resolvedKey source = some key →
    ¬ GroupYields groups lines key

/-- The inventories whose single hosts are told from group hosts correctly.  For each
single host: when some group host has the same key by a port of its own, the port of
the single host is written plainly; when none has, a host without port has its
address and the port is the default one exactly when such a host inherits the port. -/
def PortsAgree : Prop :=
  ∀ source ∈ lines, isSingleHost groups source = true →
    ∀ address port, resolvedKey source = some (address, port) →
      (OwnPortHost groups lines address port → PlainPort (source.get "port") port) ∧
      (¬ OwnPortHost groups lines address port →
        ((PortlessHost groups lines address ∧ port = 161) ↔
          InheritingHost groups lines address port))

variable {groups lines}

theorem resolvedKey_hostGroupObject (source : SourceRecord) (groupName : String) (o : GroupObject) :
    resolvedKey (hostGroupObject source groupName o) =
      if o.port.isSome then some (o.address, o.ownPort)
      else (resolvedPort (source.get "port")).map fun port => (o.address, port) := by
  rw [resolvedKey, get?_hostGroupObject_address, SourceRecord.get, Dict.getD,
    get?_hostGroupObject_port]
  cases hport : o.port with
  | none => rfl
  | some p =>
    have hresolved : resolvedPort (.int p) = some o.ownPort := by
      rw [resolvedPort, GroupObject.ownPort, hport]
      by_cases hp : p = 0 <;> simp [PyVal.isBlank, hp, Except.toOption]
    simp [hresolved]

theorem mem_expansions_iff {source record : SourceRecord} :
    record ∈ expansions groups source ↔ ∃ groupName, ∃ o ∈ lineHosts groups source,
      lineGroup groups source = some (groupName, lineHosts groups source) ∧
        record = hostGroupObject source groupName o := by
  rw [expansions, lineHosts]
  cases lineGroup groups source with
  | none => simp
  | some group => simp [eq_comm, Prod.ext_iff]

/-- A line with group hosts names its group. -/
theorem lineGroup_of_mem {source : SourceRecord} {o : GroupObject}
    (h : o ∈ lineHosts groups source) :
    ∃ groupName, lineGroup groups source = some (groupName, lineHosts groups source) := by
  rw [lineHosts] at h ⊢
  cases hline : lineGroup groups source with
  | none => simp [hline] at h
  | some group => exact ⟨group.1, by simp⟩

/-- What the groups yield, by the ports of their hosts. -/
theorem groupYields_iff {address : String} {port : ℤ} :
    GroupYields groups lines (address, port) ↔
      OwnPortHost groups lines address port ∨ InheritingHost groups lines address port := by
  constructor
  · rintro ⟨record, hrecord, hkey⟩
    obtain ⟨source, hsource, hmem⟩ := List.mem_flatMap.mp hrecord
    obtain ⟨groupName, o, ho, -, rfl⟩ := mem_expansions_iff.mp hmem
    rw [resolvedKey_hostGroupObject] at hkey
    split at hkey
    · next hport =>
      simp only [Option.some.injEq, Prod.mk.injEq] at hkey
      exact Or.inl ⟨source, hsource, o, ho, hkey.1, hport, hkey.2⟩
    · next hport =>
      simp only [Option.map_eq_some_iff, Prod.mk.injEq] at hkey
      obtain ⟨p, hp, haddress, rfl⟩ := hkey
      exact Or.inr ⟨source, hsource, o, ho, haddress, by simpa using hport, hp⟩
  · rintro (⟨source, hsource, o, ho, rfl, hport, rfl⟩ |
    ⟨source, hsource, o, ho, rfl, hport, hp⟩) <;>
      obtain ⟨groupName, hline⟩ := lineGroup_of_mem ho <;>
      refine ⟨hostGroupObject source groupName o, List.mem_flatMap.mpr ⟨source, hsource,
        mem_expansions_iff.mpr ⟨groupName, o, ho, hline, rfl⟩⟩, ?_⟩ <;>
      rw [resolvedKey_hostGroupObject]
    · rw [if_pos hport]
    · rw [if_neg (by simp [hport]), hp, Option.map_some]

/-- What the groups are looked up by, by the ports of their hosts. -/
theorem hostKey_iff {address : String} {port : ℤ} :
    (∃ source ∈ lines, ∃ o ∈ lineHosts groups source, o.address = address ∧ o.ownPort = port) ↔
      OwnPortHost groups lines address port ∨ (PortlessHost groups lines address ∧ port = 161) := by
  constructor
  · rintro ⟨source, hsource, o, ho, haddress, hown⟩
    cases hport : o.port with
    | none =>
      rw [GroupObject.ownPort, hport] at hown
      exact Or.inr ⟨⟨source, hsource, o, ho, haddress, hport⟩, hown.symm⟩
    | some p => exact Or.inl ⟨source, hsource, o, ho, haddress, by simp [hport], hown⟩
  · rintro (⟨source, hsource, o, ho, haddress, -, hown⟩ |
      ⟨⟨source, hsource, o, ho, haddress, hport⟩, rfl⟩)
    · exact ⟨source, hsource, o, ho, haddress, hown⟩
    · exact ⟨source, hsource, o, ho, haddress, by rw [GroupObject.ownPort, hport]⟩

/-- The loop over the single hosts keeps those whose key is not a group host's. -/
theorem placeSingleHosts_spec {hostsFromGroups : Dict String Unit}
    {hosts single : List SourceRecord}
    (h : placeSingleHosts hostsFromGroups hosts = .ok single) :
    (∀ source ∈ single, source ∈ hosts) ∧ ∀ source ∈ hosts, ∃ key, singleHostKey source = .ok key ∧
      (source ∈ single ↔ key ∉ hostsFromGroups) := by
  induction hosts generalizing single with
  | nil =>
    cases h
    simp
  | cons host hosts ih =>
    rw [placeSingleHosts] at h
    cases hkey : singleHostKey host with
    | error err => rw [hkey] at h; cases h
    | ok key =>
      cases hrest : placeSingleHosts hostsFromGroups hosts with
      | error err => rw [hkey, hrest] at h; cases h
      | ok rest =>
        rw [hkey, hrest] at h
        simp only [bind, Except.bind, pure, Except.pure, Except.ok.injEq] at h
        obtain ⟨hsub, hkeys⟩ := ih hrest
        -- whether a line is kept depends on its key only, wherever it stands
        have hmem : ∀ source, source ∈ single ↔
            source ∈ rest ∨ (source = host ∧ key ∉ hostsFromGroups) := by
          intro source
          rw [← h]
          by_cases hin : key ∈ hostsFromGroups <;> simp [hin, or_comm]
        refine ⟨?_, ?_⟩
        · intro source hs
          rcases (hmem source).mp hs with hs | ⟨rfl, -⟩
          · exact List.mem_cons_of_mem _ (hsub source hs)
          · exact List.mem_cons_self
        · intro source hs
          by_cases heq : source = host
          · subst heq
            refine ⟨key, hkey, (hmem source).trans ⟨?_, fun hnot => Or.inr ⟨rfl, hnot⟩⟩⟩
            rintro (hs | ⟨-, hnot⟩)
            · obtain ⟨key', hkey', hiff⟩ := hkeys source (hsub source hs)
              rw [hkey, Except.ok.injEq] at hkey'
              exact hkey' ▸ hiff.mp hs
            · exact hnot
          · obtain ⟨key', hkey', hiff⟩ := hkeys source ((List.mem_cons.mp hs).resolve_left heq)
            exact ⟨key', hkey', by rw [hmem, ← hiff]; simp [heq]⟩

/-- What `getAllHosts` returns when it does. -/
theorem getAllHosts_eq_ok {records : List SourceRecord} {mapping : Dict String PyVal}
    (h : getAllHosts groups lines = .ok (records, mapping)) :
    ∃ st single, Processed groups lines ProcessorState.new st ∧
      placeSingleHosts st.hostsFromGroups st.singleHosts = .ok single ∧
      records = lines.flatMap (expansions groups) ++ single ∧
      mapping = portMapping groups lines Dict.empty := by
  rw [getAllHosts] at h
  obtain ⟨st, hlines, h⟩ := PyError.bind_eq_ok.mp h
  obtain ⟨single, hplace, h⟩ := PyError.bind_eq_ok.mp h
  cases h
  have hprocessed := processLines_spec hlines
  exact ⟨st, single, hprocessed, hplace, by rw [hprocessed.records]; rfl, hprocessed.mapping⟩

theorem hostsFromGroups_iff {st : ProcessorState}
    (h : Processed groups lines ProcessorState.new st) (k : String) :
    k ∈ st.hostsFromGroups ↔ ∃ source ∈ lines, ∃ o ∈ lineHosts groups source, k = o.hostKey :=
  (h.hosts k).trans (or_iff_right (by simp [ProcessorState.new]))

/-- A line the inventory comes down to: the line of a group host, or of a single host
whose key is no group host's. -/
def Placed (groups : Groups) (lines : List SourceRecord) (source : SourceRecord) : Prop :=
  source ∈ lines.flatMap (expansions groups) ∨
    source ∈ lines.filter (isSingleHost groups) ∧
      ∀ line ∈ lines, ∀ o ∈ lineHosts groups line, singleHostKey source ≠ .ok o.hostKey

/-- The lines the inventory comes down to, in their order. -/
def placedLines (groups : Groups) (lines : List SourceRecord) : List SourceRecord :=
  lines.flatMap (expansions groups) ++
    (lines.filter (isSingleHost groups)).filter fun source =>
      !(lines.any fun line => (lineHosts groups line).any fun o =>
        (singleHostKey source).toOption = some o.hostKey)

/-- The loop over the single hosts keeps their order. -/
theorem placeSingleHosts_eq {hostsFromGroups : Dict String Unit} {hosts single : List SourceRecord}
    (h : placeSingleHosts hostsFromGroups hosts = .ok single) :
    single = hosts.filter fun source =>
      !((singleHostKey source).toOption.any fun key => decide (key ∈ hostsFromGroups)) := by
  induction hosts generalizing single with
  | nil =>
    cases h
    rfl
  | cons host hosts ih =>
    rw [placeSingleHosts] at h
    obtain ⟨key, hkey, h⟩ := PyError.bind_eq_ok.mp h
    obtain ⟨rest, hrest, h⟩ := PyError.bind_eq_ok.mp h
    cases h
    rw [List.filter_cons, hkey, ← ih hrest]
    by_cases hin : key ∈ hostsFromGroups <;> simp [Except.toOption, hin]

/-- **What `getAllHosts` returns**, in its order. -/
theorem getAllHosts_placed {records : List SourceRecord} {mapping : Dict String PyVal}
    (h : getAllHosts groups lines = .ok (records, mapping)) :
    records = placedLines groups lines := by
  obtain ⟨st, single, hprocessed, hplace, rfl, -⟩ := getAllHosts_eq_ok h
  rw [placeSingleHosts_eq hplace, hprocessed.single, placedLines]
  congr 1
  refine List.filter_congr fun source _ => ?_
  congr 1
  cases hkey : singleHostKey source with
  | error err => simp [Except.toOption]
  | ok key =>
    have hin := hostsFromGroups_iff hprocessed key
    rw [Bool.eq_iff_iff]
    simp [Except.toOption, hin]

theorem mem_getAllHosts_iff {records : List SourceRecord} {mapping : Dict String PyVal}
    (h : getAllHosts groups lines = .ok (records, mapping)) (source : SourceRecord) :
    source ∈ records ↔ Placed groups lines source := by
  obtain ⟨st, single, hprocessed, hplace, rfl, -⟩ := getAllHosts_eq_ok h
  obtain ⟨hsub, hkeys⟩ := placeSingleHosts_spec hplace
  rw [hprocessed.single] at hsub hkeys
  rw [List.mem_append, Placed]
  refine or_congr Iff.rfl ⟨fun hmem => ?_, fun ⟨hsingle, hnot⟩ => ?_⟩
  · obtain ⟨key, hkey, hiff⟩ := hkeys source (hsub source hmem)
    refine ⟨hsub source hmem, fun line hline o ho heq => hiff.mp hmem ?_⟩
    rw [hkey, Except.ok.injEq] at heq
    exact (hostsFromGroups_iff hprocessed key).mpr ⟨line, hline, o, ho, heq⟩
  · obtain ⟨key, hkey, hiff⟩ := hkeys source hsingle
    refine hiff.mpr ?_
    intro hin
    obtain ⟨line, hline, o, ho, rfl⟩ := (hostsFromGroups_iff hprocessed key).mp hin
    exact hnot line hline o ho hkey

/-- A single host is left out exactly when its key, as it is written, is the key of a
group host. -/
theorem leftOut_iff {hostsFromGroups : Dict String Unit}
    (hhosts : ∀ k, k ∈ hostsFromGroups ↔
      ∃ source ∈ lines, ∃ o ∈ lineHosts groups source, k = o.hostKey)
    {source : SourceRecord} (hsingle : isSingleHost groups source = true) {key : String}
    (hkey : singleHostKey source = .ok key) :
    ∃ address port, resolvedKey source = some (address, port) ∧
      (key ∈ hostsFromGroups ↔ PlainPort (source.get "port") port ∧
        (OwnPortHost groups lines address port ∨
          (PortlessHost groups lines address ∧ port = 161))) := by
  obtain ⟨address, haddr⟩ : ∃ address, source.columns.get? "address" = some (.str address) := by
    rw [isSingleHost] at hsingle
    split at hsingle
    · next address haddr => exact ⟨address, haddr⟩
    · cases hsingle
  simp only [singleHostKey, SourceRecord.getItem, haddr, bind, Except.bind] at hkey
  obtain ⟨port, text, hport, rfl, hcolon, htext⟩ := transformAddressToKey_spec hkey
  refine ⟨address, port, by rw [resolvedKey, haddr, hport]; rfl, ?_⟩
  rw [← hostKey_iff, hhosts]
  constructor
  · rintro ⟨source', hs, o, ho, heq⟩
    obtain ⟨haddress, hnumeral⟩ := (key_inj hcolon (colon_notMem_toString _)).mp heq
    obtain ⟨hown, hplain⟩ := (htext _).mp hnumeral.symm
    exact ⟨hplain, source', hs, o, ho, haddress.symm, hown⟩
  · rintro ⟨hplain, source', hs, o, ho, rfl, hown⟩
    refine ⟨source', hs, o, ho, ?_⟩
    rw [GroupObject.hostKey, (htext o.ownPort).mpr ⟨hown, hplain⟩]

/-- **Each device has one owner exactly when the ports agree.** -/
theorem getAllHosts_oneOwner_iff (groups : Groups) (lines records : List SourceRecord)
    (mapping : Dict String PyVal) (h : getAllHosts groups lines = .ok (records, mapping)) :
    ∃ single, records = lines.flatMap (expansions groups) ++ single ∧
      (OneOwner groups lines single ↔ PortsAgree groups lines) := by
  obtain ⟨st, single, hprocessed, hplace, rfl, -⟩ := getAllHosts_eq_ok h
  refine ⟨single, rfl, ?_⟩
  have hhosts := hostsFromGroups_iff hprocessed
  obtain ⟨hsub, hkeys⟩ := placeSingleHosts_spec hplace
  rw [hprocessed.single] at hsub hkeys
  -- one single host: left out by the key as written, claimed by the port of the record
  have hhost : ∀ source ∈ lines, isSingleHost groups source = true → ∃ address port,
      resolvedKey source = some (address, port) ∧
      (source ∉ single ↔ PlainPort (source.get "port") port ∧
        (OwnPortHost groups lines address port ∨
          (PortlessHost groups lines address ∧ port = 161))) := by
    intro source hs hsingle
    obtain ⟨key, hkey, hmem⟩ := hkeys source (List.mem_filter.mpr ⟨hs, hsingle⟩)
    obtain ⟨address, port, hresolved, hleft⟩ := leftOut_iff hhosts hsingle hkey
    exact ⟨address, port, hresolved, by rw [hmem, not_not, hleft]⟩
  constructor
  · intro hone source hs hsingle address port hresolved
    obtain ⟨address', port', hresolved', hleft⟩ := hhost source hs hsingle
    rw [hresolved, Option.some.injEq, Prod.mk.injEq] at hresolved'
    obtain ⟨rfl, rfl⟩ := hresolved'
    have hiff := hone.leftOut source hs hsingle
    simp only [hresolved, Option.some.injEq, exists_eq_left', groupYields_iff, hleft] at hiff
    refine ⟨fun hown => (hiff.mpr (Or.inl hown)).1,
      fun hown => ⟨fun hportless => ?_, fun hinh => ?_⟩⟩
    · exact (hiff.mp ⟨Or.inl hportless.2, Or.inr hportless⟩).resolve_left hown
    · exact (hiff.mpr (Or.inr hinh)).2.resolve_left hown
  · intro hagree
    have hleftOut : ∀ source ∈ lines, isSingleHost groups source = true →
        (source ∉ single ↔ ∃ key, resolvedKey source = some key ∧
          GroupYields groups lines key) := by
      intro source hs hsingle
      obtain ⟨address, port, hresolved, hleft⟩ := hhost source hs hsingle
      obtain ⟨hplain, hports⟩ := hagree source hs hsingle address port hresolved
      simp only [hleft, hresolved, Option.some.injEq, exists_eq_left', groupYields_iff]
      constructor
      · rintro ⟨-, hown | hportless⟩
        · exact Or.inl hown
        · by_cases hown : OwnPortHost groups lines address port
          · exact Or.inl hown
          · exact Or.inr ((hports hown).mp hportless)
      · intro hyields
        by_cases hown : OwnPortHost groups lines address port
        · exact ⟨hplain hown, Or.inl hown⟩
        · have hportless := (hports hown).mpr (hyields.resolve_left hown)
          exact ⟨Or.inl hportless.2, Or.inr hportless⟩
    refine ⟨hleftOut, fun source hs key hkey hyields => ?_⟩
    obtain ⟨hmem, hsingle⟩ := List.mem_filter.mp (hsub source hs)
    exact (hleftOut source hmem hsingle).mpr ⟨key, hkey, hyields⟩ hs

end OneOwner

/-! ### A port on the line of a group -/

/-- A group of one host without a port. -/
def coreGroups : Groups := Dict.ofList [("core", [{ address := "10.0.0.1" }])]

/-- The group on port 1161, and its host on the same port. -/
def coreLines : List SourceRecord :=
  [{ columns := Dict.ofList [("address", .str "core"), ("port", .str "1161")] },
    { columns := Dict.ofList [("address", .str "10.0.0.1"), ("port", .str "1161")] }]

/-- The records of that inventory: both lines yield `10.0.0.1:1161`. -/
def coreRecords : List SourceRecord :=
  [{ columns := Dict.ofList [("address", .str "10.0.0.1"), ("port", .str "1161"),
      ("group", .str "core")] },
    { columns := Dict.ofList [("address", .str "10.0.0.1"), ("port", .str "1161")] }]

theorem getAllHosts_core :
    getAllHosts coreGroups coreLines = .ok (coreRecords, Dict.ofList [("core", .str "1161")]) := by
  decide

theorem getAllHosts_oneOwner_iff_core :
    ∃ single, coreRecords = coreLines.flatMap (expansions coreGroups) ++ single ∧
      (OneOwner coreGroups coreLines single ↔ PortsAgree coreGroups coreLines) :=
  getAllHosts_oneOwner_iff coreGroups coreLines coreRecords _ getAllHosts_core

/-- The host has two owners. -/
theorem getAllHosts_two_owners :
    ¬ ∀ (groups : Groups) (lines records : List SourceRecord) (mapping : Dict String PyVal),
      getAllHosts groups lines = .ok (records, mapping) →
        ∃ single, records = lines.flatMap (expansions groups) ++ single ∧
          OneOwner groups lines single := by
  intro hclaim
  obtain ⟨single, hrecords, hone⟩ := hclaim coreGroups coreLines coreRecords _ getAllHosts_core
  have hexpanded : coreLines.flatMap (expansions coreGroups) = coreRecords.take 1 := by decide
  rw [hexpanded] at hrecords
  have hsingle : coreRecords.drop 1 = single :=
    List.append_cancel_left ((List.take_append_drop 1 coreRecords).trans hrecords)
  refine hone.disjoint (coreRecords.getLast (by decide)) ?_ ("10.0.0.1", 1161) (by decide)
    ⟨coreRecords.head (by decide), by decide, by decide⟩
  rw [← hsingle]
  decide

end Sc4snmp
