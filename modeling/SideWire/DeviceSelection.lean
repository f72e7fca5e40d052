import Mathlib.Data.List.Nodup
import SideWire.Security

/-!
How a device is selected: by the server in its map of connected devices, and by the client
in the list that the server reports.
-/

namespace SideWire.DeviceSelection

open SideWire.FrameCodec
open SideWire.PairingStore
open SideWire.Security

inductive ConnectionMode
  | inbound
  | outbound
  deriving DecidableEq

def ConnectionMode.asStr : ConnectionMode → String
  | inbound => "inbound"
  | outbound => "outbound"

structure DeviceSession where
  name : Text
  peer : Text
  mode : ConnectionMode
  security : SecurityMode
  capabilities : UInt64
  protocol : UInt16
  deriving DecidableEq

/-- The map of the server, in the order that it is iterated in. -/
structure DeviceMap where
  entries : List (DeviceId × DeviceSession)
  nodup : (entries.map Prod.fst).Nodup

structure DeviceInfo where
  id : Text
  name : Text
  peer : Text
  mode : String
  security : String
  protocol : String
  capabilities : UInt64
  deriving DecidableEq

def deviceInfo (entry : DeviceId × DeviceSession) : DeviceInfo where
  id := DeviceId.toHex entry.1
  name := entry.2.name
  peer := entry.2.peer
  mode := entry.2.mode.asStr
  security := entry.2.security.asStr
  protocol := protocolLabel entry.2.protocol
  capabilities := entry.2.capabilities

/-- The order of the reported list: by name, then by id. -/
def reportedBefore (a b : DeviceInfo) : Bool :=
  decide (a.name < b.name) || (decide (a.name = b.name) && !decide (b.id < a.id))

/-- The answer to `ControlRequest::Devices`. -/
def listDevices (devices : DeviceMap) : List DeviceInfo :=
  (devices.entries.map deviceInfo).mergeSort reportedBefore

/-- A selector without its dashes, in lower case. -/
def compact (selector : Text) : Text := toAsciiLowercase (selector.filter (· ≠ '-'))

/-! The server. -/

def selectorIsIdPrefix (selector : Text) : Bool :=
  decide (4 ≤ (compact selector).length) && (compact selector).all isAsciiHexdigit

def selectorMatchesId (id : DeviceId) (selector : Text) : Bool :=
  if selectorIsIdPrefix selector = false then false
  else (compact selector).isPrefixOf (DeviceId.toHex id)

def choice (entry : DeviceId × DeviceSession) : String :=
  String.ofList (DeviceId.short entry.1 ++ ':' :: entry.2.name)

/-- The `matches` of `resolve_device`: by id, or by name where no id matches. -/
def resolveMatches (devices : DeviceMap) (selector : Text) : List (DeviceId × DeviceSession) :=
  let byId := devices.entries.filter fun entry => selectorMatchesId entry.1 selector
  if byId.isEmpty then
    devices.entries.filter fun entry => eqIgnoreAsciiCase entry.2.name selector
  else byId

def resolveDevice (devices : DeviceMap) (requested : Option Text) :
    Except String (DeviceId × DeviceSession) :=
  match requested with
  | some selector =>
      let text := String.ofList selector
      match resolveMatches devices selector with
      | [entry] => .ok entry
      | [] => .error s!"device selector '{text}' did not match any connected device"
      | found =>
          let choices := ", ".intercalate (found.map choice)
          .error s!"device selector '{text}' is ambiguous: {choices}; use an ID prefix"
  | none =>
      match devices.entries with
      | [] => .error "no SideWire devices connected"
      | [entry] => .ok entry
      | _ =>
          .error ("multiple devices connected; select one with -s <name-or-id> " ++
            "or configure default-device")

/-! The client. -/

def selectorMatches (device : DeviceInfo) (selector : Text) : Bool :=
  (decide (4 ≤ (compact selector).length) && (compact selector).all isAsciiHexdigit &&
      (compact selector).isPrefixOf device.id) ||
    eqIgnoreAsciiCase device.name selector

def selectDevice (devices : List DeviceInfo) (requested : Option Text) :
    Except String DeviceInfo :=
  match requested with
  | some selector =>
      let text := String.ofList selector
      match devices.filter fun device => selectorMatches device selector with
      | [device] => .ok device
      | [] => .error s!"device selector '{text}' did not match any connected device"
      | _ => .error s!"device selector '{text}' is ambiguous; use an ID prefix"
  | none =>
      match devices with
      | [] => .error "no SideWire devices connected"
      | [device] => .ok device
      | _ =>
          .error ("multiple devices connected; select one with -s <name-or-id> " ++
            "or configure default-device")

structure AppConfig where
  defaultDevice : Option Text

/-- The device of a command, or else the configured one. -/
def AppConfig.resolveDevice (config : AppConfig) (requested : Option Text) : Option Text :=
  requested.or config.defaultDevice

/-- Whether `run_devices` marks a device. -/
def isDefault (config : AppConfig) (devices : List DeviceInfo) (device : DeviceInfo) : Bool :=
  config.defaultDevice.any fun selector =>
    decide ((devices.filter fun device => selectorMatches device selector).length = 1) &&
      selectorMatches device selector

/-- A line of the table that `run_devices` prints. -/
structure Row where
  mark : String
  id : Text
  name : Text
  mode : String
  security : String
  protocol : String
  peer : Text
  deriving DecidableEq

/-- The table of `run_devices`, or nothing where it says that there are no devices. -/
def runDevices (config : AppConfig) (devices : List DeviceInfo) : Option (List Row) :=
  if devices.isEmpty then none
  else
    some (devices.map fun device =>
      { mark := if isDefault config devices device then "*" else "",
        id := device.id.take 8,
        name := device.name,
        mode := device.mode,
        security := device.security,
        protocol := device.protocol,
        peer := device.peer })

/-- `a` is the one member of `l` with the property `P`. -/
def Sole {α : Type*} (l : List α) (P : α → Prop) (a : α) : Prop :=
  a ∈ l ∧ P a ∧ ∀ b ∈ l, P b → b = a

section Sole

variable {α : Type*} {l : List α} {a : α} {P Q : α → Prop}

theorem Sole.congr (h : ∀ b ∈ l, P b ↔ Q b) : Sole l P a ↔ Sole l Q a := by
  constructor
  · rintro ⟨hmem, ha, hsole⟩
    exact ⟨hmem, (h a hmem).mp ha, fun b hb hQ => hsole b hb ((h b hb).mpr hQ)⟩
  · rintro ⟨hmem, ha, hsole⟩
    exact ⟨hmem, (h a hmem).mpr ha, fun b hb hP => hsole b hb ((h b hb).mp hP)⟩

theorem filter_eq_singleton_iff {p : α → Bool} (hnodup : l.Nodup) :
    l.filter p = [a] ↔ Sole l (fun b => p b = true) a := by
  constructor
  · intro h
    have hmem : ∀ b, b ∈ l ∧ p b = true ↔ b = a := by
      intro b
      rw [← List.mem_filter, h, List.mem_singleton]
    obtain ⟨ha, hp⟩ := (hmem a).mpr rfl
    exact ⟨ha, hp, fun b hb hb' => (hmem b).mp ⟨hb, hb'⟩⟩
  · rintro ⟨ha, hp, hsole⟩
    apply List.perm_singleton.mp
    apply (List.perm_ext_iff_of_nodup (hnodup.filter p) (List.nodup_singleton a)).mpr
    intro b
    rw [List.mem_filter, List.mem_singleton]
    constructor
    · rintro ⟨hb, hb'⟩
      exact hsole b hb hb'
    · rintro rfl
      exact ⟨ha, hp⟩

/-- One choice by both properties at once and one by the first before the second come to
the same unless the first has a sole choice and the second another one. -/
theorem sole_or_iff :
    (∀ a, Sole l (fun b => P b ∨ Q b) a ↔
        Sole l P a ∨ (∀ b ∈ l, ¬ P b) ∧ Sole l Q a) ↔
      ¬ ∃ a, Sole l P a ∧ ∃ b ∈ l, b ≠ a ∧ Q b := by
  constructor
  · rintro h ⟨a, hsole, b, hb, hne, hQ⟩
    obtain ⟨-, -, honly⟩ := (h a).mpr (.inl hsole)
    exact hne (honly b hb (.inr hQ))
  · intro hclash a
    constructor
    · rintro ⟨ha, hPQ, honly⟩
      by_cases hP : ∃ b ∈ l, P b
      · obtain ⟨b, hb, hPb⟩ := hP
        obtain rfl := honly b hb (.inl hPb)
        exact .inl ⟨ha, hPb, fun c hc hPc => honly c hc (.inl hPc)⟩
      · have hnone : ∀ b ∈ l, ¬ P b := fun b hb hPb => hP ⟨b, hb, hPb⟩
        exact .inr ⟨hnone, ha, hPQ.resolve_left (hnone a ha),
          fun b hb hQ => honly b hb (.inr hQ)⟩
    · rintro (⟨ha, hP, honly⟩ | ⟨hnone, ha, hQ, honly⟩)
      · refine ⟨ha, .inl hP, ?_⟩
        rintro b hb (hPb | hQb)
        · exact honly b hb hPb
        · by_contra hne
          exact hclash ⟨a, ⟨ha, hP, honly⟩, b, hb, hne, hQb⟩
      · refine ⟨ha, .inr hQ, ?_⟩
        rintro b hb (hPb | hQb)
        · exact (hnone b hb hPb).elim
        · exact honly b hb hQb

end Sole

section Agreement

variable {devices : DeviceMap} {entry : DeviceId × DeviceSession} {info : DeviceInfo}
  {selector : Text}

theorem DeviceMap.entry_eq {other : DeviceId × DeviceSession} (hentry : entry ∈ devices.entries)
    (hother : other ∈ devices.entries) (h : entry.1 = other.1) : entry = other :=
  List.inj_on_of_nodup_map devices.nodup hentry hother h

theorem mem_listDevices :
    info ∈ listDevices devices ↔ ∃ entry ∈ devices.entries, deviceInfo entry = info := by
  rw [listDevices, (List.mergeSort_perm _ _).mem_iff, List.mem_map]

theorem nodup_listDevices (devices : DeviceMap) : (listDevices devices).Nodup := by
  rw [listDevices, (List.mergeSort_perm _ _).nodup_iff]
  apply List.Nodup.of_map DeviceInfo.id
  rw [List.map_map]
  have hids : (devices.entries.map Prod.fst).map DeviceId.toHex =
      devices.entries.map (DeviceInfo.id ∘ deviceInfo) := by
    rw [List.map_map]
    rfl
  rw [← hids]
  exact devices.nodup.map fun _ _ h => DeviceId.toHex_inj h

theorem selectorMatches_deviceInfo (entry : DeviceId × DeviceSession) (selector : Text) :
    selectorMatches (deviceInfo entry) selector = true ↔
      selectorMatchesId entry.1 selector = true ∨
        eqIgnoreAsciiCase entry.2.name selector = true := by
  have hstart : selectorMatches (deviceInfo entry) selector =
      ((selectorIsIdPrefix selector && (compact selector).isPrefixOf (DeviceId.toHex entry.1)) ||
        eqIgnoreAsciiCase entry.2.name selector) := rfl
  rw [hstart, Bool.or_eq_true, selectorMatchesId]
  cases selectorIsIdPrefix selector <;> simp

/-- What the server resolves a selector to. -/
theorem resolveDevice_eq_ok_iff :
    resolveDevice devices (some selector) = .ok entry ↔
      Sole devices.entries (fun entry => selectorMatchesId entry.1 selector = true) entry ∨
        (∀ other ∈ devices.entries, ¬ selectorMatchesId other.1 selector = true) ∧
          Sole devices.entries
            (fun entry => eqIgnoreAsciiCase entry.2.name selector = true) entry := by
  have hnodup := devices.nodup.of_map Prod.fst
  have hmatches : resolveDevice devices (some selector) = .ok entry ↔
      resolveMatches devices selector = [entry] := by
    simp only [resolveDevice]
    split <;> simp_all
  rw [hmatches, resolveMatches]
  split_ifs with hempty
  · have hnone : ∀ other ∈ devices.entries, ¬ selectorMatchesId other.1 selector = true :=
      List.filter_eq_nil_iff.mp (List.isEmpty_iff.mp hempty)
    rw [filter_eq_singleton_iff hnodup]
    constructor
    · exact fun h => .inr ⟨hnone, h⟩
    · rintro (⟨hmem, hmatch, -⟩ | ⟨-, h⟩)
      · exact (hnone entry hmem hmatch).elim
      · exact h
  · rw [filter_eq_singleton_iff hnodup]
    constructor
    · exact .inl
    · rintro (h | ⟨hnone, -⟩)
      · exact h
      · exact (hempty (List.isEmpty_iff.mpr (List.filter_eq_nil_iff.mpr hnone))).elim

theorem selectDevice_some_eq_ok_iff {infos : List DeviceInfo} :
    selectDevice infos (some selector) = .ok info ↔
      infos.filter (fun device => selectorMatches device selector) = [info] := by
  simp only [selectDevice]
  split
  · rename_i found
    rw [found]
    simp
  · rename_i found
    rw [found]
    simp
  · rename_i hother _
    simpa using hother info

/-- What the client selects in the list of the server. -/
theorem selectDevice_eq_ok_iff :
    selectDevice (listDevices devices) (some selector) = .ok info ↔
      ∃ entry, deviceInfo entry = info ∧
        Sole devices.entries (fun entry => selectorMatchesId entry.1 selector = true ∨
          eqIgnoreAsciiCase entry.2.name selector = true) entry := by
  rw [selectDevice_some_eq_ok_iff, filter_eq_singleton_iff (nodup_listDevices devices)]
  constructor
  · rintro ⟨hmem, hmatch, honly⟩
    obtain ⟨entry, hentry, rfl⟩ := mem_listDevices.mp hmem
    refine ⟨entry, rfl, hentry, (selectorMatches_deviceInfo entry selector).mp hmatch, ?_⟩
    intro other hother hmatches'
    have heq := honly (deviceInfo other) (mem_listDevices.mpr ⟨other, hother, rfl⟩)
      ((selectorMatches_deviceInfo other selector).mpr hmatches')
    exact DeviceMap.entry_eq hother hentry (DeviceId.toHex_inj (congrArg DeviceInfo.id heq))
  · rintro ⟨entry, rfl, hentry, hmatch, honly⟩
    refine ⟨mem_listDevices.mpr ⟨entry, hentry, rfl⟩,
      (selectorMatches_deviceInfo entry selector).mpr hmatch, ?_⟩
    intro device hdevice hmatch'
    obtain ⟨other, hother, rfl⟩ := mem_listDevices.mp hdevice
    rw [honly other hother ((selectorMatches_deviceInfo other selector).mp hmatch')]

theorem selectDevice_none_eq_ok_iff :
    selectDevice (listDevices devices) none = .ok info ↔
      ∃ entry, deviceInfo entry = info ∧ resolveDevice devices none = .ok entry := by
  have hselect : selectDevice (listDevices devices) none = .ok info ↔
      listDevices devices = [info] := by
    simp only [selectDevice]
    split <;> simp_all
  have hresolve : ∀ entry, resolveDevice devices none = .ok entry ↔
      devices.entries = [entry] := by
    intro entry
    simp only [resolveDevice]
    split <;> simp_all
  simp only [hselect, hresolve]
  constructor
  · intro h
    have hperm := (List.mergeSort_perm (devices.entries.map deviceInfo) reportedBefore).symm
    rw [← listDevices, h, List.perm_singleton] at hperm
    obtain ⟨entry, hentries, rfl⟩ := List.map_eq_singleton_iff.mp hperm
    exact ⟨entry, rfl, hentries⟩
  · rintro ⟨entry, rfl, hentries⟩
    simp [listDevices, hentries]

/-- Client and server come to the same device, or both to none. -/
def SelectSame (devices : DeviceMap) (requested : Option Text) : Prop :=
  ((∃ info, selectDevice (listDevices devices) requested = .ok info) ↔
      ∃ entry, resolveDevice devices requested = .ok entry) ∧
    ∀ info entry, selectDevice (listDevices devices) requested = .ok info →
      resolveDevice devices requested = .ok entry → info.id = DeviceId.toHex entry.1

/-- The table marks the device that the server takes for a command without a selector. -/
def MarksDefault (devices : DeviceMap) (config : AppConfig) : Prop :=
  ∀ rows, runDevices config (listDevices devices) = some rows →
    ∀ pair ∈ (listDevices devices).zip rows,
      pair.2.mark = "*" ↔ config.defaultDevice ≠ none ∧
        ∃ entry, resolveDevice devices (config.resolveDevice none) = .ok entry ∧
          pair.1.id = DeviceId.toHex entry.1

/-- One device alone has the selector as a prefix of its id, another one has it as its
name. -/
def Clashes (devices : DeviceMap) (selector : Text) : Prop :=
  ∃ entry ∈ devices.entries, selectorMatchesId entry.1 selector = true ∧
    (∀ other ∈ devices.entries, selectorMatchesId other.1 selector = true → other = entry) ∧
    ∃ other ∈ devices.entries, other ≠ entry ∧
      eqIgnoreAsciiCase other.2.name selector = true

theorem sole_ids_iff_clashes :
    (∃ entry, Sole devices.entries (fun entry => selectorMatchesId entry.1 selector = true) entry ∧
        ∃ other ∈ devices.entries, other ≠ entry ∧
          eqIgnoreAsciiCase other.2.name selector = true) ↔ Clashes devices selector := by
  constructor
  · rintro ⟨entry, ⟨hentry, hmatch, honly⟩, hother⟩
    exact ⟨entry, hentry, hmatch, honly, hother⟩
  · rintro ⟨entry, hentry, hmatch, honly, hother⟩
    exact ⟨entry, ⟨hentry, hmatch, honly⟩, hother⟩

theorem not_clashes_iff :
    ¬ Clashes devices selector ↔
      ∀ entry, (Sole devices.entries (fun entry => selectorMatchesId entry.1 selector = true ∨
          eqIgnoreAsciiCase entry.2.name selector = true) entry ↔
        resolveDevice devices (some selector) = .ok entry) := by
  simp only [resolveDevice_eq_ok_iff]
  rw [sole_or_iff, sole_ids_iff_clashes]

theorem selectSame_iff :
    SelectSame devices (some selector) ↔ ¬ Clashes devices selector := by
  constructor
  · rintro ⟨hboth, hsame⟩ ⟨entry, hentry, hmatch, honly, other, hother, hne, hname⟩
    have hresolve : resolveDevice devices (some selector) = .ok entry :=
      resolveDevice_eq_ok_iff.mpr (.inl ⟨hentry, hmatch, honly⟩)
    obtain ⟨info, hselect⟩ := hboth.mpr ⟨entry, hresolve⟩
    obtain ⟨chosen, rfl, hchosen, -, hchosenOnly⟩ := selectDevice_eq_ok_iff.mp hselect
    have hentryChosen := hchosenOnly entry hentry (.inl hmatch)
    have hotherChosen := hchosenOnly other hother (.inr hname)
    exact hne (hotherChosen.trans hentryChosen.symm)
  · intro hclash
    have hchoice := not_clashes_iff.mp hclash
    refine ⟨?_, ?_⟩
    · constructor
      · rintro ⟨info, hselect⟩
        obtain ⟨entry, -, hsole⟩ := selectDevice_eq_ok_iff.mp hselect
        exact ⟨entry, (hchoice entry).mp hsole⟩
      · rintro ⟨entry, hresolve⟩
        exact ⟨deviceInfo entry,
          selectDevice_eq_ok_iff.mpr ⟨entry, rfl, (hchoice entry).mpr hresolve⟩⟩
    · intro info entry hselect hresolve
      obtain ⟨chosen, rfl, hsole⟩ := selectDevice_eq_ok_iff.mp hselect
      have hchosen := hresolve.symm.trans ((hchoice chosen).mp hsole)
      rw [Except.ok.inj hchosen]
      rfl

theorem selectSame_none : SelectSame devices none := by
  refine ⟨?_, ?_⟩
  · constructor
    · rintro ⟨info, hselect⟩
      obtain ⟨entry, -, hresolve⟩ := selectDevice_none_eq_ok_iff.mp hselect
      exact ⟨entry, hresolve⟩
    · rintro ⟨entry, hresolve⟩
      exact ⟨deviceInfo entry, selectDevice_none_eq_ok_iff.mpr ⟨entry, rfl, hresolve⟩⟩
  · intro info entry hselect hresolve
    obtain ⟨chosen, rfl, hchosen⟩ := selectDevice_none_eq_ok_iff.mp hselect
    rw [Except.ok.inj (hresolve.symm.trans hchosen)]
    rfl

theorem isDefault_iff (config : AppConfig) {device : DeviceInfo}
    (hdevice : device ∈ listDevices devices) :
    isDefault config (listDevices devices) device = true ↔
      ∃ selector, config.defaultDevice = some selector ∧
        selectDevice (listDevices devices) (some selector) = .ok device := by
  cases hdefault : config.defaultDevice with
  | none => simp [isDefault, hdefault]
  | some selector =>
      simp only [isDefault, hdefault, Option.any_some, Bool.and_eq_true, decide_eq_true_eq,
        Option.some.injEq, exists_eq_left', selectDevice_some_eq_ok_iff]
      constructor
      · rintro ⟨hlen, hmatch⟩
        obtain ⟨only, honly⟩ := List.length_eq_one_iff.mp hlen
        have hmem : device ∈ (listDevices devices).filter
            fun device => selectorMatches device selector :=
          List.mem_filter.mpr ⟨hdevice, hmatch⟩
        rw [honly, List.mem_singleton] at hmem
        rw [honly, hmem]
      · intro hfound
        have hmem := hfound ▸ List.mem_singleton_self device
        exact ⟨by rw [hfound]; rfl, (List.mem_filter.mp hmem).2⟩

theorem mem_zip_runDevices {config : AppConfig} {rows : List Row} {pair : DeviceInfo × Row}
    (hrows : runDevices config (listDevices devices) = some rows)
    (hpair : pair ∈ (listDevices devices).zip rows) :
    pair.1 ∈ listDevices devices ∧
      (pair.2.mark = "*" ↔ isDefault config (listDevices devices) pair.1 = true) := by
  unfold runDevices at hrows
  split_ifs at hrows
  obtain rfl := Option.some.inj hrows
  rw [← List.map_id (listDevices devices), List.map_map, List.zip_map', List.mem_map,
    List.map_id] at hpair
  obtain ⟨device, hdevice, rfl⟩ := hpair
  refine ⟨hdevice, ?_⟩
  simp

theorem marksDefault_of_selectSame {config : AppConfig}
    (h : ∀ selector, config.defaultDevice = some selector → SelectSame devices (some selector)) :
    MarksDefault devices config := by
  intro rows hrows pair hpair
  obtain ⟨hdevice, hmark⟩ := mem_zip_runDevices hrows hpair
  rw [hmark, isDefault_iff config hdevice]
  constructor
  · rintro ⟨selector, hdefault, hselect⟩
    obtain ⟨hboth, hsame⟩ := h selector hdefault
    obtain ⟨entry, hresolve⟩ := hboth.mp ⟨_, hselect⟩
    refine ⟨by simp [hdefault], entry, ?_, hsame _ _ hselect hresolve⟩
    rwa [AppConfig.resolveDevice, hdefault]
  · rintro ⟨hsome, entry, hresolve, hid⟩
    obtain ⟨selector, hdefault⟩ := Option.ne_none_iff_exists'.mp hsome
    rw [AppConfig.resolveDevice, hdefault] at hresolve
    obtain ⟨hboth, hsame⟩ := h selector hdefault
    obtain ⟨info, hselect⟩ := hboth.mpr ⟨entry, hresolve⟩
    have hinfo := hsame _ _ hselect hresolve
    obtain ⟨chosen, rfl, hchosen, -⟩ := selectDevice_eq_ok_iff.mp hselect
    obtain ⟨other, hother, hpairId⟩ := mem_listDevices.mp hdevice
    have hother' : other = chosen := by
      apply DeviceMap.entry_eq hother hchosen
      apply DeviceId.toHex_inj
      rw [← hpairId] at hid
      exact hid.trans hinfo.symm
    refine ⟨selector, hdefault, ?_⟩
    rwa [← hpairId, hother']

/-- Client and server select the same device, and the table marks the one that the server
uses, exactly when no name clashes with the prefix of another device's id. -/
theorem selection_agrees_iff (devices : DeviceMap) (requested : Option Text) :
    (SelectSame devices requested ∧ MarksDefault devices ⟨requested⟩) ↔
      ∀ selector, requested = some selector → ¬ Clashes devices selector := by
  constructor
  · rintro ⟨hsame, -⟩ selector rfl
    exact selectSame_iff.mp hsame
  · intro hclash
    have hsame : ∀ selector, requested = some selector →
        SelectSame devices (some selector) :=
      fun selector hrequested => selectSame_iff.mpr (hclash selector hrequested)
    refine ⟨?_, marksDefault_of_selectSame hsame⟩
    cases requested with
    | none => exact selectSame_none
    | some selector => exact hsame selector rfl

end Agreement

/-- Two devices, one of them named like the start of the other's id. -/
def namesakes : DeviceMap where
  entries := [
    (.replicate 16 0xAB, ⟨"phone".toList, "10.0.0.1:1".toList, .inbound, .secure, 0, 0x0102⟩),
    (.replicate 16 0x11, ⟨"abab".toList, "10.0.0.2:1".toList, .inbound, .secure, 0, 0x0102⟩)]
  nodup := by decide

/-- The server takes the first device, the client finds the selector ambiguous. -/
theorem not_selectSame_namesakes :
    resolveDevice namesakes (some "abab".toList) = .ok (.replicate 16 0xAB,
        ⟨"phone".toList, "10.0.0.1:1".toList, .inbound, .secure, 0, 0x0102⟩) ∧
      ¬ SelectSame namesakes (some "abab".toList) := by
  have hclash : Clashes namesakes "abab".toList := by
    refine ⟨_, List.mem_cons_self, by decide, ?_, _,
      List.mem_cons_of_mem _ List.mem_cons_self, by decide, by decide⟩
    decide
  exact ⟨by rfl, fun h => selectSame_iff.mp h hclash⟩

/-- The text in any letter case, with dashes inserted anywhere. -/
inductive Spells : Text → Text → Prop
  | nil : Spells [] []
  | dash {selector text : Text} : Spells selector text → Spells ('-' :: selector) text
  | letter {c : Char} {selector text : Text} :
      c ≠ '-' → Spells selector text → Spells (c :: selector) (c.toLower :: text)

/-- The selector is a prefix of at least four hexadecimal digits of the id. -/
structure IsIdPrefix (selector : Text) (id : DeviceId) : Prop where
  long : 4 ≤ (compact selector).length
  hex : ∀ c ∈ compact selector, isAsciiHexdigit c = true
  start : compact selector <+: DeviceId.toHex id

section Ids

variable {devices : DeviceMap} {entry : DeviceId × DeviceSession} {selector text : Text}

theorem Spells.compact_eq (h : Spells selector text) : compact selector = text := by
  induction h with
  | nil => rfl
  | dash _ ih =>
      rw [compact, List.filter_cons_of_neg (by simp)]
      exact ih
  | letter hdash _ ih =>
      rw [compact, List.filter_cons_of_pos (by simp [hdash])]
      exact congrArg (_ :: ·) ih

theorem digitChar_ne_dash : ∀ n < 16, Nat.digitChar n ≠ '-' := by
  decide

theorem spells_toHex (id : DeviceId) : Spells (DeviceId.toHex id) (DeviceId.toHex id) := by
  have hdigits : ∀ bytes : ByteString.Bytes,
      Spells (ByteString.hexText bytes) (ByteString.hexText bytes) := by
    intro bytes
    induction bytes with
    | nil => exact .nil
    | cons byte bytes ih =>
        have hlt := byte.toNat_lt
        have hhigh : byte.toNat / 16 < 16 := by omega
        have hlow : byte.toNat % 16 < 16 := by omega
        have hspells := Spells.letter (digitChar_ne_dash _ hhigh)
          (.letter (digitChar_ne_dash _ hlow) ih)
        rwa [ByteString.toLower_digitChar _ hhigh, ByteString.toLower_digitChar _ hlow]
          at hspells
  exact hdigits id.toList

theorem selectorMatchesId_iff {id : DeviceId} :
    selectorMatchesId id selector = true ↔ IsIdPrefix selector id := by
  have hmatches : selectorMatchesId id selector =
      (selectorIsIdPrefix selector && (compact selector).isPrefixOf (DeviceId.toHex id)) := by
    rw [selectorMatchesId]
    cases selectorIsIdPrefix selector <;> rfl
  rw [hmatches, selectorIsIdPrefix]
  simp only [Bool.and_eq_true, decide_eq_true_eq, List.all_eq_true, List.isPrefixOf_iff_prefix]
  constructor
  · rintro ⟨⟨hlong, hhex⟩, hstart⟩
    exact ⟨hlong, hhex, hstart⟩
  · rintro ⟨hlong, hhex, hstart⟩
    exact ⟨⟨hlong, hhex⟩, hstart⟩

theorem isIdPrefix_iff_of_compact_eq {id other : DeviceId}
    (h : compact selector = DeviceId.toHex id) : IsIdPrefix selector other ↔ other = id := by
  constructor
  · rintro ⟨-, -, hstart⟩
    rw [h] at hstart
    have hlen : (DeviceId.toHex id).length = (DeviceId.toHex other).length := by
      rw [DeviceId.length_toHex, DeviceId.length_toHex]
    exact (DeviceId.toHex_inj (hstart.eq_of_length hlen)).symm
  · rintro rfl
    refine ⟨?_, ?_, h ▸ List.prefix_refl (compact selector)⟩
    · rw [h, DeviceId.length_toHex]
      decide
    · rw [h]
      exact fun c hc => (hexText_hexdigits _ c hc).1

theorem resolveDevice_of_compact_eq (hentry : entry ∈ devices.entries)
    (h : compact selector = DeviceId.toHex entry.1) :
    resolveDevice devices (some selector) = .ok entry := by
  refine resolveDevice_eq_ok_iff.mpr (.inl ⟨hentry, ?_, ?_⟩)
  · exact selectorMatchesId_iff.mpr ((isIdPrefix_iff_of_compact_eq h).mpr rfl)
  · intro other hother hmatch
    have hid := (isIdPrefix_iff_of_compact_eq h).mp (selectorMatchesId_iff.mp hmatch)
    exact DeviceMap.entry_eq hother hentry hid

/-- `run_exec_all` reaches each device of the reported list by the id reported for it. -/
theorem resolveDevice_id {info : DeviceInfo} (hinfo : info ∈ listDevices devices) :
    ∃ entry ∈ devices.entries, deviceInfo entry = info ∧
      resolveDevice devices (some info.id) = .ok entry := by
  obtain ⟨entry, hentry, rfl⟩ := mem_listDevices.mp hinfo
  exact ⟨entry, hentry, rfl,
    resolveDevice_of_compact_eq hentry (spells_toHex entry.1).compact_eq⟩

/-- A whole id selects its device; and whatever a selector selects is the only device with
that prefix of its id or, where there is none, the only one of that name. -/
theorem resolveDevice_whole_id (devices : DeviceMap) :
    (∀ entry ∈ devices.entries, ∀ selector, Spells selector (DeviceId.toHex entry.1) →
        resolveDevice devices (some selector) = .ok entry) ∧
      ∀ selector entry, resolveDevice devices (some selector) = .ok entry →
        Sole devices.entries (fun entry => IsIdPrefix selector entry.1) entry ∨
          (∀ other ∈ devices.entries, ¬ IsIdPrefix selector other.1) ∧
            Sole devices.entries
              (fun entry => eqIgnoreAsciiCase entry.2.name selector = true) entry := by
  constructor
  · intro entry hentry selector hspells
    exact resolveDevice_of_compact_eq hentry hspells.compact_eq
  · intro selector entry h
    have hchoice := resolveDevice_eq_ok_iff.mp h
    simp only [selectorMatchesId_iff] at hchoice
    exact hchoice

/-- The second device goes by the name of the first one's id. -/
def impostor : DeviceMap where
  entries := [
    (.replicate 16 0xAB, ⟨"phone".toList, "10.0.0.1:1".toList, .inbound, .secure, 0, 0x0102⟩),
    (.replicate 16 0x11, ⟨"abababababababababababababababab".toList, "10.0.0.2:1".toList,
      .inbound, .secure, 0, 0x0102⟩)]
  nodup := by decide

theorem resolveDevice_whole_id_impostor :
    resolveDevice impostor (some (DeviceId.toHex (.replicate 16 0xAB))) =
      .ok (.replicate 16 0xAB,
        ⟨"phone".toList, "10.0.0.1:1".toList, .inbound, .secure, 0, 0x0102⟩) :=
  (resolveDevice_whole_id impostor).1 _ List.mem_cons_self _ (spells_toHex _)

end Ids

end SideWire.DeviceSelection
