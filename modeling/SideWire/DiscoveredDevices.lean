import Mathlib.Algebra.GroupWithZero.Nat
import SideWire.DeviceRegistry
import SideWire.Discovery

/-!
`discovered_device_manager` and the `discovered_device_connector`s that it starts, beside
everything else that goes on around the map of devices.
-/

namespace SideWire.DiscoveredDevices

open SideWire.TransitionSystem
open SideWire.TaskPool
open SideWire.ByteString
open SideWire.FrameCodec
open SideWire.PairingStore (Text DeviceId)
open SideWire.Security (SecurityMode)
open SideWire.DeviceRegistry (Session)
open SideWire.Discovery

/-- What the server runs with. The last field is the decoder of the replies. -/
structure Server where
  build : Build
  security : SecurityMode
  decode : Bytes → Option DiscoveryReply

/-- Neither of the two checks of the manager ignores the device. -/
def Server.accepts (server : Server) (device : DiscoveredDevice) : Bool :=
  server.build.protocolCompatible device.protocolVersion &&
    decide (device.security = server.security)

/-- Where a connector stands: in its loop, or in `connect_endpoint_once`. -/
inductive Phase
  | looking
  | resting
  | fetching
  | idling
  | dialing (endpoint : Text)
  | greeting (endpoint : Text)
  | registering (session : Session)
  | serving (session : Session)
  | pausing
  deriving DecidableEq

/-- The endpoint that the connector connects to. -/
def Phase.endpoint : Phase → Option Text
  | .dialing endpoint | .greeting endpoint => some endpoint
  | _ => none

/-- The session that the connector has made and whose end it waits for. -/
def Phase.session : Phase → Option Session
  | .registering session | .serving session => some session
  | _ => none

/-- A `discovered_device_connector`. `pauses` counts those since `delay` was last set to one. -/
structure Connector where
  deviceId : DeviceId
  delay : Nat
  pauses : Nat
  phase : Phase
  deriving DecidableEq

def Connector.new (deviceId : DeviceId) : Connector := ⟨deviceId, 1, 0, .looking⟩

inductive Manager
  | discovering
  | handling (found : List DiscoveredDevice)
  | starting (device : DiscoveredDevice) (found : List DiscoveredDevice)
  | sleeping
  deriving DecidableEq

/-- `heard` holds the datagrams of all discoveries, `opened` the sessions of all connectors. -/
structure State where
  registry : DeviceRegistry.State
  endpoints : DeviceId → Option Text
  manager : Manager
  started : List DeviceId
  connectors : List Connector
  heard : List Datagram
  opened : List Session

def State.initial (registry : DeviceRegistry.State) : State where
  registry := registry
  endpoints := fun _ => none
  manager := .discovering
  started := []
  connectors := []
  heard := []
  opened := []

/-- The map has an open session for the device. -/
def State.Connected (s : State) (id : DeviceId) : Prop :=
  ∃ session, s.registry.devices id = some session ∧ s.registry.closed session.transport = false

inductive Action
  | manager
  | connector (id : DeviceId)
  | other
  deriving DecidableEq

inductive Step (server : Server) : State → Action → State → Prop
  -- everything else around the map: other sessions, monitors, connections that end
  | registry {s : State} {action : DeviceRegistry.Action} {registry : DeviceRegistry.State}
      (hown : ∀ session, action = .register session →
        ∀ other ∈ s.opened, other.transport ≠ session.transport)
      (hregistry : DeviceRegistry.Step s.registry action registry) :
      Step server s .other { s with registry := registry }
  -- the manager
  | discover {s : State} {socket : Socket}
      {values : List DiscoveredDevice → List DiscoveredDevice}
      {receptions : List Reception} {found : List DiscoveredDevice}
      (hmanager : s.manager = .discovering) (hvalues : ∀ found, (values found).Perm found)
      (hfound : discoverAll server.decode socket values receptions = .ok found) :
      Step server s .manager { s with
        manager := .handling found, heard := s.heard ++ datagrams receptions }
  | discoverFails {s : State} (hmanager : s.manager = .discovering) :
      Step server s .manager { s with manager := .sleeping }
  | ignore {s : State} {device : DiscoveredDevice} {found : List DiscoveredDevice}
      (hmanager : s.manager = .handling (device :: found))
      (haccepts : server.accepts device = false) :
      Step server s .manager { s with manager := .handling found }
  | insert {s : State} {device : DiscoveredDevice} {found : List DiscoveredDevice}
      (hmanager : s.manager = .handling (device :: found))
      (haccepts : server.accepts device = true) :
      Step server s .manager { s with
        manager := .starting device found
        endpoints := Function.update s.endpoints device.deviceId (some device.endpoint) }
  | start {s : State} {device : DiscoveredDevice} {found : List DiscoveredDevice}
      (hmanager : s.manager = .starting device found) (hnew : device.deviceId ∉ s.started) :
      Step server s .manager { s with
        manager := .handling found
        started := device.deviceId :: s.started
        connectors := s.connectors ++ [.new device.deviceId] }
  | known {s : State} {device : DiscoveredDevice} {found : List DiscoveredDevice}
      (hmanager : s.manager = .starting device found) (hknown : device.deviceId ∈ s.started) :
      Step server s .manager { s with manager := .handling found }
  | handled {s : State} (hmanager : s.manager = .handling []) :
      Step server s .manager { s with manager := .sleeping }
  | wake {s : State} (hmanager : s.manager = .sleeping) :
      Step server s .manager { s with manager := .discovering }
  -- the loop of a connector
  | lookConnected {s : State} {c : Connector} {connectors : List Connector}
      (hphase : c.phase = .looking) (hconnected : s.Connected c.deviceId)
      (hc : Replaces c { c with phase := .resting } s.connectors connectors) :
      Step server s (.connector c.deviceId) { s with connectors := connectors }
  | rest {s : State} {c : Connector} {connectors : List Connector}
      (hphase : c.phase = .resting)
      (hc : Replaces c { c with phase := .looking, delay := 1, pauses := 0 }
        s.connectors connectors) :
      Step server s (.connector c.deviceId) { s with connectors := connectors }
  | lookMissing {s : State} {c : Connector} {connectors : List Connector}
      (hphase : c.phase = .looking) (hmissing : ¬ s.Connected c.deviceId)
      (hc : Replaces c { c with phase := .fetching } s.connectors connectors) :
      Step server s (.connector c.deviceId) { s with connectors := connectors }
  | fetchNone {s : State} {c : Connector} {connectors : List Connector}
      (hphase : c.phase = .fetching) (hnone : s.endpoints c.deviceId = none)
      (hc : Replaces c { c with phase := .idling } s.connectors connectors) :
      Step server s (.connector c.deviceId) { s with connectors := connectors }
  | idle {s : State} {c : Connector} {connectors : List Connector}
      (hphase : c.phase = .idling)
      (hc : Replaces c { c with phase := .looking } s.connectors connectors) :
      Step server s (.connector c.deviceId) { s with connectors := connectors }
  | fetch {s : State} {c : Connector} {endpoint : Text} {connectors : List Connector}
      (hphase : c.phase = .fetching) (hendpoint : s.endpoints c.deviceId = some endpoint)
      (hc : Replaces c { c with phase := .dialing endpoint } s.connectors connectors) :
      Step server s (.connector c.deviceId) { s with connectors := connectors }
  -- `connect_endpoint_once`
  | connect {s : State} {c : Connector} {endpoint : Text} {connectors : List Connector}
      (hphase : c.phase = .dialing endpoint)
      (hc : Replaces c { c with phase := .greeting endpoint } s.connectors connectors) :
      Step server s (.connector c.deviceId) { s with connectors := connectors }
  | connectFails {s : State} {c : Connector} {endpoint : Text} {connectors : List Connector}
      (hphase : c.phase = .dialing endpoint)
      (hc : Replaces c { c with phase := .pausing } s.connectors connectors) :
      Step server s (.connector c.deviceId) { s with connectors := connectors }
  | handshakeFails {s : State} {c : Connector} {endpoint : Text} {connectors : List Connector}
      (hphase : c.phase = .greeting endpoint)
      (hc : Replaces c { c with phase := .pausing } s.connectors connectors) :
      Step server s (.connector c.deviceId) { s with connectors := connectors }
  | identityChanged {s : State} {c : Connector} {endpoint : Text} {identity : DeviceId}
      {connectors : List Connector} (hphase : c.phase = .greeting endpoint)
      (hidentity : identity ≠ c.deviceId)
      (hc : Replaces c { c with phase := .pausing } s.connectors connectors) :
      Step server s (.connector c.deviceId) { s with connectors := connectors }
  -- `DeviceTransport::new`: nobody else has the new transport
  | greet {s : State} {c : Connector} {endpoint : Text} {session : Session}
      {connectors : List Connector} (hphase : c.phase = .greeting endpoint)
      (hidentity : session.id = c.deviceId)
      (hregistered : ∀ other ∈ s.registry.registered, other.transport ≠ session.transport)
      (hopened : ∀ other ∈ s.opened, other.transport ≠ session.transport)
      (hc : Replaces c { c with phase := .registering session } s.connectors connectors) :
      Step server s (.connector c.deviceId) { s with
        connectors := connectors, opened := session :: s.opened }
  | register {s : State} {c : Connector} {session : Session} {registry : DeviceRegistry.State}
      {connectors : List Connector} (hphase : c.phase = .registering session)
      (hregister : DeviceRegistry.Step s.registry (.register session) registry)
      (hc : Replaces c { c with phase := .serving session } s.connectors connectors) :
      Step server s (.connector c.deviceId) { s with
        registry := registry, connectors := connectors }
  | served {s : State} {c : Connector} {session : Session} {connectors : List Connector}
      (hphase : c.phase = .serving session)
      (hclosed : s.registry.closed session.transport = true)
      (hc : Replaces c { c with phase := .pausing, delay := 1, pauses := 0 }
        s.connectors connectors) :
      Step server s (.connector c.deviceId) { s with connectors := connectors }
  | pause {s : State} {c : Connector} {connectors : List Connector}
      (hphase : c.phase = .pausing)
      (hc : Replaces c { c with
        phase := .looking, delay := min (c.delay * 2) 10, pauses := c.pauses + 1 }
        s.connectors connectors) :
      Step server s (.connector c.deviceId) { s with connectors := connectors }

def system (server : Server) : System State Action where
  init := fun s => ∃ closed, s = .initial (.initial closed)
  step := Step server

/-- A datagram has told of the device. -/
def Told (server : Server) (heard : List Datagram) (device : DiscoveredDevice) : Prop :=
  ∃ datagram ∈ heard, datagram.device server.decode = some device

/-- The endpoint is that of a device with this id that the server accepts. -/
def Reported (server : Server) (heard : List Datagram) (id : DeviceId) (endpoint : Text) : Prop :=
  ∃ device, Told server heard device ∧ server.accepts device = true ∧ device.deviceId = id ∧
    device.endpoint = endpoint

/-- What is never taken back. -/
structure Extends (s t : State) : Prop where
  endpoints : ∀ id, (s.endpoints id).isSome = true → (t.endpoints id).isSome = true
  heard : ∀ datagram ∈ s.heard, datagram ∈ t.heard
  opened : ∀ session ∈ s.opened, session ∈ t.opened
  registered : ∀ session ∈ s.registry.registered, session ∈ t.registry.registered
  closed : ∀ transport, s.registry.closed transport = true →
    t.registry.closed transport = true

structure Connector.Proper (server : Server) (s : State) (c : Connector) : Prop where
  supplied : (s.endpoints c.deviceId).isSome = true
  delay : c.delay = min (2 ^ c.pauses) 10
  busy : c.phase ≠ .idling
  dials : ∀ endpoint, c.phase.endpoint = some endpoint →
    Reported server s.heard c.deviceId endpoint
  made : ∀ session, c.phase.session = some session →
    session.id = c.deviceId ∧ session ∈ s.opened
  served : ∀ session, c.phase = .serving session → session ∈ s.registry.registered

def Manager.Proper (server : Server) (s : State) : Manager → Prop
  | .handling found => ∀ device ∈ found, Told server s.heard device
  | .starting device found =>
      (s.endpoints device.deviceId).isSome = true ∧ ∀ device ∈ found, Told server s.heard device
  | .discovering | .sleeping => True

/-- One connector for each device that has been started, and no open session of a connector
that it does not wait for. -/
structure Inv (server : Server) (s : State) : Prop where
  manager : s.manager.Proper server s
  endpoints : ∀ id endpoint, s.endpoints id = some endpoint →
    Reported server s.heard id endpoint
  unique : (s.connectors.map Connector.deviceId).Nodup
  started : ∀ id, id ∈ s.connectors.map Connector.deviceId ↔ id ∈ s.started
  proper : ∀ c ∈ s.connectors, c.Proper server s
  transports : ∀ a ∈ s.opened, ∀ b ∈ s.opened, a.transport = b.transport → a = b
  own : ∀ session ∈ s.opened, ∀ other ∈ s.registry.registered,
    other.transport = session.transport → other = session
  held : ∀ session ∈ s.opened, s.registry.closed session.transport = true ∨
    ∃ c ∈ s.connectors, c.phase.session = some session

theorem Told.mono {server : Server} {heard heard' : List Datagram} {device : DiscoveredDevice}
    (hheard : ∀ datagram ∈ heard, datagram ∈ heard') (h : Told server heard device) :
    Told server heard' device := by
  obtain ⟨datagram, hmem, htold⟩ := h
  exact ⟨datagram, hheard _ hmem, htold⟩

theorem Reported.mono {server : Server} {heard heard' : List Datagram} {id : DeviceId}
    {endpoint : Text} (hheard : ∀ datagram ∈ heard, datagram ∈ heard')
    (h : Reported server heard id endpoint) : Reported server heard' id endpoint := by
  obtain ⟨device, htold, hdevice⟩ := h
  exact ⟨device, htold.mono hheard, hdevice⟩

section Invariant

variable {server : Server} {s t : State}

theorem Connector.Proper.mono (hext : Extends s t) {c : Connector} (h : c.Proper server s) :
    c.Proper server t where
  supplied := hext.endpoints _ h.supplied
  delay := h.delay
  busy := h.busy
  dials endpoint he := (h.dials endpoint he).mono hext.heard
  made session hs := ⟨(h.made session hs).1, hext.opened _ (h.made session hs).2⟩
  served session hs := hext.registered _ (h.served session hs)

theorem Manager.Proper.mono (hext : Extends s t) {manager : Manager}
    (h : manager.Proper server s) : manager.Proper server t := by
  cases manager with
  | handling found => exact fun device hmem => (h device hmem).mono hext.heard
  | starting device found =>
      exact ⟨hext.endpoints _ h.1, fun device hmem => (h.2 device hmem).mono hext.heard⟩
  | discovering | sleeping => trivial

theorem Extends.of_eq (hendpoints : t.endpoints = s.endpoints) (hheard : t.heard = s.heard)
    (hopened : t.opened = s.opened) (hregistry : t.registry = s.registry) : Extends s t where
  endpoints _ h := by rwa [hendpoints]
  heard _ h := by rwa [hheard]
  opened _ h := by rwa [hopened]
  registered _ h := by rwa [hregistry]
  closed _ h := by rwa [hregistry]

theorem Connector.Proper.congr {c : Connector} (h : c.Proper server s)
    (hendpoints : t.endpoints = s.endpoints) (hheard : t.heard = s.heard)
    (hopened : t.opened = s.opened) (hregistry : t.registry = s.registry) :
    c.Proper server t :=
  h.mono (.of_eq hendpoints hheard hopened hregistry)

theorem Inv.initial (registry : DeviceRegistry.State) : Inv server (.initial registry) where
  manager := trivial
  endpoints _ _ h := nomatch h
  unique := List.nodup_nil
  started _ := .rfl
  proper := List.forall_mem_nil _
  transports := List.forall_mem_nil _
  own := List.forall_mem_nil _
  held := List.forall_mem_nil _

theorem Inv.manage (h : Inv server s) {manager : Manager} (hmanager : manager.Proper server s) :
    Inv server { s with manager := manager } where
  manager := hmanager.mono (.of_eq rfl rfl rfl rfl)
  endpoints := h.endpoints
  unique := h.unique
  started := h.started
  proper c hc := (h.proper c hc).congr rfl rfl rfl rfl
  transports := h.transports
  own := h.own
  held := h.held

theorem Inv.discover (h : Inv server s) {socket : Socket}
    {values : List DiscoveredDevice → List DiscoveredDevice} {receptions : List Reception}
    {found : List DiscoveredDevice}
    (hvalues : ∀ found, (values found).Perm found)
    (hfound : discoverAll server.decode socket values receptions = .ok found) :
    Inv server { s with
      manager := .handling found, heard := s.heard ++ datagrams receptions } := by
  have hheard : ∀ datagram ∈ s.heard, datagram ∈ s.heard ++ datagrams receptions :=
    fun _ => List.mem_append_left _
  have hext : Extends s { s with
      manager := .handling found, heard := s.heard ++ datagrams receptions } :=
    { Extends.of_eq (s := s) (t := s) rfl rfl rfl rfl with heard := hheard }
  refine { h with
    manager := ?_
    endpoints := fun id endpoint he => (h.endpoints id endpoint he).mono hheard
    proper := fun c hc => (h.proper c hc).mono hext }
  intro device hmem
  obtain ⟨datagram, hdatagram, htold⟩ := told_of_discoverAll hvalues hfound hmem
  exact ⟨datagram, List.mem_append_right _ hdatagram, htold⟩

theorem Inv.insert (h : Inv server s) {device : DiscoveredDevice}
    {found : List DiscoveredDevice} (hmanager : s.manager = .handling (device :: found))
    (haccepts : server.accepts device = true) :
    Inv server { s with
      manager := .starting device found
      endpoints := Function.update s.endpoints device.deviceId (some device.endpoint) } := by
  have hhandled := h.manager
  rw [hmanager, Manager.Proper, List.forall_mem_cons] at hhandled
  obtain ⟨htold, hrest⟩ := hhandled
  have hext : Extends s { s with
      manager := .starting device found
      endpoints := Function.update s.endpoints device.deviceId (some device.endpoint) } := by
    refine { Extends.of_eq (s := s) (t := s) rfl rfl rfl rfl with endpoints := ?_ }
    intro id hsome
    rcases eq_or_ne id device.deviceId with rfl | hne
    · simp
    · simpa [Function.update_of_ne hne] using hsome
  refine { h with
    manager := ⟨by simp, hrest⟩
    endpoints := ?_
    proper := fun c hc => (h.proper c hc).mono hext }
  intro id endpoint hendpoint
  rcases eq_or_ne id device.deviceId with rfl | hne
  · simp only [Function.update_self, Option.some.injEq] at hendpoint
    exact ⟨device, htold, haccepts, rfl, hendpoint⟩
  · simp only [Function.update_of_ne hne] at hendpoint
    exact h.endpoints id endpoint hendpoint

theorem Inv.start (h : Inv server s) {device : DiscoveredDevice}
    {found : List DiscoveredDevice} (hmanager : s.manager = .starting device found)
    (hnew : device.deviceId ∉ s.started) :
    Inv server { s with
      manager := .handling found
      started := device.deviceId :: s.started
      connectors := s.connectors ++ [.new device.deviceId] } := by
  have hstarting := h.manager
  rw [hmanager, Manager.Proper] at hstarting
  obtain ⟨hsupplied, hrest⟩ := hstarting
  have hfresh : device.deviceId ∉ s.connectors.map Connector.deviceId :=
    fun hmem => hnew ((h.started _).mp hmem)
  refine { h with
    manager := hrest, unique := ?_, started := ?_, proper := ?_, held := ?_ }
  · rw [List.map_append, List.nodup_append]
    refine ⟨h.unique, List.nodup_singleton _, ?_⟩
    rintro id hid _ hmem rfl
    obtain rfl := List.mem_singleton.mp hmem
    exact hfresh hid
  · intro id
    rw [List.map_append, List.mem_append, h.started, List.mem_cons, or_comm]
    exact or_congr_left List.mem_singleton
  · simp only [List.forall_mem_append, List.forall_mem_singleton]
    refine ⟨fun c hc => (h.proper c hc).congr rfl rfl rfl rfl, ?_⟩
    exact ⟨hsupplied, rfl, nofun, nofun, nofun, nofun⟩
  · exact fun session hmem => (h.held session hmem).imp_right exists_mem_append

theorem Inv.registry (h : Inv server s) {action : DeviceRegistry.Action}
    {registry : DeviceRegistry.State}
    (hown : ∀ session, action = .register session → ∀ other ∈ s.opened,
      other.transport = session.transport → other = session)
    (hregistry : DeviceRegistry.Step s.registry action registry) :
    Inv server { s with registry := registry } := by
  obtain ⟨hregistered, hclosed⟩ := hregistry.mono
  have hext : Extends s { s with registry := registry } :=
    ⟨fun _ => id, fun _ => id, fun _ => id, hregistered, hclosed⟩
  refine { h with
    manager := h.manager.mono hext
    proper := fun c hc => (h.proper c hc).mono hext
    own := ?_
    held := fun session hmem => (h.held session hmem).imp_left (hclosed _) }
  intro session hmem
  have hbefore := h.own session hmem
  cases hregistry with
  | @register new _ =>
      simp only [List.forall_mem_cons]
      exact ⟨fun heq => (hown new rfl session hmem heq.symm).symm, hbefore⟩
  | remove =>
      simp only [DeviceRegistry.State.registered_removeDeviceIfSame]
      exact hbefore
  | _ => exact hbefore

theorem Inv.move (h : Inv server s) {c c' : Connector} {connectors : List Connector}
    (hc : Replaces c c' s.connectors connectors) (hid : c'.deviceId = c.deviceId)
    (hproper : c'.Proper server s)
    (hsession : ∀ session, c.phase.session = some session →
      c'.phase.session = some session ∨ s.registry.closed session.transport = true) :
    Inv server { s with connectors := connectors } := by
  have hids := hc.map_eq Connector.deviceId hid
  refine { h with
    manager := h.manager.mono (.of_eq rfl rfl rfl rfl)
    unique := hids ▸ h.unique
    started := hids ▸ h.started
    proper := ?_
    held := ?_ }
  · exact hc.forall_mem (fun other hmem => (h.proper other hmem).congr rfl rfl rfl rfl)
      (hproper.congr rfl rfl rfl rfl)
  · intro session hmem
    by_cases hclosed : s.registry.closed session.transport = true
    · exact .inl hclosed
    · refine .inr (hc.exists_mem ((h.held session hmem).resolve_left hclosed) ?_)
      exact fun hwaits => (hsession session hwaits).resolve_right hclosed

theorem Inv.move_none (h : Inv server s) {c c' : Connector} {connectors : List Connector}
    (hc : Replaces c c' s.connectors connectors) (hid : c'.deviceId = c.deviceId)
    (hnone : c.phase.session = none) (hnone' : c'.phase.session = none)
    (hdelay : c'.delay = min (2 ^ c'.pauses) 10) (hbusy : c'.phase ≠ .idling)
    (hdials : ∀ endpoint, c'.phase.endpoint = some endpoint →
      Reported server s.heard c.deviceId endpoint) :
    Inv server { s with connectors := connectors } := by
  have hproper := h.proper c hc.mem
  refine h.move hc hid ?_ fun session hs => nomatch hnone.symm.trans hs
  refine ⟨hid ▸ hproper.supplied, hdelay, hbusy, hid ▸ hdials,
    fun session hs => (nomatch hnone'.symm.trans hs), fun session hs => ?_⟩
  rw [hs] at hnone'
  exact nomatch hnone'

theorem Inv.greet (h : Inv server s) {c : Connector} {endpoint : Text} {session : Session}
    {connectors : List Connector} (hphase : c.phase = .greeting endpoint)
    (hidentity : session.id = c.deviceId)
    (hregistered : ∀ other ∈ s.registry.registered, other.transport ≠ session.transport)
    (hopened : ∀ other ∈ s.opened, other.transport ≠ session.transport)
    (hc : Replaces c { c with phase := .registering session } s.connectors connectors) :
    Inv server { s with connectors := connectors, opened := session :: s.opened } := by
  have hids := hc.map_eq Connector.deviceId rfl
  have hold := h.proper c hc.mem
  have hext : Extends s { s with connectors := connectors, opened := session :: s.opened } :=
    { Extends.of_eq (s := s) (t := s) rfl rfl rfl rfl with
      opened := fun _ => List.mem_cons_of_mem _ }
  refine { h with
    manager := h.manager.mono hext
    unique := hids ▸ h.unique
    started := hids ▸ h.started
    proper := hc.forall_mem (fun other hmem => (h.proper other hmem).mono hext) ?_
    transports := ?_
    own := ?_
    held := ?_ }
  · refine ⟨hold.supplied, hold.delay, nofun, nofun, ?_, nofun⟩
    rintro _ ⟨⟩
    exact ⟨hidentity, List.mem_cons_self⟩
  · simp only [List.forall_mem_cons]
    refine ⟨⟨fun _ => trivial, fun b hb heq => absurd heq.symm (hopened b hb)⟩, ?_⟩
    exact fun a ha => ⟨fun heq => absurd heq (hopened a ha), h.transports a ha⟩
  · simp only [List.forall_mem_cons]
    exact ⟨fun other hmem heq => absurd heq (hregistered other hmem), h.own⟩
  · simp only [List.forall_mem_cons]
    refine ⟨.inr ⟨_, hc.mem_new, rfl⟩, ?_⟩
    refine fun other hmem => (h.held other hmem).imp_right fun hwaits => hc.exists_mem hwaits ?_
    intro hsome
    rw [hphase] at hsome
    exact nomatch hsome

theorem Inv.register (h : Inv server s) {c : Connector} {session : Session}
    {registry : DeviceRegistry.State} {connectors : List Connector}
    (hphase : c.phase = .registering session)
    (hregister : DeviceRegistry.Step s.registry (.register session) registry)
    (hc : Replaces c { c with phase := .serving session } s.connectors connectors) :
    Inv server { s with registry := registry, connectors := connectors } := by
  obtain ⟨hid, hmade⟩ := (h.proper c hc.mem).made session (by rw [hphase]; rfl)
  have hregistry : Inv server { s with registry := registry } := by
    refine h.registry ?_ hregister
    rintro _ ⟨⟩ other hmem heq
    exact h.transports other hmem session hmade heq
  have hold := hregistry.proper c hc.mem
  refine hregistry.move hc rfl ⟨hold.supplied, hold.delay, nofun, nofun, ?_, ?_⟩ ?_
  · rintro _ ⟨⟩
    exact ⟨hid, hmade⟩
  · rintro _ ⟨⟩
    cases hregister with
    | register => exact List.mem_cons_self
  · rw [hphase]
    rintro _ ⟨⟩
    exact .inl rfl

theorem min_pow_succ (n : Nat) : min (min (2 ^ n) 10 * 2) 10 = min (2 ^ (n + 1)) 10 := by
  rw [pow_succ]
  omega

theorem Inv.step (h : Inv server s) {action : Action} (hstep : Step server s action t) :
    Inv server t := by
  cases hstep with
  | registry hown hregistry =>
      refine h.registry (fun session haction other hmem heq => ?_) hregistry
      exact absurd heq (hown session haction other hmem)
  | discover _ hvalues hfound => exact h.discover hvalues hfound
  | discoverFails | handled _ | wake _ => exact h.manage trivial
  | ignore hmanager _ =>
      refine h.manage fun device hmem => ?_
      have hhandled := h.manager
      rw [hmanager] at hhandled
      exact hhandled device (List.mem_cons_of_mem _ hmem)
  | insert hmanager haccepts => exact h.insert hmanager haccepts
  | start hmanager hnew => exact h.start hmanager hnew
  | known hmanager _ =>
      have hstarting := h.manager
      rw [hmanager] at hstarting
      exact h.manage hstarting.2
  | lookConnected hphase _ hc | lookMissing hphase _ hc =>
      exact h.move_none hc rfl (by rw [hphase]; rfl) rfl (h.proper _ hc.mem).delay nofun nofun
  | rest hphase hc =>
      exact h.move_none hc rfl (by rw [hphase]; rfl) rfl rfl nofun nofun
  | fetchNone _ hnone hc =>
      have hsupplied := (h.proper _ hc.mem).supplied
      rw [hnone] at hsupplied
      exact nomatch hsupplied
  | idle hphase hc => exact absurd hphase (h.proper _ hc.mem).busy
  | fetch hphase hendpoint hc =>
      refine h.move_none hc rfl (by rw [hphase]; rfl) rfl (h.proper _ hc.mem).delay nofun ?_
      rintro _ ⟨⟩
      exact h.endpoints _ _ hendpoint
  | connect hphase hc =>
      refine h.move_none hc rfl (by rw [hphase]; rfl) rfl (h.proper _ hc.mem).delay nofun ?_
      rintro _ ⟨⟩
      exact (h.proper _ hc.mem).dials _ (by rw [hphase]; rfl)
  | connectFails hphase hc | handshakeFails hphase hc | identityChanged hphase _ hc =>
      exact h.move_none hc rfl (by rw [hphase]; rfl) rfl (h.proper _ hc.mem).delay nofun nofun
  | greet hphase hidentity hregistered hopened hc =>
      exact h.greet hphase hidentity hregistered hopened hc
  | register hphase hregister hc => exact h.register hphase hregister hc
  | served hphase hclosed hc =>
      have hold := h.proper _ hc.mem
      refine h.move hc rfl ⟨hold.supplied, rfl, nofun, nofun, nofun, nofun⟩ ?_
      rw [hphase]
      rintro _ ⟨⟩
      exact .inr hclosed
  | pause hphase hc =>
      refine h.move_none hc rfl (by rw [hphase]; rfl) rfl ?_ nofun nofun
      simp only [(h.proper _ hc.mem).delay]
      exact min_pow_succ _

theorem inv_of_reachable (h : (system server).Reachable s) : Inv server s := by
  refine h.invariant ?_ fun _ _ _ hinv hstep => hinv.step hstep
  rintro _ ⟨closed, rfl⟩
  exact .initial _

theorem registry_inv_of_reachable (h : (system server).Reachable s) :
    DeviceRegistry.Inv s.registry := by
  refine System.Reachable.invariant (P := fun s => DeviceRegistry.Inv s.registry) ?_ ?_ h
  · rintro _ ⟨closed, rfl⟩
    exact .initial closed
  · intro s _ t hinv hstep
    cases hstep with
    | registry _ hregistry => exact hinv.step hregistry
    | register _ hregister _ => exact hinv.step hregister
    | _ => exact hinv

end Invariant

/-- A device has one connector at most. It connects only to endpoints that devices with its id,
a compatible protocol and the security of the server have reported, makes sessions with its id
only, and waits for `min (2 ^ n) 10` seconds after `n` pauses in a row. Of the sessions that
connectors have made for a device one at most is open, and once nothing is pending around the
map, that one is its session if it has been registered. -/
theorem connectors_sound {server : Server} {s : State} (h : (system server).Reachable s) :
    (s.connectors.map Connector.deviceId).Nodup ∧
      (∀ c ∈ s.connectors,
        (∀ endpoint, c.phase.endpoint = some endpoint →
          Reported server s.heard c.deviceId endpoint) ∧
        (∀ session, c.phase.session = some session → session.id = c.deviceId) ∧
        c.phase ≠ .idling ∧ c.delay = min (2 ^ c.pauses) 10) ∧
      (∀ a ∈ s.opened, ∀ b ∈ s.opened, a.id = b.id →
        s.registry.closed a.transport = false → s.registry.closed b.transport = false →
        a = b) ∧
      ∀ a ∈ s.opened, s.registry.closed a.transport = false → s.registry.Settled →
        a ∈ s.registry.registered → s.registry.devices a.id = some a := by
  have hinv := inv_of_reachable h
  refine ⟨hinv.unique, fun c hc => ?_, ?_, ?_⟩
  · have hproper := hinv.proper c hc
    exact ⟨hproper.dials, fun session hs => (hproper.made session hs).1, hproper.busy,
      hproper.delay⟩
  · intro a ha b hb hid hopen hopen'
    have hheld : ∀ session ∈ s.opened, s.registry.closed session.transport = false →
        ∃ c ∈ s.connectors, c.phase.session = some session ∧ session.id = c.deviceId := by
      intro session hmem hsession
      rcases hinv.held session hmem with hclosed | ⟨c, hc, hwaits⟩
      · exact nomatch hsession.symm.trans hclosed
      · exact ⟨c, hc, hwaits, ((hinv.proper c hc).made session hwaits).1⟩
    obtain ⟨c, hc, hwaits, hc'⟩ := hheld a ha hopen
    obtain ⟨d, hd, hwaits', hd'⟩ := hheld b hb hopen'
    obtain rfl : c = d := List.inj_on_of_nodup_map hinv.unique hc hd
      (hc'.symm.trans (hid.trans hd'))
    exact Option.some.inj (hwaits.symm.trans hwaits')
  · intro a _ hopen hsettled hregistered
    exact ((registry_inv_of_reachable h).devices_iff hsettled a).mpr ⟨hregistered, hopen⟩

section Progress

variable {server : Server} {s : State} {before after : List Connector} {c c' : Connector}
  {endpoint : Text}

/-- The connector is about to connect to the endpoint after steps of its own. -/
def Dials (server : Server) (s : State) (endpoint : Text) (before after : List Connector)
    (c : Connector) : Prop :=
  ∃ t c', (system server).LeadsBy (fun action => action = .connector c.deviceId)
      { s with connectors := before ++ c :: after } t ∧
    c' ∈ t.connectors ∧ c'.deviceId = c.deviceId ∧ c'.phase = .dialing endpoint

theorem Dials.of_step {t : State} (h : Dials server t endpoint before after c')
    (hstep : Step server { s with connectors := before ++ c :: after } (.connector c.deviceId)
      { t with connectors := before ++ c' :: after })
    (hid : c'.deviceId = c.deviceId) :
    Dials server s endpoint before after c := by
  obtain ⟨u, d, hrun, hmem, hd, hphase⟩ := h
  rw [hid] at hrun hd
  exact ⟨u, d, System.LeadsBy.head rfl hstep hrun, hmem, hd, hphase⟩

/-- The connector has no connection, and the server knows an endpoint. -/
structure Waits (s : State) (id : DeviceId) (endpoint : Text) : Prop where
  known : s.endpoints id = some endpoint
  entry : ∀ session, s.registry.devices id = some session →
    s.registry.closed session.transport = true

theorem Waits.not_connected {id : DeviceId} (h : Waits s id endpoint) : ¬ s.Connected id := by
  rintro ⟨session, hentry, hopen⟩
  exact nomatch hopen.symm.trans (h.entry session hentry)

theorem dials_of_fetching (h : Waits s c.deviceId endpoint) (hphase : c.phase = .fetching) :
    Dials server s endpoint before after c :=
  ⟨_, _, System.LeadsBy.head rfl (.fetch hphase h.known ⟨before, after, rfl, rfl⟩) .refl,
    List.mem_append_right _ List.mem_cons_self, rfl, rfl⟩

theorem dials_of_looking (h : Waits s c.deviceId endpoint) (hphase : c.phase = .looking) :
    Dials server s endpoint before after c := by
  have hnext : Dials server s endpoint before after { c with phase := .fetching } :=
    dials_of_fetching h rfl
  exact hnext.of_step (.lookMissing hphase h.not_connected ⟨before, after, rfl, rfl⟩) rfl

theorem dials_of_pausing (h : Waits s c.deviceId endpoint) (hphase : c.phase = .pausing) :
    Dials server s endpoint before after c := by
  have hnext : Dials server s endpoint before after { c with
      phase := .looking, delay := min (c.delay * 2) 10, pauses := c.pauses + 1 } :=
    dials_of_looking h rfl
  exact hnext.of_step (.pause hphase ⟨before, after, rfl, rfl⟩) rfl

theorem dials_of_serving (h : Waits s c.deviceId endpoint) {session : Session}
    (hphase : c.phase = .serving session)
    (hclosed : s.registry.closed session.transport = true) :
    Dials server s endpoint before after c := by
  have hnext : Dials server s endpoint before after { c with
      phase := .pausing, delay := 1, pauses := 0 } :=
    dials_of_pausing h rfl
  exact hnext.of_step (.served hphase hclosed ⟨before, after, rfl, rfl⟩) rfl

theorem dials_of_registering (h : Waits s c.deviceId endpoint) {session : Session}
    (hphase : c.phase = .registering session) (hid : session.id = c.deviceId)
    (hclosed : s.registry.closed session.transport = true)
    (hown : ∀ other ∈ s.registry.registered, other.transport = session.transport →
      other = session) :
    Dials server s endpoint before after c := by
  have hregister := DeviceRegistry.Step.register hown
  let t : State := { s with registry := { s.registry with
    devices := Function.update s.registry.devices session.id (some session)
    registered := session :: s.registry.registered
    tasks := s.registry.tasks ++ [.registering session (s.registry.devices session.id)] } }
  have hwaits : Waits t c.deviceId endpoint := by
    refine ⟨h.known, ?_⟩
    intro entry hentry
    simp only [t, hid, Function.update_self, Option.some.injEq] at hentry
    exact hentry ▸ hclosed
  have hnext : Dials server t endpoint before after { c with phase := .serving session } :=
    dials_of_serving hwaits rfl hclosed
  exact hnext.of_step (.register hphase hregister ⟨before, after, rfl, rfl⟩) rfl

/-- Wherever the connector is, it can get to the endpoint. -/
theorem Inv.dials (h : Inv server { s with connectors := before ++ c :: after })
    (hwaits : Waits s c.deviceId endpoint)
    (hopened : ∀ session ∈ s.opened, session.id = c.deviceId →
      s.registry.closed session.transport = true) :
    Dials server s endpoint before after c := by
  have hproper := h.proper c (List.mem_append_right _ List.mem_cons_self)
  cases hphase : c.phase with
  | looking => exact dials_of_looking hwaits hphase
  | fetching => exact dials_of_fetching hwaits hphase
  | pausing => exact dials_of_pausing hwaits hphase
  | idling => exact absurd hphase hproper.busy
  | resting =>
      have hnext : Dials server s endpoint before after { c with
          phase := .looking, delay := 1, pauses := 0 } :=
        dials_of_looking hwaits rfl
      exact hnext.of_step (.rest hphase ⟨before, after, rfl, rfl⟩) rfl
  | dialing =>
      have hnext : Dials server s endpoint before after { c with phase := .pausing } :=
        dials_of_pausing hwaits rfl
      exact hnext.of_step (.connectFails hphase ⟨before, after, rfl, rfl⟩) rfl
  | greeting =>
      have hnext : Dials server s endpoint before after { c with phase := .pausing } :=
        dials_of_pausing hwaits rfl
      exact hnext.of_step (.handshakeFails hphase ⟨before, after, rfl, rfl⟩) rfl
  | serving session =>
      obtain ⟨hid, hmem⟩ := hproper.made session (by rw [hphase]; rfl)
      exact dials_of_serving hwaits hphase (hopened session hmem hid)
  | registering session =>
      obtain ⟨hid, hmem⟩ := hproper.made session (by rw [hphase]; rfl)
      exact dials_of_registering hwaits hphase hid (hopened session hmem hid)
        (h.own session hmem)

/-- Every endpoint has a connector, or is about to get one. -/
theorem covered_of_reachable (h : (system server).Reachable s) :
    ∀ id, (s.endpoints id).isSome = true → id ∈ s.started ∨
      ∃ device found, s.manager = .starting device found ∧ device.deviceId = id := by
  refine System.Reachable.invariant (P := fun s => ∀ id, (s.endpoints id).isSome = true →
    id ∈ s.started ∨ ∃ device found, s.manager = .starting device found ∧
      device.deviceId = id) ?_ ?_ h
  · rintro _ ⟨closed, rfl⟩ id hid
    exact nomatch hid
  · intro s action t hcovered hstep id hid
    cases hstep with
    | @insert device found hmanager _ =>
        rcases eq_or_ne id device.deviceId with rfl | hne
        · exact .inr ⟨device, found, rfl, rfl⟩
        · simp only [Function.update_of_ne hne] at hid
          rcases hcovered id hid with hmem | ⟨_, _, hmanager', _⟩
          · exact .inl hmem
          · exact nomatch hmanager.symm.trans hmanager'
    | start hmanager _ =>
        rcases hcovered id hid with hmem | ⟨_, _, hmanager', rfl⟩
        · exact .inl (List.mem_cons_of_mem _ hmem)
        · cases hmanager.symm.trans hmanager'
          exact .inl List.mem_cons_self
    | known hmanager hknown =>
        rcases hcovered id hid with hmem | ⟨_, _, hmanager', rfl⟩
        · exact .inl hmem
        · cases hmanager.symm.trans hmanager'
          exact .inl hknown
    | discover hmanager _ _ | discoverFails hmanager | ignore hmanager _ | handled hmanager
    | wake hmanager =>
        rcases hcovered id hid with hmem | ⟨_, _, hmanager', _⟩
        · exact .inl hmem
        · exact nomatch hmanager.symm.trans hmanager'
    | _ => exact hcovered id hid

theorem leads_started (h : (system server).Reachable s) {id : DeviceId}
    (hknown : s.endpoints id = some endpoint) :
    ∃ t, (system server).LeadsBy (fun action => action = .manager) s t ∧
      (∃ c ∈ t.connectors, c.deviceId = id) ∧ t.endpoints = s.endpoints ∧
      t.registry = s.registry ∧ t.opened = s.opened := by
  have hstarted := (inv_of_reachable h).started
  rcases covered_of_reachable h id (by rw [hknown]; rfl) with hmem | ⟨device, found, hmanager, rfl⟩
  · obtain ⟨c, hc, hid⟩ := List.mem_map.mp ((hstarted id).mpr hmem)
    exact ⟨s, .refl, ⟨c, hc, hid⟩, rfl, rfl, rfl⟩
  · by_cases hmem : device.deviceId ∈ s.started
    · obtain ⟨c, hc, hid⟩ := List.mem_map.mp ((hstarted _).mpr hmem)
      exact ⟨s, .refl, ⟨c, hc, hid⟩, rfl, rfl, rfl⟩
    · refine ⟨_, System.LeadsBy.head rfl (.start hmanager hmem) .refl, ⟨.new device.deviceId, ?_,
        rfl⟩, rfl, rfl, rfl⟩
      exact List.mem_append_right _ List.mem_cons_self

end Progress

/-- No discovered device is given up: while its connections are closed, the manager and the
connector of the device by themselves get to where the connector connects to the endpoint that
was reported last. -/
theorem reconnects {server : Server} {s : State} (h : (system server).Reachable s)
    {id : DeviceId} {endpoint : Text} (hknown : s.endpoints id = some endpoint)
    (hopened : ∀ session ∈ s.opened, session.id = id →
      s.registry.closed session.transport = true)
    (hentry : ∀ session, s.registry.devices id = some session →
      s.registry.closed session.transport = true) :
    ∃ t, (system server).LeadsBy
        (fun action => action = .manager ∨ action = .connector id) s t ∧
      ∃ c ∈ t.connectors, c.deviceId = id ∧ c.phase = .dialing endpoint := by
  obtain ⟨t, hstart, ⟨c, hc, rfl⟩, hendpoints, hregistry, hopens⟩ := leads_started h hknown
  obtain ⟨before, after, hsplit⟩ := List.append_of_mem hc
  have hreach : (system server).Reachable t := h.leads hstart.leads
  have hwaits : Waits t c.deviceId endpoint :=
    ⟨by rw [hendpoints, hknown], by rwa [hregistry]⟩
  have ht : { t with connectors := before ++ c :: after } = t := by rw [← hsplit]
  obtain ⟨u, d, hrun, hd, hid, hphase⟩ := Inv.dials (ht.symm ▸ inv_of_reachable hreach) hwaits
    (by rwa [hopens, hregistry])
  rw [ht] at hrun
  refine ⟨u, (System.LeadsBy.mono (fun _ => .inl) hstart).trans
    (System.LeadsBy.mono (fun _ => .inr) hrun), d, hd, hid, hphase⟩

def namedServer : Server := ⟨currentBuild, .secure, decodeNamed⟩

def namedDevice : DiscoveredDevice := discoveredDevice ['h'] (replyNamed 'a')

def namedSession : Session := ⟨.replicate 16 7, 0, false⟩

theorem discoverAll_named :
    discoverAll decodeNamed ⟨true, true, true⟩ id [.received ⟨replyBytes 97, ['h']⟩] =
      .ok [namedDevice] := by
  have htold : Datagram.device decodeNamed ⟨replyBytes 97, ['h']⟩ = some namedDevice := by decide
  rw [discoverAll_of_requested ⟨rfl, rfl, rfl⟩]
  simp [collectAll, collect, receive, htold, insertFound, Except.map]

/-- A device has been discovered, and its connector has been started. -/
def discovered : State where
  registry := .initial fun _ => false
  endpoints := Function.update (fun _ => none) namedDevice.deviceId (some namedDevice.endpoint)
  manager := .handling []
  started := [namedDevice.deviceId]
  connectors := [.new namedDevice.deviceId]
  heard := [⟨replyBytes 97, ['h']⟩]
  opened := []

theorem reachable_discovered : (system namedServer).Reachable discovered := by
  have haccepts : namedServer.accepts namedDevice = true := by decide
  refine ⟨.initial (.initial fun _ => false), ⟨_, rfl⟩, ?_⟩
  exact System.Leads.head (.discover rfl (fun found => .refl found) discoverAll_named) <|
    System.Leads.head (.insert rfl haccepts) <|
    System.Leads.single (.start rfl List.not_mem_nil)

theorem reconnects_discovered :
    discovered.endpoints namedDevice.deviceId = some namedDevice.endpoint ∧
      ∃ t, (system namedServer).LeadsBy
          (fun action => action = .manager ∨ action = .connector namedDevice.deviceId)
          discovered t ∧
        ∃ c ∈ t.connectors, c.deviceId = namedDevice.deviceId ∧
          c.phase = .dialing namedDevice.endpoint := by
  have hknown : discovered.endpoints namedDevice.deviceId = some namedDevice.endpoint := by
    simp [discovered]
  exact ⟨hknown, reconnects reachable_discovered hknown (List.forall_mem_nil _) nofun⟩

/-- The device has been connected to, and its session is in the map. -/
theorem exists_connected :
    ∃ s, (system namedServer).Reachable s ∧ s.opened = [namedSession] ∧
      s.registry.closed namedSession.transport = false ∧ s.registry.Settled ∧
      namedSession ∈ s.registry.registered := by
  have hmissing : ¬ discovered.Connected namedDevice.deviceId := by
    rintro ⟨_, hentry, _⟩
    exact nomatch hentry
  have hendpoint : discovered.endpoints namedDevice.deviceId = some namedDevice.endpoint := by
    simp [discovered]
  have hown : ∀ other ∈ (DeviceRegistry.State.initial fun _ => false).registered,
      other.transport = namedSession.transport → other = namedSession :=
    List.forall_mem_nil _
  have hkeep : ∀ existing, (none : Option Session) = some existing →
      existing.sameConnection namedSession = true ∨ false = true := nofun
  have hother : ∀ session, DeviceRegistry.Action.other = .register session →
      ∀ other ∈ [namedSession], other.transport ≠ session.transport := nofun
  have hidentity : namedSession.id = namedDevice.deviceId := rfl
  have hheartbeat : namedSession.heartbeat = false := rfl
  have hfresh : ∀ other ∈ ([] : List Session), other.transport ≠ namedSession.transport :=
    List.forall_mem_nil _
  have hsettled : ∀ task ∈ [DeviceRegistry.Task.waiting namedSession],
      task.pending (fun _ => false) = false := List.forall_mem_singleton.mpr rfl
  exact ⟨_, reachable_discovered.leads <|
    System.Leads.head (.lookMissing rfl hmissing (.last [] _ _)) <|
    System.Leads.head (.fetch rfl hendpoint (.last [] _ _)) <|
    System.Leads.head (.connect rfl (.last [] _ _)) <|
    System.Leads.head (.greet rfl hidentity hfresh hfresh (.last [] _ _)) <|
    System.Leads.head (.register rfl (.register hown) (.last [] _ _)) <|
    System.Leads.head (.registry hother (.keep hkeep (.last [] _ _))) <|
    System.Leads.head (.registry hother (.noHeartbeat hheartbeat (.last [] _ _))) <|
    System.Leads.single (.registry hother (.spawnMonitor (.last [] _ _))), rfl, rfl,
    hsettled, List.mem_cons_self⟩

/-- Its one open session is the one in the map. -/
theorem connectors_sound_connected :
    ∃ s, (system namedServer).Reachable s ∧ s.opened = [namedSession] ∧
      s.registry.devices namedSession.id = some namedSession := by
  obtain ⟨s, hreach, hopened, hopen, hsettled, hregistered⟩ := exists_connected
  obtain ⟨-, -, -, hentry⟩ := connectors_sound hreach
  exact ⟨s, hreach, hopened,
    hentry namedSession (hopened ▸ List.mem_cons_self) hopen hsettled hregistered⟩

end SideWire.DiscoveredDevices
