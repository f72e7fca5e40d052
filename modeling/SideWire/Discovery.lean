import Mathlib.Data.Char
import Mathlib.Data.List.Lex
import Mathlib.Data.List.Nodup
import SideWire.Security

/-!
The discovery of devices by broadcast: what `discover_all` makes of the replies that arrive.
-/

namespace SideWire.Discovery

open SideWire.ByteString
open SideWire.PairingStore
open SideWire.Security

structure DiscoveryReply where
  deviceId : DeviceId
  name : Text
  port : UInt16
  protocolVersion : UInt16
  security : SecurityMode
  deriving DecidableEq

structure DiscoveredDevice where
  deviceId : DeviceId
  name : Text
  endpoint : Text
  protocolVersion : UInt16
  security : SecurityMode
  deriving DecidableEq

/-- A datagram, and the text of the address that it comes from. -/
structure Datagram where
  bytes : Bytes
  ip : Text
  deriving DecidableEq

/-- What `recv_from` returns before the deadline. -/
inductive Reception
  | received (datagram : Datagram)
  | failed
  deriving DecidableEq

/-- Whether the calls on the socket before the loop succeed: `bind`, `set_broadcast`, and the
`send_to` with the broadcast address. Nobody looks at what that with the loopback address
returns. -/
structure Socket where
  binds : Bool
  broadcasts : Bool
  sends : Bool
  deriving DecidableEq

/-- The request, up to the first call that fails. -/
def Socket.request (socket : Socket) : Except String Unit :=
  if socket.binds = false then .error "bind SideWire discovery socket"
  else if socket.broadcasts = false then .error "enable SideWire discovery broadcast"
  else if socket.sends = false then .error "send SideWire discovery broadcast"
  else .ok ()

/-- The request has gone out. -/
def Socket.Requested (socket : Socket) : Prop :=
  socket.binds = true ∧ socket.broadcasts = true ∧ socket.sends = true

/-- The size of the buffer, which a longer datagram is cut to. -/
def bufferLen : Nat := 2048

def discoveredDevice (ip : Text) (reply : DiscoveryReply) : DiscoveredDevice where
  deviceId := reply.deviceId
  name := reply.name
  endpoint := ip ++ ':' :: (Nat.repr reply.port.toNat).toList
  protocolVersion := reply.protocolVersion
  security := reply.security

/-- `insert` of a hash map, which is kept as the list of its values. -/
def insertFound (found : List DiscoveredDevice) (device : DiscoveredDevice) :
    List DiscoveredDevice :=
  device :: found.filter fun other => decide (other.deviceId ≠ device.deviceId)

section Loop

variable (decode : Bytes → Option DiscoveryReply)

/-- The device that a datagram tells of, if it can be decoded. -/
def Datagram.device (datagram : Datagram) : Option DiscoveredDevice :=
  (decode (datagram.bytes.take bufferLen)).map (discoveredDevice datagram.ip)

def receive (found : List DiscoveredDevice) (datagram : Datagram) : List DiscoveredDevice :=
  match datagram.device decode with
  | none => found
  | some device => insertFound found device

/-- The loop, up to its deadline. -/
def collect (found : List DiscoveredDevice) :
    List Reception → Except String (List DiscoveredDevice)
  | [] => .ok found
  | .failed :: _ => .error "receive SideWire discovery reply"
  | .received datagram :: rest => collect (receive decode found datagram) rest

def idBytes (id : DeviceId) : List Nat := id.toList.map UInt8.toNat

/-- The comparison that the list is sorted by: the name, then the id. -/
def foundBefore (a b : DiscoveredDevice) : Bool :=
  decide (a.name < b.name) ||
    (decide (a.name = b.name) && decide (idBytes a.deviceId ≤ idBytes b.deviceId))

/-- The loop and what comes after it. `values` is the order that the hash map gives its values
in. -/
def collectAll (values : List DiscoveredDevice → List DiscoveredDevice)
    (receptions : List Reception) : Except String (List DiscoveredDevice) :=
  (collect decode [] receptions).map fun found => (values found).mergeSort foundBefore

def discoverAll (socket : Socket) (values : List DiscoveredDevice → List DiscoveredDevice)
    (receptions : List Reception) : Except String (List DiscoveredDevice) := do
  socket.request
  collectAll decode values receptions

end Loop

def datagrams (receptions : List Reception) : List Datagram :=
  receptions.filterMap fun
    | .received datagram => some datagram
    | .failed => none

/-- The last device with an id that the datagrams tell of. -/
def lastTold (decode : Bytes → Option DiscoveryReply) (received : List Datagram)
    (id : DeviceId) : Option DiscoveredDevice :=
  (received.filterMap (Datagram.device decode)).reverse.find? fun device =>
    decide (device.deviceId = id)

section Sorting

theorem idBytes_inj {a b : DeviceId} (h : idBytes a = idBytes b) : a = b := by
  have hbytes : a.toList = b.toList :=
    List.map_injective_iff.mpr (fun _ _ hbyte => UInt8.toNat_inj.mp hbyte) h
  exact Vector.toList_inj.mp hbytes

theorem foundBefore_iff {a b : DiscoveredDevice} :
    foundBefore a b = true ↔
      a.name < b.name ∨ a.name = b.name ∧ idBytes a.deviceId ≤ idBytes b.deviceId := by
  simp [foundBefore]

theorem foundBefore_trans (a b c : DiscoveredDevice) (hab : foundBefore a b = true)
    (hbc : foundBefore b c = true) : foundBefore a c = true := by
  rw [foundBefore_iff] at hab hbc ⊢
  rcases hab with hab | ⟨hab, hid⟩
  · rcases hbc with hbc | ⟨hbc, -⟩
    · exact .inl (hab.trans hbc)
    · exact .inl (hbc ▸ hab)
  · rcases hbc with hbc | ⟨hbc, hid'⟩
    · exact .inl (hab ▸ hbc)
    · exact .inr ⟨hab.trans hbc, hid.trans hid'⟩

theorem foundBefore_total (a b : DiscoveredDevice) :
    (foundBefore a b || foundBefore b a) = true := by
  rw [Bool.or_eq_true, foundBefore_iff, foundBefore_iff]
  rcases lt_trichotomy a.name b.name with hname | hname | hname
  · exact .inl (.inl hname)
  · rcases le_total (idBytes a.deviceId) (idBytes b.deviceId) with hid | hid
    · exact .inl (.inr ⟨hname, hid⟩)
    · exact .inr (.inr ⟨hname.symm, hid⟩)
  · exact .inr (.inl hname)

theorem deviceId_eq_of_foundBefore {a b : DiscoveredDevice} (hab : foundBefore a b = true)
    (hba : foundBefore b a = true) : a.deviceId = b.deviceId := by
  rw [foundBefore_iff] at hab hba
  rcases hab with hab | ⟨hname, hid⟩
  · rcases hba with hba | ⟨hba, -⟩
    · exact absurd hba hab.asymm
    · exact absurd hba hab.ne'
  · rcases hba with hba | ⟨-, hid'⟩
    · exact absurd hname hba.ne'
    · exact idBytes_inj (le_antisymm hid hid')

theorem pairwise_sorted (found : List DiscoveredDevice) :
    (found.mergeSort foundBefore).Pairwise fun a b => foundBefore a b = true :=
  List.pairwise_mergeSort foundBefore_trans foundBefore_total found

theorem sorted_eq_of_perm {found other : List DiscoveredDevice} (hperm : found.Perm other)
    (hkeys : ∀ a ∈ found, ∀ b ∈ found, a.deviceId = b.deviceId → a = b) :
    found.mergeSort foundBefore = other.mergeSort foundBefore := by
  refine List.Perm.eq_of_pairwise ?_ (pairwise_sorted found) (pairwise_sorted other)
    (((List.mergeSort_perm _ _).trans hperm).trans (List.mergeSort_perm _ _).symm)
  intro a b ha hb hab hba
  rw [List.mem_mergeSort] at ha hb
  exact hkeys a ha b (hperm.mem_iff.mpr hb) (deviceId_eq_of_foundBefore hab hba)

end Sorting

section Receiving

variable {decode : Bytes → Option DiscoveryReply} {found : List DiscoveredDevice}
  {device : DiscoveredDevice}

theorem collect_eq (receptions : List Reception) (found : List DiscoveredDevice) :
    collect decode found receptions =
      if .failed ∈ receptions then .error "receive SideWire discovery reply"
      else .ok ((datagrams receptions).foldl (receive decode) found) := by
  induction receptions generalizing found with
  | nil => simp [collect, datagrams]
  | cons reception rest ih =>
      cases reception with
      | failed => simp [collect]
      | received datagram =>
          rw [collect, ih]
          simp [datagrams]

theorem mem_receive {datagram : Datagram} :
    device ∈ receive decode found datagram ↔
      datagram.device decode = some device ∨
        device ∈ found ∧ ∀ told, datagram.device decode = some told →
          told.deviceId ≠ device.deviceId := by
  unfold receive
  cases htold : datagram.device decode with
  | none => simp
  | some told =>
      simp only [insertFound, List.mem_cons, List.mem_filter, decide_eq_true_eq, ne_eq,
        Option.some.injEq, forall_eq']
      rw [eq_comm (a := device), eq_comm (a := device.deviceId)]

theorem lastTold_append (received : List Datagram) (datagram : Datagram) (id : DeviceId) :
    lastTold decode (received ++ [datagram]) id =
      ((datagram.device decode).filter fun told => decide (told.deviceId = id)).or
        (lastTold decode received id) := by
  unfold lastTold
  rw [List.filterMap_append, List.reverse_append, List.find?_append]
  cases htold : datagram.device decode with
  | none => simp [htold]
  | some told =>
      by_cases hid : told.deviceId = id <;> simp [htold, hid, Option.filter_some]

/-- What the loop has found: the last device told of for each id. -/
theorem mem_received {received : List Datagram} :
    device ∈ received.foldl (receive decode) [] ↔
      lastTold decode received device.deviceId = some device := by
  induction received using List.reverseRecOn with
  | nil => simp [lastTold]
  | append_singleton received datagram ih =>
      rw [List.foldl_append, List.foldl_cons, List.foldl_nil, mem_receive, ih,
        lastTold_append]
      cases htold : datagram.device decode with
      | none => simp
      | some told =>
          by_cases hid : told.deviceId = device.deviceId
          · simp [hid]
          · have hne : told ≠ device := fun h => hid (by rw [h])
            simp [hid, hne]

theorem nodup_received (received : List Datagram) :
    ((received.foldl (receive decode) []).map DiscoveredDevice.deviceId).Nodup := by
  induction received using List.reverseRecOn with
  | nil => simp
  | append_singleton received datagram ih =>
      rw [List.foldl_append, List.foldl_cons, List.foldl_nil]
      unfold receive
      cases datagram.device decode with
      | none => exact ih
      | some told =>
          simp only [insertFound, List.map_cons, List.nodup_cons]
          refine ⟨by simp, ?_⟩
          exact ih.sublist (List.filter_sublist.map _)

end Receiving

section Result

variable {decode : Bytes → Option DiscoveryReply} {socket : Socket}
  {values : List DiscoveredDevice → List DiscoveredDevice} {receptions : List Reception}
  {devices : List DiscoveredDevice}

theorem request_eq_ok : socket.request = .ok () ↔ socket.Requested := by
  obtain ⟨binds, broadcasts, sends⟩ := socket
  cases binds <;> cases broadcasts <;> cases sends <;> simp [Socket.request, Socket.Requested]

variable (decode values receptions) in
theorem collectAll_eq : collectAll decode values receptions =
    if .failed ∈ receptions then .error "receive SideWire discovery reply"
    else .ok ((values ((datagrams receptions).foldl (receive decode) [])).mergeSort
      foundBefore) := by
  rw [collectAll, collect_eq]
  split <;> rfl

theorem discoverAll_of_requested (h : socket.Requested) :
    discoverAll decode socket values receptions = collectAll decode values receptions := by
  rw [discoverAll, request_eq_ok.mpr h]
  rfl

theorem discoverAll_ok (h : discoverAll decode socket values receptions = .ok devices) :
    socket.Requested ∧ .failed ∉ receptions ∧
      devices =
        (values ((datagrams receptions).foldl (receive decode) [])).mergeSort foundBefore := by
  unfold discoverAll at h
  cases hrequest : socket.request with
  | error message =>
      rw [hrequest] at h
      cases h
  | ok =>
      have hcollected : collectAll decode values receptions = .ok devices := by
        rwa [hrequest] at h
      rw [collectAll_eq] at hcollected
      split at hcollected
      · cases hcollected
      · next hreceived =>
          exact ⟨request_eq_ok.mp hrequest, hreceived, (Except.ok.inj hcollected).symm⟩

theorem exists_discoverAll_ok :
    (∃ devices, discoverAll decode socket values receptions = .ok devices) ↔
      socket.Requested ∧ .failed ∉ receptions := by
  constructor
  · rintro ⟨devices, h⟩
    obtain ⟨hrequested, hreceived, -⟩ := discoverAll_ok h
    exact ⟨hrequested, hreceived⟩
  · rintro ⟨hrequested, hreceived⟩
    have hcollected := (collectAll_eq decode values receptions).trans (if_neg hreceived)
    exact ⟨_, (discoverAll_of_requested hrequested).trans hcollected⟩

theorem mem_discoverAll (hvalues : ∀ found, (values found).Perm found)
    (h : discoverAll decode socket values receptions = .ok devices) {device : DiscoveredDevice} :
    device ∈ devices ↔
      lastTold decode (datagrams receptions) device.deviceId = some device := by
  obtain ⟨-, -, rfl⟩ := discoverAll_ok h
  rw [List.mem_mergeSort, (hvalues _).mem_iff, mem_received]

theorem told_of_discoverAll (hvalues : ∀ found, (values found).Perm found)
    (h : discoverAll decode socket values receptions = .ok devices) {device : DiscoveredDevice}
    (hmem : device ∈ devices) :
    ∃ datagram ∈ datagrams receptions, datagram.device decode = some device := by
  have hlast := (mem_discoverAll hvalues h).mp hmem
  have htold := List.mem_of_find?_eq_some hlast
  rwa [List.mem_reverse, List.mem_filterMap] at htold

theorem nodup_discoverAll (hvalues : ∀ found, (values found).Perm found)
    (h : discoverAll decode socket values receptions = .ok devices) :
    (devices.map DiscoveredDevice.deviceId).Nodup := by
  obtain ⟨-, -, rfl⟩ := discoverAll_ok h
  have hperm := (List.mergeSort_perm (values _) foundBefore).trans
    (hvalues ((datagrams receptions).foldl (receive decode) []))
  exact (hperm.map DiscoveredDevice.deviceId).nodup_iff.mpr (nodup_received _)

/-- The order of the hash map is lost in the sorting. -/
theorem collectAll_comm {values' : List DiscoveredDevice → List DiscoveredDevice}
    (hvalues : ∀ found, (values found).Perm found)
    (hvalues' : ∀ found, (values' found).Perm found) :
    collectAll decode values receptions = collectAll decode values' receptions := by
  have hkeys : ∀ found : List DiscoveredDevice,
      (found.map DiscoveredDevice.deviceId).Nodup →
        ∀ a ∈ found, ∀ b ∈ found, a.deviceId = b.deviceId → a = b :=
    fun found hnodup a ha b hb => List.inj_on_of_nodup_map hnodup ha hb
  rw [collectAll_eq, collectAll_eq]
  split
  · rfl
  · refine congrArg Except.ok (sorted_eq_of_perm ((hvalues _).trans (hvalues' _).symm) ?_)
    intro a ha b hb
    exact hkeys _ (nodup_received _) a ((hvalues _).mem_iff.mp ha) b
      ((hvalues _).mem_iff.mp hb)

end Result

/-- The list of `discover_all` is sorted, it names every device that has been told of once, as
the last datagram about it told, and it does not depend on the order of the hash map. There is
one unless the request has not gone out or a receive has failed. -/
theorem discoverAll_exact (decode : Bytes → Option DiscoveryReply) (socket : Socket)
    (values values' : List DiscoveredDevice → List DiscoveredDevice)
    (receptions : List Reception) (hvalues : ∀ found, (values found).Perm found)
    (hvalues' : ∀ found, (values' found).Perm found) :
    discoverAll decode socket values receptions = discoverAll decode socket values' receptions ∧
      ((∃ devices, discoverAll decode socket values receptions = .ok devices) ↔
        socket.Requested ∧ .failed ∉ receptions) ∧
      ∀ devices, discoverAll decode socket values receptions = .ok devices →
        devices.Pairwise (fun a b => foundBefore a b = true ∧ a.deviceId ≠ b.deviceId) ∧
          ∀ device, device ∈ devices ↔
            lastTold decode (datagrams receptions) device.deviceId = some device := by
  refine ⟨?_, exists_discoverAll_ok, ?_⟩
  · rw [discoverAll, discoverAll, collectAll_comm hvalues hvalues']
  · intro devices hdevices
    refine ⟨?_, fun device => mem_discoverAll hvalues hdevices⟩
    have hnodup := nodup_discoverAll hvalues hdevices
    obtain ⟨-, -, hsorted⟩ := discoverAll_ok hdevices
    rw [List.Nodup, List.pairwise_map] at hnodup
    exact (hsorted ▸ pairwise_sorted _).imp₂ (fun _ _ h hne => ⟨h, hne⟩) hnodup

/-- A datagram of one device, with a name of one letter. -/
def replyBytes (letter : UInt8) : Bytes :=
  List.replicate 16 7 ++ [1, letter, 0x90, 0x3F, 0x82, 0x02, 0x00]

def replyNamed (letter : Char) : DiscoveryReply :=
  ⟨.replicate 16 7, [letter], 8080, 0x0102, .secure⟩

def decodeNamed (bytes : Bytes) : Option DiscoveryReply :=
  if bytes = replyBytes 97 then some (replyNamed 'a')
  else if bytes = replyBytes 98 then some (replyNamed 'b')
  else none

/-- A device that answers twice, and a datagram that is no reply in between. -/
def twoReplies : List Reception :=
  [.received ⟨replyBytes 97, ['h']⟩, .received ⟨[0], ['h']⟩, .received ⟨replyBytes 98, ['h']⟩]

theorem discoverAll_exact_twoReplies :
    ∃ devices, discoverAll decodeNamed ⟨true, true, true⟩ List.reverse twoReplies = .ok devices ∧
      discoveredDevice ['h'] (replyNamed 'b') ∈ devices ∧
      discoveredDevice ['h'] (replyNamed 'a') ∉ devices := by
  obtain ⟨-, hok, hexact⟩ := discoverAll_exact decodeNamed ⟨true, true, true⟩
    List.reverse id twoReplies List.reverse_perm fun found => .refl found
  obtain ⟨devices, hdevices⟩ := hok.mpr ⟨⟨rfl, rfl, rfl⟩, by decide⟩
  obtain ⟨-, hmem⟩ := hexact devices hdevices
  exact ⟨devices, hdevices, (hmem _).mpr (by decide), fun h => absurd ((hmem _).mp h) (by decide)⟩

end SideWire.Discovery
