import SideWire.SecurityHandshake

/-!
The session handshake on top of a secured connection: Hello and HelloAck between host and
device, in both directions of connecting.
-/

namespace SideWire.SessionHandshake

open SideWire.ByteString
open SideWire.ByteLink
open SideWire.FrameCodec
open SideWire.PairingStore
open SideWire.RecordLayer
open SideWire.RecordSequences
open SideWire.Security
open SideWire.SecurityHandshake

namespace Capabilities

def core : UInt64 := (1 : UInt64) <<< 0
def ptyCompletion : UInt64 := (1 : UInt64) <<< 1
def secureProxy : UInt64 := (1 : UInt64) <<< 2
def clipboard : UInt64 := (1 : UInt64) <<< 3
def heartbeat : UInt64 := (1 : UInt64) <<< 4
def streamCancel : UInt64 := (1 : UInt64) <<< 5
def flowControl : UInt64 := (1 : UInt64) <<< 6

def all : UInt64 :=
  core ||| ptyCompletion ||| secureProxy ||| clipboard ||| heartbeat ||| streamCancel |||
    flowControl

end Capabilities

def daemonCapabilities (hasClipboard : Bool) : UInt64 :=
  let capabilities := Capabilities.core ||| Capabilities.ptyCompletion |||
    Capabilities.secureProxy ||| Capabilities.heartbeat ||| Capabilities.streamCancel |||
    Capabilities.flowControl
  if hasClipboard then capabilities ||| Capabilities.clipboard else capabilities

variable {Handshake Cipher : Type}

/-- The host program: `capabilities` is `capabilities::ALL` of its build. -/
structure Host (Handshake Cipher : Type) extends Endpoint Handshake Cipher where
  trust : Trust
  capabilities : UInt64
  os : Text
  arch : Text

/-- The daemon: `capabilities` is what it advertises. -/
structure Device (Handshake Cipher : Type) extends Endpoint Handshake Cipher where
  deviceId : DeviceId
  name : Text
  pairsDir : Option PairsDir
  capabilities : UInt64
  os : Text
  arch : Text

structure DeviceIdentity (Cipher : Type) where
  id : DeviceId
  name : Text
  security : SecurityMode
  noise : Option (TransportState Cipher)
  sharedSecret : Option Key
  capabilities : UInt64
  protocol : UInt16

/-- What `serve` knows of its host after the handshake. -/
structure HostIdentity (Cipher : Type) where
  peerId : DeviceId
  noise : Option (TransportState Cipher)
  sharedSecret : Option Key
  capabilities : UInt64
  protocol : UInt16

/-- One message of the handshake in a frame of its own, on stream 0. -/
def sendMessage {α : Type} (endpoint : Endpoint Handshake Cipher) (codec : Codec α)
    (noise : Option (TransportState Cipher)) (kind : FrameKind) (message : α) :
    Io String (Option (TransportState Cipher)) := do
  let payload ← attempt (codec.encode message)
  writeRaw endpoint.snow endpoint.build noise kind 0 payload

/-- Reads a frame with a reader of its own. -/
def receiveFrame (endpoint : Endpoint Handshake Cipher)
    (noise : Option (TransportState Cipher)) :
    Io String (Frame × Option (TransportState Cipher)) := do
  let (frame, reader) ← (SecureFrameReader.new noise).readFrame endpoint.snow endpoint.build
  pure (frame, reader.noise)

def acceptDevice (host : Host Handshake Cipher) : Io String (DeviceIdentity Cipher) := do
  let secured ← acceptSecurity host.toEndpoint host.trust
  let (helloFrame, noise) ← receiveFrame host.toEndpoint secured.noise
  if helloFrame.kind ≠ .hello then fail "expected device Hello"
  else
    let hello ← attempt (host.codecs.hello.decode helloFrame.payload)
    let protocol ← attempt (context (host.build.negotiatedVersion hello.protocolVersion)
      "device protocol major is incompatible")
    let capabilities := hello.capabilities &&& host.capabilities
    if capabilities &&& Capabilities.core = 0 then
      fail "device does not advertise the core capability"
    else
      let id ← attempt (context hello.deviceId "device Hello did not include device_id")
      if id ≠ secured.peerId then fail "device identity changed after security handshake"
      else
        let ack : HelloAck := ⟨none, "sidewire-server".toList, host.os, host.arch,
          host.build.version, host.capabilities⟩
        let noise ← sendMessage host.toEndpoint host.codecs.helloAck noise .helloAck ack
        pure ⟨id, hello.name, host.security, noise, secured.sharedSecret, capabilities,
          protocol⟩

def connectDevice (host : Host Handshake Cipher) : Io String (DeviceIdentity Cipher) := do
  let secured ← connectSecurity host.toEndpoint host.trust
  let hello : Hello :=
    ⟨none, "sidewire-server".toList, .host, host.build.version, host.capabilities⟩
  let noise ← sendMessage host.toEndpoint host.codecs.hello secured.noise .hello hello
  let (ackFrame, noise) ← receiveFrame host.toEndpoint noise
  if ackFrame.kind ≠ .helloAck then fail "expected device HelloAck"
  else
    let ack ← attempt (host.codecs.helloAck.decode ackFrame.payload)
    let protocol ← attempt (context (host.build.negotiatedVersion ack.protocolVersion)
      "device protocol major is incompatible")
    let capabilities := ack.capabilities &&& host.capabilities
    if capabilities &&& Capabilities.core = 0 then
      fail "device does not advertise the core capability"
    else
      let id ← attempt (context ack.deviceId "device HelloAck did not include device_id")
      if id ≠ secured.peerId then fail "device identity changed after security handshake"
      else if host.build.protocolCompatible ack.protocolVersion = false then
        fail s!"protocol mismatch after HelloAck: device {protocolLabel ack.protocolVersion}"
      else if trim ack.name = [] then fail "device returned an empty name"
      else
        pure ⟨id, ack.name, host.security, noise, secured.sharedSecret, capabilities,
          protocol⟩

/-- `serve` on a connection that the host has made. -/
def serveInbound (device : Device Handshake Cipher) : Io String (HostIdentity Cipher) := do
  let secured ← acceptConnection device.toEndpoint device.deviceId device.pairsDir
  let (helloFrame, noise) ← receiveFrame device.toEndpoint secured.noise
  if helloFrame.kind ≠ .hello then fail "expected host Hello"
  else
    let hello ← attempt (device.codecs.hello.decode helloFrame.payload)
    let protocol ← attempt (context (device.build.negotiatedVersion hello.protocolVersion)
      "host protocol major is incompatible")
    if hello.capabilities &&& Capabilities.core = 0 then
      fail "host does not advertise the core capability"
    else
      let ack : HelloAck := ⟨some device.deviceId, device.name, device.os, device.arch,
        device.build.version, device.capabilities⟩
      let noise ← sendMessage device.toEndpoint device.codecs.helloAck noise .helloAck ack
      pure ⟨secured.peerId, noise, secured.sharedSecret,
        device.capabilities &&& hello.capabilities, protocol⟩

/-- `serve` on a connection that the device has made. -/
def serveOutbound (device : Device Handshake Cipher) : Io String (HostIdentity Cipher) := do
  let secured ← connectConnection device.toEndpoint device.deviceId device.pairsDir
  let hello : Hello := ⟨some device.deviceId, device.name, .device, device.build.version,
    device.capabilities⟩
  let noise ← sendMessage device.toEndpoint device.codecs.hello secured.noise .hello hello
  let (ackFrame, noise) ← receiveFrame device.toEndpoint noise
  if ackFrame.kind ≠ .helloAck then fail "expected host HelloAck"
  else
    let ack ← attempt (device.codecs.helloAck.decode ackFrame.payload)
    let protocol ← attempt (context (device.build.negotiatedVersion ack.protocolVersion)
      "host protocol major is incompatible")
    if ack.capabilities &&& Capabilities.core = 0 then
      fail "host does not advertise the core capability"
    else
      pure ⟨secured.peerId, noise, secured.sharedSecret,
        device.capabilities &&& ack.capabilities, protocol⟩

section Transport

variable {endpoint : Endpoint Handshake Cipher} {noise : TransportState Cipher}

theorem returns_writeNoiseRecord {snow : Snow Handshake Cipher}
    {noise next : TransportState Cipher} {record : Bytes} {link link' : Link}
    (h : Returns (writeNoiseRecord snow noise record) link next link') :
    next.keying = noise.keying ∧ next.received = noise.received ∧
      next.sent = noise.sent ++ [record] := by
  rw [writeNoiseRecord] at h
  split_ifs at h with hlarge
  · exact (not_returns_fail h).elim
  · simp only [returns_bind, returns_attempt, returns_pure] at h
    obtain ⟨⟨message, noise'⟩, _, ⟨hwrite, rfl⟩, _, _, _, rfl, rfl⟩ := h
    rw [TransportState.writeMessage] at hwrite
    split at hwrite
    · simp at hwrite
    · obtain ⟨rfl, rfl⟩ := by simpa using hwrite
      exact ⟨rfl, rfl, rfl⟩

theorem returns_writeRecords {snow : Snow Handshake Cipher} {header payload : Bytes}
    (hheader : header.length = headerLen) {offset : Nat}
    {noise last : TransportState Cipher} {link link' : Link}
    (h : Returns (writeRecords snow header payload offset noise) link last link') :
    last.keying = noise.keying ∧ last.received = noise.received ∧
      last.sent = noise.sent ++ recordsFrom (header ++ payload) offset := by
  have hlen : (header ++ payload).length = headerLen + payload.length := by
    rw [List.length_append, hheader]
  induction offset using recordsFrom.induct (header ++ payload) generalizing noise link with
  | case1 offset hstep ih =>
      rw [writeRecords, dif_pos (by omega), returns_bind] at h
      obtain ⟨next, middle, hrecord, hrest⟩ := h
      rw [plainRecord_eq hheader, ← hlen] at hrecord
      rw [← hlen] at hrest
      obtain ⟨hkeying, hreceived, hsent⟩ := returns_writeNoiseRecord hrecord
      obtain ⟨hkeying', hreceived', hsent'⟩ := ih hrest
      rw [recordsFrom, dif_pos hstep]
      refine ⟨hkeying'.trans hkeying, hreceived'.trans hreceived, ?_⟩
      rw [hsent', hsent, List.append_assoc, List.singleton_append]
  | case2 offset hdone =>
      rw [writeRecords, dif_neg (by omega)] at h
      obtain ⟨rfl, rfl⟩ := returns_pure.mp h
      rw [recordsFrom, dif_neg hdone, List.append_nil]
      exact ⟨rfl, rfl, rfl⟩

theorem returns_sendMessage {α : Type} {codec : Codec α} {kind : FrameKind} {message : α}
    {noise' : Option (TransportState Cipher)} {link link' : Link}
    (h : Returns (sendMessage endpoint codec (some noise) kind message) link noise' link') :
    ∃ payload header after, codec.encode message = .ok payload ∧
      frameHeader endpoint.build kind 0 payload.length = .ok header ∧
      noise' = some after ∧ after.keying = noise.keying ∧
      after.received = noise.received ∧
      after.sent = noise.sent ++ frameRecords header payload := by
  simp only [sendMessage, writeRaw, returns_bind, returns_attempt, returns_pure] at h
  obtain ⟨payload, _, ⟨hencode, rfl⟩, header, _, ⟨hheader, rfl⟩, after, _, hwrite, rfl, rfl⟩ :=
    h
  obtain ⟨hkeying, hreceived, hsent⟩ :=
    returns_writeRecords (length_frameHeader hheader) hwrite
  exact ⟨payload, header, after, hencode, hheader, rfl, hkeying, hreceived, hsent⟩

theorem returns_readRecords {snow : Snow Handshake Cipher} {build : Build} :
    ∀ {size : Nat} {assembly : Assembly} {noise : TransportState Cipher}
      {encrypted plaintext : Bytes} {link link' : Link} {frame : Frame}
      {reader : SecureFrameReader Cipher}, link.incoming.length = size →
      readRecords snow build assembly noise encrypted plaintext link =
        (.ok (frame, reader), link') →
      ∃ records after, reader.noise = some after ∧ after.keying = noise.keying ∧
        after.sent = noise.sent ∧ after.received = noise.received ++ records ∧
        Assembles build assembly records frame := by
  intro size
  induction size using Nat.strong_induction_on with
  | _ size ih =>
      intro assembly noise encrypted plaintext link link' frame reader hsize h
      rw [readRecords] at h
      split at h
      · simp at h
      · rename_i encrypted' record noise' middle hread
        have hopened := ((returns_readNoiseRecordInto snow).mp hread).2
        have hless := incoming_lt_of_readNoiseRecordInto snow hread
        rw [TransportState.readMessage] at hopened
        split at hopened
        · simp at hopened
        rename_i payload cipher _
        obtain ⟨rfl, rfl⟩ := by simpa using hopened
        cases haccept : acceptRecord build assembly payload with
        | error message => simp [haccept] at h
        | ok result =>
            cases result with
            | inr done =>
                obtain ⟨⟨rfl, rfl⟩, rfl⟩ := by simpa [haccept] using h
                exact ⟨[payload], _, rfl, rfl, rfl, rfl, .last haccept⟩
            | inl assembly' =>
                simp only [haccept] at h
                obtain ⟨records, after, hnoise, hkeying, hsent, hreceived, hassembles⟩ :=
                  ih _ (hsize ▸ hless) rfl h
                refine ⟨payload :: records, after, hnoise, hkeying, hsent, ?_,
                  .more haccept hassembles⟩
                rw [hreceived, List.append_assoc, List.singleton_append]

theorem returns_receiveFrame {noise' : Option (TransportState Cipher)} {frame : Frame}
    {link link' : Link}
    (h : Returns (receiveFrame endpoint (some noise)) link (frame, noise') link') :
    ∃ records after, noise' = some after ∧ after.keying = noise.keying ∧
      after.sent = noise.sent ∧ after.received = noise.received ++ records ∧
      Assembles endpoint.build .empty records frame := by
  simp only [receiveFrame, returns_bind, returns_pure] at h
  obtain ⟨⟨frame', reader⟩, middle, hread, heq, rfl⟩ := h
  obtain ⟨rfl, rfl⟩ := Prod.mk.inj heq
  exact returns_readRecords rfl hread

end Transport

section Ends

variable {host : Host Handshake Cipher} {device : Device Handshake Cipher} {link link' : Link}

theorem returns_acceptDevice {identity : DeviceIdentity Cipher}
    (h : Returns (acceptDevice host) link identity link') :
    ∃ secured first frame noise second hello ack,
      Returns (acceptSecurity host.toEndpoint host.trust) link secured first ∧
      Returns (receiveFrame host.toEndpoint secured.noise) first (frame, noise) second ∧
      Returns (sendMessage host.toEndpoint host.codecs.helloAck noise .helloAck ack) second
        identity.noise link' ∧
      identity.id = secured.peerId ∧ identity.sharedSecret = secured.sharedSecret ∧
      ack.protocolVersion = host.build.version ∧ ack.capabilities = host.capabilities ∧
      host.codecs.hello.decode frame.payload = .ok hello ∧
      host.build.negotiatedVersion hello.protocolVersion = some identity.protocol ∧
      identity.capabilities = hello.capabilities &&& host.capabilities := by
  simp only [acceptDevice, returns_bind] at h
  obtain ⟨secured, first, hsecured, ⟨frame, noise⟩, _, hframe, h⟩ := h
  split_ifs at h with hkind
  · exact (not_returns_fail h).elim
  simp only [returns_bind, returns_attempt, context_eq_ok] at h
  obtain ⟨hello, _, ⟨hdecode, rfl⟩, protocol, _, ⟨hprotocol, rfl⟩, h⟩ := h
  split_ifs at h with hcore
  · exact (not_returns_fail h).elim
  simp only [returns_bind, returns_attempt, context_eq_ok] at h
  obtain ⟨id, _, ⟨_, rfl⟩, h⟩ := h
  split_ifs at h with hid
  · exact (not_returns_fail h).elim
  simp only [returns_bind, returns_pure] at h
  obtain ⟨noise', _, hack, rfl, rfl⟩ := h
  exact ⟨secured, first, frame, noise, _, hello, _, hsecured, hframe, hack,
    not_not.mp hid, rfl, rfl, rfl, hdecode, hprotocol, rfl⟩

theorem returns_connectDevice {identity : DeviceIdentity Cipher}
    (h : Returns (connectDevice host) link identity link') :
    ∃ secured first hello noise second frame ack,
      Returns (connectSecurity host.toEndpoint host.trust) link secured first ∧
      Returns (sendMessage host.toEndpoint host.codecs.hello secured.noise .hello hello) first
        noise second ∧
      Returns (receiveFrame host.toEndpoint noise) second (frame, identity.noise) link' ∧
      identity.id = secured.peerId ∧ identity.sharedSecret = secured.sharedSecret ∧
      hello.protocolVersion = host.build.version ∧ hello.capabilities = host.capabilities ∧
      host.codecs.helloAck.decode frame.payload = .ok ack ∧
      host.build.negotiatedVersion ack.protocolVersion = some identity.protocol ∧
      identity.capabilities = ack.capabilities &&& host.capabilities := by
  simp only [connectDevice, returns_bind] at h
  obtain ⟨secured, first, hsecured, noise, second, hhello, ⟨frame, noise'⟩, _, hframe, h⟩ := h
  split_ifs at h with hkind
  · exact (not_returns_fail h).elim
  simp only [returns_bind, returns_attempt, context_eq_ok] at h
  obtain ⟨ack, _, ⟨hdecode, rfl⟩, protocol, _, ⟨hprotocol, rfl⟩, h⟩ := h
  by_cases hcore : (ack.capabilities &&& host.capabilities) &&& Capabilities.core = 0
  · rw [if_pos hcore] at h
    exact (not_returns_fail h).elim
  rw [if_neg hcore] at h
  simp only [returns_bind, returns_attempt, context_eq_ok] at h
  obtain ⟨id, _, ⟨_, rfl⟩, h⟩ := h
  split_ifs at h with hid hcompatible hname
  · exact (not_returns_fail h).elim
  · exact (not_returns_fail h).elim
  · exact (not_returns_fail h).elim
  obtain ⟨rfl, rfl⟩ := returns_pure.mp h
  exact ⟨secured, first, _, noise, second, frame, ack, hsecured, hhello, hframe,
    not_not.mp hid, rfl, rfl, rfl, hdecode, hprotocol, rfl⟩

theorem returns_serveInbound {identity : HostIdentity Cipher}
    (h : Returns (serveInbound device) link identity link') :
    ∃ secured first frame noise second hello ack,
      Returns (acceptConnection device.toEndpoint device.deviceId device.pairsDir) link secured
        first ∧
      Returns (receiveFrame device.toEndpoint secured.noise) first (frame, noise) second ∧
      Returns (sendMessage device.toEndpoint device.codecs.helloAck noise .helloAck ack) second
        identity.noise link' ∧
      identity.peerId = secured.peerId ∧ identity.sharedSecret = secured.sharedSecret ∧
      ack.protocolVersion = device.build.version ∧ ack.capabilities = device.capabilities ∧
      device.codecs.hello.decode frame.payload = .ok hello ∧
      device.build.negotiatedVersion hello.protocolVersion = some identity.protocol ∧
      identity.capabilities = device.capabilities &&& hello.capabilities := by
  simp only [serveInbound, returns_bind] at h
  obtain ⟨secured, first, hsecured, ⟨frame, noise⟩, _, hframe, h⟩ := h
  split_ifs at h with hkind
  · exact (not_returns_fail h).elim
  simp only [returns_bind, returns_attempt, context_eq_ok] at h
  obtain ⟨hello, _, ⟨hdecode, rfl⟩, protocol, _, ⟨hprotocol, rfl⟩, h⟩ := h
  split_ifs at h with hcore
  · exact (not_returns_fail h).elim
  simp only [returns_bind, returns_pure] at h
  obtain ⟨noise', _, hack, rfl, rfl⟩ := h
  exact ⟨secured, first, frame, noise, _, hello, _, hsecured, hframe, hack, rfl, rfl, rfl,
    rfl, hdecode, hprotocol, rfl⟩

theorem returns_serveOutbound {identity : HostIdentity Cipher}
    (h : Returns (serveOutbound device) link identity link') :
    ∃ secured first hello noise second frame ack,
      Returns (connectConnection device.toEndpoint device.deviceId device.pairsDir) link secured
        first ∧
      Returns (sendMessage device.toEndpoint device.codecs.hello secured.noise .hello hello)
        first noise second ∧
      Returns (receiveFrame device.toEndpoint noise) second (frame, identity.noise) link' ∧
      identity.peerId = secured.peerId ∧ identity.sharedSecret = secured.sharedSecret ∧
      hello.protocolVersion = device.build.version ∧
      hello.capabilities = device.capabilities ∧
      device.codecs.helloAck.decode frame.payload = .ok ack ∧
      device.build.negotiatedVersion ack.protocolVersion = some identity.protocol ∧
      identity.capabilities = device.capabilities &&& ack.capabilities := by
  simp only [serveOutbound, returns_bind] at h
  obtain ⟨secured, first, hsecured, noise, second, hhello, ⟨frame, noise'⟩, _, hframe, h⟩ := h
  split_ifs at h with hkind
  · exact (not_returns_fail h).elim
  simp only [returns_bind, returns_attempt, context_eq_ok] at h
  obtain ⟨ack, _, ⟨hdecode, rfl⟩, protocol, _, ⟨hprotocol, rfl⟩, h⟩ := h
  split_ifs at h with hcore
  · exact (not_returns_fail h).elim
  obtain ⟨rfl, rfl⟩ := returns_pure.mp h
  exact ⟨secured, first, _, noise, second, frame, ack, hsecured, hhello, hframe, rfl, rfl, rfl,
    rfl, hdecode, hprotocol, rfl⟩

end Ends

end SideWire.SessionHandshake
