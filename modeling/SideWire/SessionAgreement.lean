import SideWire.SessionHandshake

namespace SideWire.SessionAgreement

open SideWire.ByteString
open SideWire.ByteLink
open SideWire.FrameCodec
open SideWire.PairingStore
open SideWire.RecordLayer
open SideWire.RecordSequences
open SideWire.Security
open SideWire.SecurityHandshake
open SideWire.SessionHandshake

variable {Handshake Cipher : Type}

/-- One end has finished: its Noise state is keyed with the secret it returns, it has sent
one frame with `payload` and received one frame. -/
def Finished (endpoint : Endpoint Handshake Cipher) (role : Role) (own peer : DeviceId)
    (sharedSecret : Option Key) (noise : Option (TransportState Cipher)) (kind : FrameKind)
    (payload : Bytes) (received : Frame) : Prop :=
  ∃ secret version header state,
    sharedSecret = some secret ∧ noise = some state ∧
    protocolMajor version = endpoint.build.protocolMajor ∧
    state.keying = ⟨role, secret, prologueOf role version own peer⟩ ∧
    frameHeader endpoint.build kind 0 payload.length = .ok header ∧
    state.sent = frameRecords header payload ∧
    Assembles endpoint.build .empty state.received received

/-- The ends of one connection: they hold the same key and prologue, and each has received
only what the other has sent, in this order. -/
structure Authentic (noise noise' : TransportState Cipher) : Prop where
  psk : noise.keying.psk = noise'.keying.psk
  prologue : noise.keying.prologue = noise'.keying.prologue
  received : noise.received <+: noise'.sent
  received' : noise'.received <+: noise.sent

theorem protocolMajor_of_negotiatedVersion {build : Build} {peer version : UInt16}
    (h : build.negotiatedVersion peer = some version) :
    protocolMajor version = build.protocolMajor := by
  unfold Build.negotiatedVersion at h
  split_ifs at h
  all_goals rw [← Option.some.inj h, protocolMajor_join]

/-- Two prologues in opposite roles are equal only between two ends that mean each other. -/
theorem prologueOf_inj {role role' : Role} (hroles : role ≠ role') {version version' : UInt16}
    {own peer own' peer' : DeviceId}
    (h : prologueOf role version own peer = prologueOf role' version' own' peer') :
    version = version' ∧ peer = own' ∧ peer' = own := by
  cases role <;> cases role' <;> simp only [ne_eq, not_true_eq_false] at hroles
  · obtain ⟨hversion, hinitiator, hresponder⟩ := securityPrologue_inj h
    exact ⟨hversion, hresponder, hinitiator.symm⟩
  · obtain ⟨hversion, hinitiator, hresponder⟩ := securityPrologue_inj h
    exact ⟨hversion, hinitiator, hresponder.symm⟩

/-- A frame whose records are received in order is the frame that was sent. -/
theorem frame_of_received {build build' : Build}
    (hmajor : build.protocolMajor = build'.protocolMajor) {kind : FrameKind}
    {payload header : Bytes} (hheader : frameHeader build' kind 0 payload.length = .ok header)
    {records : List Bytes} {frame : Frame} (hassembles : Assembles build .empty records frame)
    (hreceived : records <+: frameRecords header payload) : frame = ⟨kind, 0, payload⟩ := by
  let sent : Frame := ⟨kind, 0, payload⟩
  have hsent : Assembles build .empty (frameRecords header sent.payload) sent :=
    assembles_frameRecords hmajor.symm hheader
  exact (hassembles.unique_of_le hsent hreceived).2

theorem Finished.agree {endpoint endpoint' : Endpoint Handshake Cipher} {role role' : Role}
    {own peer own' peer' : DeviceId} {secret secret' : Option Key}
    {noise noise' : Option (TransportState Cipher)} {kind kind' : FrameKind}
    {payload payload' : Bytes} {frame frame' : Frame} (hroles : role ≠ role')
    (h : Finished endpoint role own peer secret noise kind payload frame)
    (h' : Finished endpoint' role' own' peer' secret' noise' kind' payload' frame')
    (hauthentic : ∀ state state', noise = some state → noise' = some state' →
      Authentic state state') :
    (peer = own' ∧ peer' = own) ∧ (∃ key, secret = some key ∧ secret' = some key) ∧
      endpoint.build.protocolMajor = endpoint'.build.protocolMajor ∧
      frame = ⟨kind', 0, payload'⟩ ∧ frame' = ⟨kind, 0, payload⟩ := by
  obtain ⟨key, version, header, state, rfl, rfl, hversion, hkeying, hheader, hsent,
    hassembles⟩ := h
  obtain ⟨key', version', header', state', rfl, rfl, hversion', hkeying', hheader', hsent',
    hassembles'⟩ := h'
  obtain ⟨hpsk, hprologue, hreceived, hreceived'⟩ := hauthentic state state' rfl rfl
  rw [hkeying, hkeying'] at hpsk hprologue
  obtain ⟨rfl, hpeer, hpeer'⟩ := prologueOf_inj hroles hprologue
  have hmajor := hversion.symm.trans hversion'
  rw [hsent'] at hreceived
  rw [hsent] at hreceived'
  refine ⟨⟨hpeer, hpeer'⟩, ⟨key, rfl, congrArg some hpsk.symm⟩, hmajor, ?_, ?_⟩
  · exact frame_of_received hmajor hheader' hassembles hreceived
  · exact frame_of_received hmajor.symm hheader hassembles' hreceived'

section Ends

variable {host : Host Handshake Cipher} {device : Device Handshake Cipher}

theorem keyed_of_secured {endpoint : Endpoint Handshake Cipher} {role : Role}
    {own : DeviceId} {stored : DeviceId → Except String (Option Key)}
    {peerMode : SecurityMode} {peerVersion : UInt16} {secured : ConnectionSecurity Cipher}
    (h : Secured endpoint role own stored peerMode peerVersion secured)
    (hsecure : endpoint.security = .secure) :
    ∃ secret version state, secured.sharedSecret = some secret ∧ secured.noise = some state ∧
      protocolMajor version = endpoint.build.protocolMajor ∧
      state.keying = ⟨role, secret, prologueOf role version own secured.peerId⟩ ∧
      state.sent = [] ∧ state.received = [] := by
  obtain ⟨secret, version, state, _, hversion, hsecret, hnoise, hkeying, hsent, hreceived, _⟩ :=
    h.secure hsecure
  exact ⟨secret, version, state, hsecret, hnoise, protocolMajor_of_negotiatedVersion hversion,
    hkeying, hsent, hreceived⟩

theorem finished_of_receive {endpoint : Endpoint Handshake Cipher} {role : Role}
    {own : DeviceId} {stored : DeviceId → Except String (Option Key)}
    {peerMode : SecurityMode} {peerVersion : UInt16} {secured : ConnectionSecurity Cipher}
    {α : Type} {codec : Codec α} {kind : FrameKind} {message : α} {frame : Frame}
    {noise noise' : Option (TransportState Cipher)} {first second last : Link}
    (hsecure : endpoint.security = .secure)
    (hsecured : Secured endpoint role own stored peerMode peerVersion secured)
    (hframe : Returns (receiveFrame endpoint secured.noise) first (frame, noise) second)
    (hsend : Returns (sendMessage endpoint codec noise kind message) second noise' last) :
    ∃ payload, codec.encode message = .ok payload ∧
      Finished endpoint role own secured.peerId secured.sharedSecret noise' kind payload
        frame := by
  obtain ⟨secret, version, state, hsecret, hnoise, hversion, hkeying, hsent, hreceived⟩ :=
    keyed_of_secured hsecured hsecure
  rw [hnoise] at hframe
  obtain ⟨records, after, rfl, hkeying', hsent', hreceived', hassembles⟩ :=
    returns_receiveFrame hframe
  obtain ⟨payload, header, last, hencode, hheader, rfl, hkeying'', hreceived'', hsent''⟩ :=
    returns_sendMessage hsend
  refine ⟨payload, hencode, secret, version, header, last, hsecret, rfl, hversion, ?_, hheader,
    ?_, ?_⟩
  · rw [hkeying'', hkeying', hkeying]
  · rw [hsent'', hsent', hsent, List.nil_append]
  · rw [hreceived'', hreceived', hreceived, List.nil_append]
    exact hassembles

theorem finished_of_send {endpoint : Endpoint Handshake Cipher} {role : Role}
    {own : DeviceId} {stored : DeviceId → Except String (Option Key)}
    {peerMode : SecurityMode} {peerVersion : UInt16} {secured : ConnectionSecurity Cipher}
    {α : Type} {codec : Codec α} {kind : FrameKind} {message : α} {frame : Frame}
    {noise noise' : Option (TransportState Cipher)} {first second last : Link}
    (hsecure : endpoint.security = .secure)
    (hsecured : Secured endpoint role own stored peerMode peerVersion secured)
    (hsend : Returns (sendMessage endpoint codec secured.noise kind message) first noise second)
    (hframe : Returns (receiveFrame endpoint noise) second (frame, noise') last) :
    ∃ payload, codec.encode message = .ok payload ∧
      Finished endpoint role own secured.peerId secured.sharedSecret noise' kind payload
        frame := by
  obtain ⟨secret, version, state, hsecret, hnoise, hversion, hkeying, hsent, hreceived⟩ :=
    keyed_of_secured hsecured hsecure
  rw [hnoise] at hsend
  obtain ⟨payload, header, middle, hencode, hheader, rfl, hkeying', hreceived', hsent'⟩ :=
    returns_sendMessage hsend
  obtain ⟨records, last, rfl, hkeying'', hsent'', hreceived'', hassembles⟩ :=
    returns_receiveFrame hframe
  refine ⟨payload, hencode, secret, version, header, last, hsecret, rfl, hversion, ?_, hheader,
    ?_, ?_⟩
  · rw [hkeying'', hkeying', hkeying]
  · rw [hsent'', hsent', hsent, List.nil_append]
  · rw [hreceived'', hreceived', hreceived, List.nil_append]
    exact hassembles

theorem acceptDevice_finished (hsecure : host.security = .secure)
    {identity : DeviceIdentity Cipher} {link link' : Link}
    (h : Returns (acceptDevice host) link identity link') :
    ∃ hostId frame hello ack payload, host.trust.hostId = .ok hostId ∧
      Finished host.toEndpoint .responder hostId identity.id identity.sharedSecret
        identity.noise .helloAck payload frame ∧
      host.codecs.helloAck.encode ack = .ok payload ∧
      ack.protocolVersion = host.build.version ∧ ack.capabilities = host.capabilities ∧
      host.codecs.hello.decode frame.payload = .ok hello ∧
      host.build.negotiatedVersion hello.protocolVersion = some identity.protocol ∧
      identity.capabilities = hello.capabilities &&& host.capabilities := by
  obtain ⟨secured, _, frame, _, _, hello, ack, hsecurity, hframe, hack, hid, hsecret, hversion,
    hcaps, hdecode, hprotocol, hcapabilities⟩ := returns_acceptDevice h
  obtain ⟨hostId, _, _, hhostId, _, _, hsecured⟩ := acceptSecurity_secured hsecurity
  obtain ⟨payload, hencode, hfinished⟩ := finished_of_receive hsecure hsecured hframe hack
  rw [← hid, ← hsecret] at hfinished
  exact ⟨hostId, frame, hello, ack, payload, hhostId, hfinished, hencode, hversion, hcaps,
    hdecode, hprotocol, hcapabilities⟩

theorem connectDevice_finished (hsecure : host.security = .secure)
    {identity : DeviceIdentity Cipher} {link link' : Link}
    (h : Returns (connectDevice host) link identity link') :
    ∃ hostId frame ack hello payload, host.trust.hostId = .ok hostId ∧
      Finished host.toEndpoint .initiator hostId identity.id identity.sharedSecret
        identity.noise .hello payload frame ∧
      host.codecs.hello.encode hello = .ok payload ∧
      hello.protocolVersion = host.build.version ∧ hello.capabilities = host.capabilities ∧
      host.codecs.helloAck.decode frame.payload = .ok ack ∧
      host.build.negotiatedVersion ack.protocolVersion = some identity.protocol ∧
      identity.capabilities = ack.capabilities &&& host.capabilities := by
  obtain ⟨secured, _, hello, _, _, frame, ack, hsecurity, hhello, hframe, hid, hsecret, hversion,
    hcaps, hdecode, hprotocol, hcapabilities⟩ := returns_connectDevice h
  obtain ⟨hostId, _, _, _, _, hhostId, _, _, _, _, hsecured⟩ :=
    connectSecurity_secured hsecurity
  obtain ⟨payload, hencode, hfinished⟩ := finished_of_send hsecure hsecured hhello hframe
  rw [← hid, ← hsecret] at hfinished
  exact ⟨hostId, frame, ack, hello, payload, hhostId, hfinished, hencode, hversion, hcaps,
    hdecode, hprotocol, hcapabilities⟩

theorem serveInbound_finished (hsecure : device.security = .secure)
    {identity : HostIdentity Cipher} {link link' : Link}
    (h : Returns (serveInbound device) link identity link') :
    ∃ frame hello ack payload,
      Finished device.toEndpoint .responder device.deviceId identity.peerId
        identity.sharedSecret identity.noise .helloAck payload frame ∧
      device.codecs.helloAck.encode ack = .ok payload ∧
      ack.protocolVersion = device.build.version ∧ ack.capabilities = device.capabilities ∧
      device.codecs.hello.decode frame.payload = .ok hello ∧
      device.build.negotiatedVersion hello.protocolVersion = some identity.protocol ∧
      identity.capabilities = device.capabilities &&& hello.capabilities := by
  obtain ⟨secured, _, frame, _, _, hello, ack, hsecurity, hframe, hack, hid, hsecret, hversion,
    hcaps, hdecode, hprotocol, hcapabilities⟩ := returns_serveInbound h
  obtain ⟨_, _, _, _, hsecured⟩ := acceptConnection_secured hsecurity
  obtain ⟨payload, hencode, hfinished⟩ := finished_of_receive hsecure hsecured hframe hack
  rw [← hid, ← hsecret] at hfinished
  exact ⟨frame, hello, ack, payload, hfinished, hencode, hversion, hcaps, hdecode, hprotocol,
    hcapabilities⟩

theorem serveOutbound_finished (hsecure : device.security = .secure)
    {identity : HostIdentity Cipher} {link link' : Link}
    (h : Returns (serveOutbound device) link identity link') :
    ∃ frame ack hello payload,
      Finished device.toEndpoint .initiator device.deviceId identity.peerId
        identity.sharedSecret identity.noise .hello payload frame ∧
      device.codecs.hello.encode hello = .ok payload ∧
      hello.protocolVersion = device.build.version ∧
      hello.capabilities = device.capabilities ∧
      device.codecs.helloAck.decode frame.payload = .ok ack ∧
      device.build.negotiatedVersion ack.protocolVersion = some identity.protocol ∧
      identity.capabilities = device.capabilities &&& ack.capabilities := by
  obtain ⟨secured, _, hello, _, _, frame, ack, hsecurity, hhello, hframe, hid, hsecret, hversion,
    hcaps, hdecode, hprotocol, hcapabilities⟩ := returns_serveOutbound h
  obtain ⟨_, _, _, _, _, _, _, _, hsecured⟩ := connectConnection_secured hsecurity
  obtain ⟨payload, hencode, hfinished⟩ := finished_of_send hsecure hsecured hhello hframe
  rw [← hid, ← hsecret] at hfinished
  exact ⟨frame, ack, hello, payload, hfinished, hencode, hversion, hcaps, hdecode, hprotocol,
    hcapabilities⟩

end Ends

/-- Who makes the connection. -/
inductive Connector
  | host
  | device
  deriving DecidableEq

def hostHandshake (connector : Connector) (host : Host Handshake Cipher) :
    Io String (DeviceIdentity Cipher) :=
  match connector with
  | .host => connectDevice host
  | .device => acceptDevice host

def deviceHandshake (connector : Connector) (device : Device Handshake Cipher) :
    Io String (HostIdentity Cipher) :=
  match connector with
  | .host => serveInbound device
  | .device => serveOutbound device

/-- Host and device mean each other, share a secret, and use the version and the
capabilities that follow from what their builds advertise. -/
structure Agreement (host : Host Handshake Cipher) (device : Device Handshake Cipher)
    (hostSide : DeviceIdentity Cipher) (deviceSide : HostIdentity Cipher) : Prop where
  deviceId : hostSide.id = device.deviceId
  hostId : host.trust.hostId = .ok deviceSide.peerId
  secret : ∃ key, hostSide.sharedSecret = some key ∧ deviceSide.sharedSecret = some key
  major : device.build.protocolMajor = host.build.protocolMajor
  hostProtocol : hostSide.protocol = agreedVersion host.build device.build
  deviceProtocol : deviceSide.protocol = agreedVersion host.build device.build
  hostCapabilities : hostSide.capabilities = host.capabilities &&& device.capabilities
  deviceCapabilities : deviceSide.capabilities = host.capabilities &&& device.capabilities

/-- Each program decodes the Hello and HelloAck of the other. -/
def Interoperable (codecs codecs' : Codecs) : Prop :=
  codecs.hello.Understands codecs'.hello ∧ codecs'.hello.Understands codecs.hello ∧
    codecs.helloAck.Understands codecs'.helloAck ∧ codecs'.helloAck.Understands codecs.helloAck

section Agreement

variable {host : Host Handshake Cipher} {device : Device Handshake Cipher}
  {hostSide : DeviceIdentity Cipher} {deviceSide : HostIdentity Cipher}
  {hostLink hostLink' deviceLink deviceLink' : Link}

/-- Each end has negotiated with what the other has advertised. -/
theorem both_negotiated {hostVersion deviceVersion : UInt16} {hostCaps deviceCaps : UInt64}
    (hversion : hostVersion = host.build.version) (hcaps : hostCaps = host.capabilities)
    (hversion' : deviceVersion = device.build.version)
    (hcaps' : deviceCaps = device.capabilities)
    (hprotocol : host.build.negotiatedVersion deviceVersion = some hostSide.protocol)
    (hcapabilities : hostSide.capabilities = deviceCaps &&& host.capabilities)
    (hprotocol' : device.build.negotiatedVersion hostVersion = some deviceSide.protocol)
    (hcapabilities' : deviceSide.capabilities = device.capabilities &&& hostCaps) :
    (hostSide.protocol = agreedVersion host.build device.build ∧
      deviceSide.protocol = agreedVersion host.build device.build) ∧
      hostSide.capabilities = host.capabilities &&& device.capabilities ∧
      deviceSide.capabilities = host.capabilities &&& device.capabilities := by
  rw [hversion', negotiatedVersion_version] at hprotocol
  obtain ⟨hmajor, hprotocol⟩ := hprotocol
  rw [hversion, negotiatedVersion_version, agreedVersion_comm hmajor] at hprotocol'
  refine ⟨⟨hprotocol, hprotocol'.2⟩, ?_, ?_⟩
  · rw [hcapabilities, hcaps', UInt64.and_comm]
  · rw [hcapabilities', hcaps, UInt64.and_comm]

theorem outbound_agreement (hhost : host.security = .secure)
    (hdevice : device.security = .secure) (hcodecs : Interoperable host.codecs device.codecs)
    (hhostSide : Returns (acceptDevice host) hostLink hostSide hostLink')
    (hdeviceSide : Returns (serveOutbound device) deviceLink deviceSide deviceLink')
    (hauthentic : ∀ state state', hostSide.noise = some state →
      deviceSide.noise = some state' → Authentic state state') :
    Agreement host device hostSide deviceSide := by
  obtain ⟨hhello, _, _, hack'⟩ := hcodecs
  obtain ⟨hostId, frame, hello, ack, payload, hhostId, hfinished, hencode, hversion, hcaps,
    hdecode, hprotocol, hcapabilities⟩ := acceptDevice_finished hhost hhostSide
  obtain ⟨frame', ack', hello', payload', hfinished', hencode', hversion', hcaps',
    hdecode', hprotocol', hcapabilities'⟩ := serveOutbound_finished hdevice hdeviceSide
  obtain ⟨⟨hpeer, hpeer'⟩, hsecret, hmajor, rfl, rfl⟩ :=
    hfinished.agree (by decide) hfinished' hauthentic
  obtain rfl := hhello.eq hencode' hdecode
  obtain rfl := hack'.eq hencode hdecode'
  obtain ⟨⟨hboth, hboth'⟩, hcommon, hcommon'⟩ := both_negotiated hversion hcaps hversion' hcaps'
    hprotocol hcapabilities hprotocol' hcapabilities'
  exact ⟨hpeer, hpeer' ▸ hhostId, hsecret, hmajor.symm, hboth, hboth', hcommon, hcommon'⟩

theorem inbound_agreement (hhost : host.security = .secure)
    (hdevice : device.security = .secure) (hcodecs : Interoperable host.codecs device.codecs)
    (hhostSide : Returns (connectDevice host) hostLink hostSide hostLink')
    (hdeviceSide : Returns (serveInbound device) deviceLink deviceSide deviceLink')
    (hauthentic : ∀ state state', hostSide.noise = some state →
      deviceSide.noise = some state' → Authentic state state') :
    Agreement host device hostSide deviceSide := by
  obtain ⟨_, hhello', hack, _⟩ := hcodecs
  obtain ⟨hostId, frame, ack, hello, payload, hhostId, hfinished, hencode, hversion, hcaps,
    hdecode, hprotocol, hcapabilities⟩ := connectDevice_finished hhost hhostSide
  obtain ⟨frame', hello', ack', payload', hfinished', hencode', hversion', hcaps',
    hdecode', hprotocol', hcapabilities'⟩ := serveInbound_finished hdevice hdeviceSide
  obtain ⟨⟨hpeer, hpeer'⟩, hsecret, hmajor, rfl, rfl⟩ :=
    hfinished.agree (by decide) hfinished' hauthentic
  obtain rfl := hack.eq hencode' hdecode
  obtain rfl := hhello'.eq hencode hdecode'
  obtain ⟨⟨hboth, hboth'⟩, hcommon, hcommon'⟩ := both_negotiated hversion hcaps hversion' hcaps'
    hprotocol hcapabilities hprotocol' hcapabilities'
  exact ⟨hpeer, hpeer' ▸ hhostId, hsecret, hmajor.symm, hboth, hboth', hcommon, hcommon'⟩

end Agreement

/-- Whatever is read before the Noise handshake, two ends that finish agree. -/
theorem session_agreement (host : Host Handshake Cipher) (device : Device Handshake Cipher)
    (hhost : host.security = .secure) (hdevice : device.security = .secure)
    (hcodecs : Interoperable host.codecs device.codecs) (connector : Connector)
    {hostSide : DeviceIdentity Cipher} {deviceSide : HostIdentity Cipher}
    {hostLink hostLink' deviceLink deviceLink' : Link}
    (hhostSide : Returns (hostHandshake connector host) hostLink hostSide hostLink')
    (hdeviceSide : Returns (deviceHandshake connector device) deviceLink deviceSide deviceLink')
    (hauthentic : ∀ state state', hostSide.noise = some state →
      deviceSide.noise = some state' → Authentic state state') :
    Agreement host device hostSide deviceSide := by
  cases connector with
  | device => exact outbound_agreement hhost hdevice hcodecs hhostSide hdeviceSide hauthentic
  | host => exact inbound_agreement hhost hdevice hcodecs hhostSide hdeviceSide hauthentic

end SideWire.SessionAgreement
