import SideWire.SessionAgreement

namespace SideWire.HonestSession

open SideWire.ByteString
open SideWire.ByteLink
open SideWire.FrameCodec
open SideWire.PairingStore
open SideWire.RecordLayer
open SideWire.RecordSequences
open SideWire.FrameTransport
open SideWire.Security
open SideWire.SecurityHandshake
open SideWire.SessionHandshake
open SideWire.SessionAgreement

variable {Handshake Cipher : Type}

/-- The Noise messages of two ends with the same keys, and the ciphers they end with. -/
structure Completes (initiatorSnow responderSnow : Snow Handshake Cipher) (psk : Key)
    (prologue first second : Bytes) (initiator responder : Cipher) : Prop where
  first_le : first.length ≤ maxPacket
  second_le : second.length ≤ maxPacket
  initiates : ∃ start middle last,
    initiatorSnow.build ⟨.initiator, psk, prologue⟩ = .ok start ∧
    initiatorSnow.writeHandshake start 65535 = .ok (first, middle) ∧
    initiatorSnow.readHandshake middle second 65535 = .ok last ∧
    initiatorSnow.intoTransportMode last = .ok initiator
  responds : ∃ start middle last,
    responderSnow.build ⟨.responder, psk, prologue⟩ = .ok start ∧
    responderSnow.readHandshake start first 65535 = .ok middle ∧
    responderSnow.writeHandshake middle 65535 = .ok (second, last) ∧
    responderSnow.intoTransportMode last = .ok responder

section Noise

variable {initiatorSnow responderSnow : Snow Handshake Cipher} {psk : Key}
  {prologue first second : Bytes} {initiator responder : Cipher}

theorem exchanges_noiseInitiator
    (h : Completes initiatorSnow responderSnow psk prologue first second initiator responder) :
    Exchanges (noiseInitiator initiatorSnow psk prologue) (packet second ++ [])
      (packet first ++ []) ⟨⟨.initiator, psk, prologue⟩, [], [], initiator⟩ := by
  obtain ⟨start, middle, last, hbuild, hwrite, hread, hcipher⟩ := h.initiates
  apply Exchanges.after_attempt hbuild
  apply Exchanges.after_attempt hwrite
  apply Exchanges.after_write (writes_writeRawPacket h.first_le)
  apply Exchanges.after_read (reads_readRawPacketInto h.second_le [])
  apply Exchanges.after_attempt hread
  apply Exchanges.after_attempt hcipher
  exact exchanges_pure _

theorem exchanges_noiseResponder
    (h : Completes initiatorSnow responderSnow psk prologue first second initiator responder) :
    Exchanges (noiseResponder responderSnow psk prologue) (packet first ++ [])
      (packet second ++ []) ⟨⟨.responder, psk, prologue⟩, [], [], responder⟩ := by
  obtain ⟨start, middle, last, hbuild, hread, hwrite, hcipher⟩ := h.responds
  apply Exchanges.after_attempt hbuild
  apply Exchanges.after_read (reads_readRawPacketInto h.first_le [])
  apply Exchanges.after_attempt hread
  apply Exchanges.after_attempt hwrite
  apply Exchanges.after_write (writes_writeRawPacket h.second_le)
  apply Exchanges.after_attempt hcipher
  exact exchanges_pure _

theorem exchanges_secureNoise {build : Build}
    {handshake : Key → Bytes → Io String (TransportState Cipher)}
    {peerVersion version : UInt16} (hversion : build.negotiatedVersion peerVersion = some version)
    {initiatorId responderId : DeviceId} {input output : Bytes} {noise : TransportState Cipher}
    (h : Exchanges (handshake psk (securityPrologue version initiatorId responderId))
      input output noise) :
    Exchanges (secureNoise build handshake (some psk) peerVersion initiatorId responderId)
      (input ++ []) (output ++ []) (some noise) := by
  apply Exchanges.after_attempt (context_eq_ok.mpr hversion)
  exact h.bind (exchanges_pure _)

end Noise

theorem reads_requireSecret {stored : Except String (Option Key)} {key : Key}
    (h : stored = .ok (some key)) (unpaired : Io String (Option Key)) :
    Reads (requireSecret .secure stored unpaired) [] (some key) := by
  subst h
  exact .pure _

/-- `value` can be told in a packet. -/
structure Conveys {α : Type} (writer reader : Codec α) (value : α) (bytes : Bytes) : Prop where
  encodes : writer.encode value = .ok bytes
  decodes : reader.decode bytes = .ok value
  length_le : bytes.length ≤ maxPacket

section Conveys

variable {α : Type} {writer reader : Codec α} {value : α} {bytes : Bytes}

theorem Conveys.writes (h : Conveys writer reader value bytes) :
    Writes (writePacket writer value) (packet bytes) () := by
  rw [← List.nil_append (packet bytes)]
  exact (writes_attempt h.encodes).bind (writes_writeRawPacket h.length_le)

theorem Conveys.reads (h : Conveys writer reader value bytes) :
    Reads (readPacket reader) (packet bytes) value := by
  rw [← List.append_nil (packet bytes)]
  exact (reads_readRawPacketInto h.length_le []).bind (reads_attempt h.decodes)

end Conveys

/-- Host and device have paired and can talk to each other. -/
structure Acquainted (host : Host Handshake Cipher) (device : Device Handshake Cipher)
    (hostId : DeviceId) (key : Key) : Prop where
  hostSecure : host.security = .secure
  deviceSecure : device.security = .secure
  major : host.build.protocolMajor = device.build.protocolMajor
  identity : host.trust.hostId = .ok hostId
  hostSecret : host.trust.deviceSecret device.deviceId = .ok (some key)
  deviceSecret : pairedHostSecret device.pairsDir hostId = .ok (some key)

section Security

variable {host : Host Handshake Cipher} {device : Device Handshake Cipher} {hostId : DeviceId}
  {key : Key} {bannerBytes helloBytes okBytes first second : Bytes}
  {initiator responder : Cipher}

/-- The prologue of a connection that the device makes. -/
def outboundPrologue (host : Host Handshake Cipher) (device : Device Handshake Cipher)
    (hostId : DeviceId) : Bytes :=
  securityPrologue (agreedVersion host.build device.build) device.deviceId hostId

/-- The packets of a secured connection that the device makes. -/
structure OutboundPackets (host : Host Handshake Cipher) (device : Device Handshake Cipher)
    (hostId : DeviceId) (key : Key) (bannerBytes helloBytes okBytes first second : Bytes)
    (initiator responder : Cipher) : Prop where
  banner : Conveys host.codecs.banner device.codecs.banner
    ⟨hostId, .secure, host.build.version⟩ bannerBytes
  hello : Conveys device.codecs.clientHello host.codecs.clientHello
    ⟨device.deviceId, .secure, device.build.version⟩ helloBytes
  decision : Conveys host.codecs.decision device.codecs.decision ⟨true, "ok"⟩ okBytes
  noise : Completes device.snow host.snow key (outboundPrologue host device hostId) first second
    initiator responder

theorem exchanges_acceptSecurity (h : Acquainted host device hostId key)
    (hpackets : OutboundPackets host device hostId key bannerBytes helloBytes okBytes first
      second initiator responder) :
    Exchanges (acceptSecurity host.toEndpoint host.trust)
      (packet helloBytes ++ packet first)
      (packet bannerBytes ++ (packet okBytes ++ packet second))
      ⟨device.deviceId, some ⟨⟨.responder, key, outboundPrologue host device hostId⟩, [], [],
        responder⟩, some key⟩ := by
  have hversion : host.build.negotiatedVersion device.build.version =
      some (agreedVersion host.build device.build) :=
    negotiatedVersion_version.mpr ⟨h.major.symm, rfl⟩
  have hcompatible : ¬ host.build.protocolCompatible device.build.version = false := by
    simp [protocolCompatible_version, h.major]
  have hnoise := exchanges_secureNoise hversion (exchanges_noiseResponder hpackets.noise)
  rw [acceptSecurity, h.hostSecure]
  apply Exchanges.of_eq
  · apply Exchanges.after_attempt h.identity
    apply Exchanges.after_write hpackets.banner.writes
    apply Exchanges.after_read hpackets.hello.reads
    apply Exchanges.else_branch hcompatible
    apply Exchanges.else_branch (by simp)
    apply Exchanges.after_read (reads_requireSecret h.hostSecret _)
    apply Exchanges.after_write hpackets.decision.writes
    exact hnoise.bind (exchanges_pure _)
  · simp
  · simp

theorem exchanges_connectConnection (h : Acquainted host device hostId key)
    (hpackets : OutboundPackets host device hostId key bannerBytes helloBytes okBytes first
      second initiator responder) :
    Exchanges (connectConnection device.toEndpoint device.deviceId device.pairsDir)
      (packet bannerBytes ++ (packet okBytes ++ packet second))
      (packet helloBytes ++ packet first)
      ⟨hostId, some ⟨⟨.initiator, key, outboundPrologue host device hostId⟩, [], [],
        initiator⟩, some key⟩ := by
  have hversion : device.build.negotiatedVersion host.build.version =
      some (agreedVersion host.build device.build) :=
    negotiatedVersion_version.mpr ⟨h.major, (agreedVersion_comm h.major.symm).symm⟩
  have hcompatible : ¬ device.build.protocolCompatible host.build.version = false := by
    simp [protocolCompatible_version, h.major]
  have hnoise := exchanges_secureNoise hversion (exchanges_noiseInitiator hpackets.noise)
  rw [connectConnection, h.deviceSecure]
  apply Exchanges.of_eq
  · apply Exchanges.after_read hpackets.banner.reads
    apply Exchanges.else_branch hcompatible
    apply Exchanges.else_branch (by simp)
    apply Exchanges.after_write hpackets.hello.writes
    apply Exchanges.after_read hpackets.decision.reads
    apply Exchanges.else_branch (by simp)
    apply Exchanges.after_read (reads_requireSecret h.deviceSecret _)
    exact hnoise.bind (exchanges_pure _)
  · simp
  · simp

end Security

theorem writes_sendMessage {α : Type} {endpoint : Endpoint Handshake Cipher} {codec : Codec α}
    {message : α} {payload piece : Bytes} {kind : FrameKind}
    {sender sender' : Option (TransportState Cipher)}
    (hencode : codec.encode message = .ok payload)
    (hwrite : Writes (writeRaw endpoint.snow endpoint.build sender kind 0 payload) piece
      sender') :
    Writes (sendMessage endpoint codec sender kind message) piece sender' := by
  rw [← List.nil_append piece]
  exact (writes_attempt hencode).bind hwrite

theorem reads_receiveFrame {endpoint : Endpoint Handshake Cipher}
    {receiver receiver' : Option (TransportState Cipher)} {frame : Frame} {piece : Bytes}
    (h : ∀ encrypted plaintext, ∃ next : SecureFrameReader Cipher, next.noise = receiver' ∧
      Reads (SecureFrameReader.readFrame endpoint.snow endpoint.build
        ⟨receiver, encrypted, plaintext⟩) piece (frame, next)) :
    Reads (receiveFrame endpoint receiver) piece (frame, receiver') := by
  obtain ⟨next, rfl, hread⟩ := h [] []
  rw [← List.append_nil piece]
  exact hread.bind (.pure _)

section Session

variable {host : Host Handshake Cipher} {device : Device Handshake Cipher} {hostId : DeviceId}
  {key : Key} {bannerBytes helloBytes okBytes first second : Bytes}
  {initiator responder : Cipher}

/-- The Hello of a device that connects. -/
def deviceHello (device : Device Handshake Cipher) : Hello :=
  ⟨some device.deviceId, device.name, .device, device.build.version, device.capabilities⟩

/-- The answer of the host. -/
def hostAck (host : Host Handshake Cipher) : HelloAck :=
  ⟨none, "sidewire-server".toList, host.os, host.arch, host.build.version, host.capabilities⟩

/-- What the two ends return. -/
def hostOutcome (host : Host Handshake Cipher) (device : Device Handshake Cipher) (key : Key)
    (noise : TransportState Cipher) : DeviceIdentity Cipher :=
  ⟨device.deviceId, device.name, .secure, some noise, some key,
    device.capabilities &&& host.capabilities, agreedVersion host.build device.build⟩

def deviceOutcome (host : Host Handshake Cipher) (device : Device Handshake Cipher)
    (hostId : DeviceId) (key : Key) (noise : TransportState Cipher) : HostIdentity Cipher :=
  ⟨hostId, some noise, some key, device.capabilities &&& host.capabilities,
    agreedVersion host.build device.build⟩

theorem exchanges_acceptDevice (h : Acquainted host device hostId key)
    (hpackets : OutboundPackets host device hostId key bannerBytes helloBytes okBytes first
      second initiator responder)
    (hcore : ¬ device.capabilities &&& host.capabilities &&& Capabilities.core = 0)
    {helloPayload ackPayload helloPiece ackPiece : Bytes} {middle last : TransportState Cipher}
    (hdecode : host.codecs.hello.decode helloPayload = .ok (deviceHello device))
    (hread : Reads (receiveFrame host.toEndpoint
      (some ⟨⟨.responder, key, outboundPrologue host device hostId⟩, [], [], responder⟩))
      helloPiece (⟨.hello, 0, helloPayload⟩, some middle))
    (hencode : host.codecs.helloAck.encode (hostAck host) = .ok ackPayload)
    (hwrite : Writes (writeRaw host.snow host.build (some middle) .helloAck 0 ackPayload)
      ackPiece (some last)) :
    Exchanges (acceptDevice host) (packet helloBytes ++ packet first ++ helloPiece)
      (packet bannerBytes ++ (packet okBytes ++ packet second) ++ ackPiece)
      (hostOutcome host device key last) := by
  have hversion : host.build.negotiatedVersion device.build.version =
      some (agreedVersion host.build device.build) :=
    negotiatedVersion_version.mpr ⟨h.major.symm, rfl⟩
  rw [acceptDevice, h.hostSecure]
  apply Exchanges.of_eq
  · apply (exchanges_acceptSecurity h hpackets).bind
    apply Exchanges.after_read hread
    apply Exchanges.else_branch (by simp)
    apply Exchanges.after_attempt hdecode
    apply Exchanges.after_attempt (context_eq_ok.mpr hversion)
    apply Exchanges.else_branch hcore
    apply Exchanges.after_attempt (context_eq_ok.mpr rfl)
    apply Exchanges.else_branch (by simp)
    apply Exchanges.after_write (writes_sendMessage hencode hwrite)
    exact exchanges_pure _
  · simp
  · simp

theorem exchanges_serveOutbound (h : Acquainted host device hostId key)
    (hpackets : OutboundPackets host device hostId key bannerBytes helloBytes okBytes first
      second initiator responder)
    (hcore : ¬ host.capabilities &&& Capabilities.core = 0)
    {helloPayload ackPayload helloPiece ackPiece : Bytes} {middle last : TransportState Cipher}
    (hencode : device.codecs.hello.encode (deviceHello device) = .ok helloPayload)
    (hwrite : Writes (writeRaw device.snow device.build
      (some ⟨⟨.initiator, key, outboundPrologue host device hostId⟩, [], [], initiator⟩)
      .hello 0 helloPayload) helloPiece (some middle))
    (hread : Reads (receiveFrame device.toEndpoint (some middle)) ackPiece
      (⟨.helloAck, 0, ackPayload⟩, some last))
    (hdecode : device.codecs.helloAck.decode ackPayload = .ok (hostAck host)) :
    Exchanges (serveOutbound device)
      (packet bannerBytes ++ (packet okBytes ++ packet second) ++ ackPiece)
      (packet helloBytes ++ packet first ++ helloPiece)
      (deviceOutcome host device hostId key last) := by
  have hversion : device.build.negotiatedVersion host.build.version =
      some (agreedVersion host.build device.build) :=
    negotiatedVersion_version.mpr ⟨h.major, (agreedVersion_comm h.major.symm).symm⟩
  rw [serveOutbound]
  apply Exchanges.of_eq
  · apply (exchanges_connectConnection h hpackets).bind
    apply Exchanges.after_write (writes_sendMessage hencode hwrite)
    apply Exchanges.after_read hread
    apply Exchanges.else_branch (by simp)
    apply Exchanges.after_attempt hdecode
    apply Exchanges.after_attempt (context_eq_ok.mpr hversion)
    apply Exchanges.else_branch hcore
    exact exchanges_pure _
  · simp
  · simp

end Session

section Clear

/-- Without secrecy, both handshake messages are the secret and the prologue. -/
theorem completes_clearSnow (psk : Key) (prologue : Bytes)
    (hlen : (psk.toList ++ prologue).length ≤ maxPacket) :
    Completes clearSnow clearSnow psk prologue (psk.toList ++ prologue)
      (psk.toList ++ prologue) () () where
  first_le := hlen
  second_le := hlen
  initiates := ⟨_, _, ⟨.initiator, psk, prologue⟩, rfl, rfl, if_pos rfl, rfl⟩
  responds := ⟨_, ⟨.responder, psk, prologue⟩, _, rfl, if_pos rfl, rfl, rfl⟩

theorem exists_two_frames {writer reader : Build}
    (hmajor : writer.protocolMajor = reader.protocolMajor) (frame frame' : Frame)
    (hsize : frame.payload.length ≤ maxPayload) (hsize' : frame'.payload.length ≤ maxPayload)
    (sender receiver : TransportState Unit) :
    ∃ sender' receiver' sender'' receiver'' piece piece' records records',
      Carries clearSnow writer reader (some sender) (some receiver) (some sender')
        (some receiver') frame piece ∧
      Carries clearSnow reader writer (some receiver') (some sender') (some receiver'')
        (some sender'') frame' piece' ∧
      Logged records sender receiver sender' receiver' ∧
      Logged records' receiver' sender' receiver'' sender'' := by
  obtain ⟨sender', receiver', piece, records, hcarries, hlogged, _⟩ :=
    carries_encrypted hmajor hsize (inStep_clearSnow (recordCount frame + 0))
  obtain ⟨receiver'', sender'', piece', records', hcarries', hlogged', _⟩ :=
    carries_encrypted hmajor.symm hsize' (inStep_clearSnow (recordCount frame' + 0))
  exact ⟨sender', receiver', sender'', receiver'', piece, piece', records, records', hcarries,
    hcarries', hlogged, hlogged'⟩

variable {host : Host Keying Unit} {device : Device Keying Unit} {hostId : DeviceId}
  {key : Key} {bannerBytes helloBytes okBytes first second : Bytes}

/-- Without secrecy, but with the same secret, both ends finish and have only what the
other has sent. -/
theorem outbound_session_finishes (hhost : host.snow = clearSnow)
    (hdevice : device.snow = clearSnow) (h : Acquainted host device hostId key)
    (hpackets : OutboundPackets host device hostId key bannerBytes helloBytes okBytes first
      second () ())
    (hcore : ¬ device.capabilities &&& host.capabilities &&& Capabilities.core = 0)
    (hcore' : ¬ host.capabilities &&& Capabilities.core = 0)
    {helloPayload ackPayload : Bytes}
    (hhello : Conveys device.codecs.hello host.codecs.hello (deviceHello device) helloPayload)
    (hack : Conveys host.codecs.helloAck device.codecs.helloAck (hostAck host) ackPayload) :
    ∃ hostSide deviceSide hostLink hostLink' deviceLink deviceLink',
      Returns (acceptDevice host) hostLink hostSide hostLink' ∧
      Returns (serveOutbound device) deviceLink deviceSide deviceLink' ∧
      ∀ state state', hostSide.noise = some state → deviceSide.noise = some state' →
        Authentic state state' := by
  have hfits : maxPacket ≤ maxPayload := by decide
  obtain ⟨sender', receiver', sender'', receiver'', piece, piece', records, records', hcarries,
    hcarries', hlogged, hlogged'⟩ := exists_two_frames h.major.symm
      ⟨.hello, 0, helloPayload⟩ ⟨.helloAck, 0, ackPayload⟩
      (hhello.length_le.trans hfits) (hack.length_le.trans hfits)
      ⟨⟨.initiator, key, outboundPrologue host device hostId⟩, [], [], ()⟩
      ⟨⟨.responder, key, outboundPrologue host device hostId⟩, [], [], ()⟩
  have hhostSide := exchanges_acceptDevice h hpackets hcore hhello.decodes
    (reads_receiveFrame (hhost.symm ▸ hcarries.reads)) hack.encodes
    (hhost.symm ▸ hcarries'.writes)
  have hdeviceSide := exchanges_serveOutbound h hpackets hcore' hhello.encodes
    (hdevice.symm ▸ hcarries.writes) (reads_receiveFrame (hdevice.symm ▸ hcarries'.reads))
    hack.decodes
  have haccepts : ∀ incoming, (⟨incoming, [], fun _ => some 1⟩ : Link).Accepting :=
    fun _ _ => ⟨0, rfl⟩
  obtain ⟨hostLink', hhostReturns, _⟩ := hhostSide ⟨_, [], fun _ => some 1⟩ [] (haccepts _) rfl
  obtain ⟨deviceLink', hdeviceReturns, _⟩ :=
    hdeviceSide ⟨_, [], fun _ => some 1⟩ [] (haccepts _) rfl
  refine ⟨_, _, _, _, _, _, hhostReturns, hdeviceReturns, ?_⟩
  rintro state state' ⟨⟩ ⟨⟩
  refine ⟨?_, ?_, ?_, ?_⟩
  · rw [hlogged'.senderKeying, hlogged'.receiverKeying, hlogged.receiverKeying,
      hlogged.senderKeying]
  · rw [hlogged'.senderKeying, hlogged'.receiverKeying, hlogged.receiverKeying,
      hlogged.senderKeying]
  · simp only [hlogged'.senderReceived, hlogged'.receiverSent, hlogged.received, hlogged.sent,
      List.prefix_rfl]
  · simp only [hlogged'.sent, hlogged'.received, hlogged.senderReceived, hlogged.receiverSent,
      List.prefix_rfl]

end Clear

/-! A pair that has stored the key of zeros, and knows one message of each type. -/

def singleCodec {α : Type} [DecidableEq α] (value : α) : Codec α where
  encode message := if message = value then .ok [1] else .error "unknown message"
  decode bytes := if bytes = [1] then .ok value else .error "unknown bytes"

theorem conveys_singleCodec {α : Type} [DecidableEq α] (value : α) :
    Conveys (singleCodec value) (singleCodec value) value [1] :=
  ⟨by simp [singleCodec], by simp [singleCodec], by decide⟩

theorem understands_singleCodec {α : Type} [DecidableEq α] (value : α) :
    (singleCodec value).Understands (singleCodec value) := by
  intro message bytes hencode
  simp only [singleCodec] at hencode ⊢
  split_ifs at hencode with hmessage
  rw [← Except.ok.inj hencode, if_pos rfl, hmessage]

def zeroKey : Key := Vector.replicate 32 0
def pairHostId : DeviceId := Vector.replicate 16 1
def pairDeviceId : DeviceId := Vector.replicate 16 2

def pairHello : Hello :=
  ⟨some pairDeviceId, "phone".toList, .device, currentBuild.version, daemonCapabilities false⟩

def pairAck : HelloAck :=
  ⟨none, "sidewire-server".toList, "linux".toList, "x86_64".toList, currentBuild.version,
    Capabilities.all⟩

def pairCodecs : Codecs where
  banner := singleCodec ⟨pairHostId, .secure, currentBuild.version⟩
  clientHello := singleCodec ⟨pairDeviceId, .secure, currentBuild.version⟩
  decision := singleCodec ⟨true, "ok"⟩
  hello := singleCodec pairHello
  helloAck := singleCodec pairAck

def pairTrust : Trust where
  storeForId := .ok ⟨some pairHostId, fun _ => none⟩
  storeForSecret := .ok ⟨some pairHostId, fun _ =>
    some ⟨pairDeviceId, "phone".toList, List.replicate 64 '0'⟩⟩
  randomId := pairHostId
  saveStore _ := .ok ()

def pairHost : Host Keying Unit where
  snow := clearSnow
  codecs := pairCodecs
  build := currentBuild
  security := .secure
  trust := pairTrust
  capabilities := Capabilities.all
  os := "linux".toList
  arch := "x86_64".toList

def pairDevice : Device Keying Unit where
  snow := clearSnow
  codecs := pairCodecs
  build := currentBuild
  security := .secure
  deviceId := pairDeviceId
  name := "phone".toList
  pairsDir := some fun _ => some (.ok ("secret=".toList ++ List.replicate 64 '0'))
  capabilities := daemonCapabilities false
  os := "android".toList
  arch := "aarch64".toList

theorem pair_acquainted : Acquainted pairHost pairDevice pairHostId zeroKey where
  hostSecure := rfl
  deviceSecure := rfl
  major := rfl
  identity := rfl
  hostSecret := by decide
  deviceSecret := by decide

theorem pair_completes :
    Completes pairDevice.snow pairHost.snow zeroKey
      (outboundPrologue pairHost pairDevice pairHostId)
      (zeroKey.toList ++ outboundPrologue pairHost pairDevice pairHostId)
      (zeroKey.toList ++ outboundPrologue pairHost pairDevice pairHostId) () () :=
  completes_clearSnow zeroKey _ (by decide +kernel)

theorem session_agreement_pair :
    ∃ hostSide deviceSide, Agreement pairHost pairDevice hostSide deviceSide := by
  obtain ⟨hostSide, deviceSide, hostLink, hostLink', deviceLink, deviceLink', hhost, hdevice,
    hauthentic⟩ := outbound_session_finishes rfl rfl pair_acquainted
      ⟨conveys_singleCodec _, conveys_singleCodec _, conveys_singleCodec _, pair_completes⟩
      (by decide) (by decide) (conveys_singleCodec pairHello) (conveys_singleCodec pairAck)
  exact ⟨hostSide, deviceSide, session_agreement pairHost pairDevice rfl rfl
    ⟨understands_singleCodec _, understands_singleCodec _, understands_singleCodec _,
      understands_singleCodec _⟩ .device hhost hdevice hauthentic⟩

end SideWire.HonestSession
