import SideWire.SessionAgreement
import SideWire.FrameTransport

namespace SideWire.ClearHandshake

open SideWire.ByteString
open SideWire.ByteLink
open SideWire.FrameCodec
open SideWire.PairingStore
open SideWire.RecordLayer
open SideWire.FrameTransport
open SideWire.Security
open SideWire.SecurityHandshake
open SideWire.SessionHandshake
open SideWire.SessionAgreement

variable {Handshake Cipher : Type}

/-- `rest` is what follows the next packet of `incoming`. -/
def AfterPacket (incoming rest : Bytes) : Prop :=
  ∃ header bytes : Bytes, header.length = 4 ∧ ofBigEndian header = bytes.length ∧
    incoming = header ++ bytes ++ rest

/-- The next frame of `incoming`, for a reader of some build. -/
def NextFrame (build : Build) (incoming : Bytes) (frame : Frame) : Prop :=
  ∃ link link', link.incoming = incoming ∧ Returns (readFrame build) link frame link'

theorem afterPacket_of_readPacket {α : Type} {codec : Codec α} {value : α}
    {link link' : Link} (h : Returns (readPacket codec) link value link') :
    AfterPacket link.incoming link'.incoming ∧ link'.outgoing = link.outgoing := by
  simp only [readPacket, readRawPacket, returns_bind, returns_readRawPacketInto,
    returns_attempt] at h
  obtain ⟨bytes, middle, ⟨_, header, hheader, hlen, hincoming, hmiddle⟩, _, rfl⟩ := h
  refine ⟨⟨header, bytes, hheader, hlen, hincoming⟩, ?_⟩
  rw [hmiddle]

theorem packet_of_writePacket {α : Type} {codec : Codec α} {value : α} {link link' : Link}
    (h : Returns (writePacket codec value) link () link') :
    ∃ bytes, bytes.length ≤ maxPacket ∧ link'.outgoing = link.outgoing ++ packet bytes ∧
      link'.incoming = link.incoming := by
  have hincoming := incoming_of_writePacket h
  simp only [writePacket, returns_bind, returns_attempt] at h
  obtain ⟨bytes, _, ⟨_, rfl⟩, hwrite⟩ := h
  by_cases hlarge : maxPacket < bytes.length
  · rw [writeRawPacket, if_pos hlarge] at hwrite
    exact (not_returns_fail hwrite).elim
  · have hle := Nat.le_of_not_lt hlarge
    exact ⟨bytes, hle, ((writes_writeRawPacket hle).of_returns hwrite).2.outgoing, hincoming⟩

theorem AfterPacket.eq {bytes tail rest : Bytes} (hle : bytes.length ≤ maxPacket)
    (h : AfterPacket (packet bytes ++ tail) rest) : rest = tail := by
  obtain ⟨header, bytes', hheader, hlen, hincoming⟩ := h
  have hfits : maxPacket < 256 ^ 4 := by decide
  rw [packet, List.append_assoc, List.append_assoc] at hincoming
  obtain ⟨rfl, hrest⟩ := List.append_inj hincoming
    ((length_bigEndian 4 bytes.length).trans hheader.symm)
  rw [ofBigEndian_bigEndian 4 bytes.length (by omega)] at hlen
  exact (List.append_inj hrest hlen).2.symm

theorem protocolMajor_of_decodeFrameHeader {writer reader : Build} {kind : FrameKind}
    {streamId : UInt32} {payloadLen : Nat} {header : Bytes}
    {decoded : FrameKind × UInt32 × Nat}
    (h : frameHeader writer kind streamId payloadLen = .ok header)
    (hdecode : decodeFrameHeader reader header = .ok decoded) :
    writer.protocolMajor = reader.protocolMajor := by
  obtain ⟨_, rfl⟩ := frameHeader_eq_ok_iff.mp h
  have hversion := ofBigEndian_bigEndian 2 writer.version.toNat writer.version.toNat_lt
  simp only [decodeFrameHeader, magic, bigEndian, List.cons_append, List.nil_append,
    List.take_succ_cons, List.take_zero, List.drop_succ_cons, List.drop_zero,
    ne_eq, not_true_eq_false, if_false] at hversion hdecode
  rw [hversion, UInt16.ofNat_toNat] at hdecode
  cases hcompatible : reader.protocolCompatible writer.version with
  | true => exact protocolCompatible_version.mp hcompatible
  | false => simp [hcompatible] at hdecode

theorem NextFrame.eq {writer reader : Build} {kind : FrameKind} {payload header tail : Bytes}
    {frame : Frame} (hheader : frameHeader writer kind 0 payload.length = .ok header)
    (h : NextFrame reader (header ++ payload ++ tail) frame) :
    frame = ⟨kind, 0, payload⟩ ∧ writer.protocolMajor = reader.protocolMajor := by
  obtain ⟨link, link', hincoming, hread⟩ := h
  have hmajor : writer.protocolMajor = reader.protocolMajor := by
    simp only [readFrame, returns_bind, returns_readExact, returns_attempt] at hread
    obtain ⟨header', _, ⟨hlen, hsplit, _⟩, decoded, _, ⟨hdecode, _⟩, _⟩ := hread
    rw [hincoming, List.append_assoc] at hsplit
    obtain ⟨rfl, _⟩ := List.append_inj hsplit ((length_frameHeader hheader).trans hlen.symm)
    exact protocolMajor_of_decodeFrameHeader hheader hdecode
  have hsent := @reads_readFrame writer reader ⟨kind, 0, payload⟩ header hmajor hheader
  exact ⟨(hread.unique (hsent link tail hincoming)).1, hmajor⟩

section Clear

variable {endpoint : Endpoint Handshake Cipher} {link link' : Link}

theorem frame_of_sendMessage {α : Type} {codec : Codec α} {kind : FrameKind} {message : α}
    {noise' : Option (TransportState Cipher)}
    (h : Returns (sendMessage endpoint codec none kind message) link noise' link') :
    ∃ payload header, codec.encode message = .ok payload ∧
      frameHeader endpoint.build kind 0 payload.length = .ok header ∧ noise' = none ∧
      link'.outgoing = link.outgoing ++ (header ++ payload) ∧
      link'.incoming = link.incoming := by
  simp only [sendMessage, writeRaw, returns_bind, returns_attempt, returns_pure] at h
  obtain ⟨payload, _, ⟨hencode, rfl⟩, _, _, hwrite, rfl, rfl⟩ := h
  cases hheader : frameHeader endpoint.build kind 0 payload.length with
  | error message =>
      rw [writeRawFrame, hheader, returns_bind] at hwrite
      obtain ⟨_, _, hraised, _⟩ := hwrite
      exact (not_returns_fail hraised).elim
  | ok header =>
      have hwrites := @writes_writeRawFrame endpoint.build ⟨kind, 0, payload⟩ header hheader
      have hwrote := (hwrites.of_returns hwrite).2
      exact ⟨payload, header, hencode, hheader, rfl, hwrote.outgoing, hwrote.incoming⟩

theorem outgoing_of_readFrame {build : Build} {frame : Frame}
    (h : Returns (readFrame build) link frame link') : link'.outgoing = link.outgoing := by
  simp only [readFrame, returns_bind, returns_readExact, returns_attempt, returns_pure] at h
  obtain ⟨_, first, ⟨_, _, hfirst⟩, _, second, ⟨_, rfl⟩, _, third, ⟨_, _, hthird⟩, _, rfl⟩ := h
  rw [hthird, hfirst]

theorem nextFrame_of_receiveFrame {frame : Frame} {noise' : Option (TransportState Cipher)}
    (h : Returns (receiveFrame endpoint none) link (frame, noise') link') :
    NextFrame endpoint.build link.incoming frame ∧ noise' = none ∧
      link'.outgoing = link.outgoing := by
  simp only [receiveFrame, SecureFrameReader.new, SecureFrameReader.readFrame, returns_bind,
    returns_pure] at h
  obtain ⟨_, _, ⟨frame', _, hread, rfl, rfl⟩, heq, rfl⟩ := h
  obtain ⟨rfl, rfl⟩ := Prod.mk.inj heq
  exact ⟨⟨_, _, rfl, hread⟩, rfl, outgoing_of_readFrame hread⟩

theorem requireSecret_insecure (hclear : endpoint.security = .insecure)
    {stored : Except String (Option Key)} {unpaired : Io String (Option Key)}
    {secret : Option Key}
    (h : Returns (requireSecret endpoint.security stored unpaired) link secret link') :
    secret = none ∧ link' = link := by
  rw [hclear] at h
  exact returns_pure.mp h

/-- The accepting end of an insecure connection, before any frame. -/
def Accepted (link link' : Link) (noise : Option (TransportState Cipher)) : Prop :=
  noise = none ∧ AfterPacket link.incoming link'.incoming ∧
    ∃ banner decision : Bytes, banner.length ≤ maxPacket ∧ decision.length ≤ maxPacket ∧
      link'.outgoing = link.outgoing ++ (packet banner ++ packet decision)

/-- The connecting end of an insecure connection, before any frame. -/
def Connected (link link' : Link) (noise : Option (TransportState Cipher)) : Prop :=
  noise = none ∧
    (∃ middle, AfterPacket link.incoming middle ∧ AfterPacket middle link'.incoming) ∧
    ∃ clientHello : Bytes, clientHello.length ≤ maxPacket ∧
      link'.outgoing = link.outgoing ++ packet clientHello

theorem accepted_of_packets {α β γ : Type} {bannerCodec : Codec α} {helloCodec : Codec β}
    {decisionCodec : Codec γ} {banner : α} {hello : β} {decision : γ} {first second : Link}
    (hbanner : Returns (writePacket bannerCodec banner) link () first)
    (hhello : Returns (readPacket helloCodec) first hello second)
    (hdecision : Returns (writePacket decisionCodec decision) second () link') :
    Accepted link link' (none : Option (TransportState Cipher)) := by
  obtain ⟨bannerBytes, hbannerLe, hbannerOut, hbannerIn⟩ := packet_of_writePacket hbanner
  obtain ⟨hhelloIn, hhelloOut⟩ := afterPacket_of_readPacket hhello
  obtain ⟨decisionBytes, hdecisionLe, hdecisionOut, hdecisionIn⟩ :=
    packet_of_writePacket hdecision
  refine ⟨rfl, ?_, bannerBytes, decisionBytes, hbannerLe, hdecisionLe, ?_⟩
  · rw [hdecisionIn, ← hbannerIn]
    exact hhelloIn
  · rw [hdecisionOut, hhelloOut, hbannerOut, List.append_assoc]

theorem connected_of_packets {α β γ : Type} {bannerCodec : Codec α} {helloCodec : Codec β}
    {decisionCodec : Codec γ} {banner : α} {hello : β} {decision : γ} {first second : Link}
    (hbanner : Returns (readPacket bannerCodec) link banner first)
    (hhello : Returns (writePacket helloCodec hello) first () second)
    (hdecision : Returns (readPacket decisionCodec) second decision link') :
    Connected link link' (none : Option (TransportState Cipher)) := by
  obtain ⟨hbannerIn, hbannerOut⟩ := afterPacket_of_readPacket hbanner
  obtain ⟨helloBytes, hle, hhelloOut, hhelloIn⟩ := packet_of_writePacket hhello
  obtain ⟨hdecisionIn, hdecisionOut⟩ := afterPacket_of_readPacket hdecision
  rw [hhelloIn] at hdecisionIn
  refine ⟨rfl, ⟨_, hbannerIn, hdecisionIn⟩, helloBytes, hle, ?_⟩
  rw [hdecisionOut, hhelloOut, hbannerOut]

theorem acceptSecurity_accepted (hclear : endpoint.security = .insecure) {trust : Trust}
    {secured : ConnectionSecurity Cipher}
    (h : Returns (acceptSecurity endpoint trust) link secured link') :
    Accepted link link' secured.noise := by
  simp only [acceptSecurity, returns_bind, returns_attempt] at h
  obtain ⟨hostId, _, ⟨_, rfl⟩, _, _, hbanner, hello, middle, hread, h⟩ := h
  split_ifs at h with hincompatible hmode
  · exact (not_returns_reject h).elim
  · exact (not_returns_reject h).elim
  · simp only [returns_bind, returns_pure] at h
    obtain ⟨secret, _, hsecret, _, _, hdecision, noise, _, hnoise, rfl, rfl⟩ := h
    obtain ⟨rfl, rfl⟩ := requireSecret_insecure hclear hsecret
    obtain ⟨rfl, rfl⟩ := returns_pure.mp hnoise
    exact accepted_of_packets hbanner hread hdecision

theorem acceptConnection_accepted (hclear : endpoint.security = .insecure)
    {deviceId : DeviceId} {pairsDir : Option PairsDir} {secured : ConnectionSecurity Cipher}
    (h : Returns (acceptConnection endpoint deviceId pairsDir) link secured link') :
    Accepted link link' secured.noise := by
  simp only [acceptConnection, returns_bind] at h
  obtain ⟨_, _, hbanner, hello, middle, hread, h⟩ := h
  split_ifs at h with hincompatible hmode
  · exact (not_returns_reject h).elim
  · exact (not_returns_reject h).elim
  · simp only [returns_bind, returns_pure] at h
    obtain ⟨secret, _, hsecret, _, _, hdecision, noise, _, hnoise, rfl, rfl⟩ := h
    obtain ⟨rfl, rfl⟩ := requireSecret_insecure hclear hsecret
    obtain ⟨rfl, rfl⟩ := returns_pure.mp hnoise
    exact accepted_of_packets hbanner hread hdecision

theorem connectSecurity_connected (hclear : endpoint.security = .insecure) {trust : Trust}
    {secured : ConnectionSecurity Cipher}
    (h : Returns (connectSecurity endpoint trust) link secured link') :
    Connected link link' secured.noise := by
  simp only [connectSecurity, returns_bind] at h
  obtain ⟨banner, _, hbanner, h⟩ := h
  split_ifs at h with hincompatible hmode
  · exact (not_returns_fail h).elim
  · exact (not_returns_fail h).elim
  · simp only [returns_bind, returns_attempt] at h
    obtain ⟨hostId, _, ⟨_, rfl⟩, secret, _, hsecret, _, _, hhello, decision, _, hdecision,
      h⟩ := h
    obtain ⟨rfl, rfl⟩ := requireSecret_insecure hclear hsecret
    split_ifs at h with haccepted
    · exact (not_returns_fail h).elim
    · simp only [returns_bind, returns_pure] at h
      obtain ⟨noise, _, hnoise, rfl, rfl⟩ := h
      obtain ⟨rfl, rfl⟩ := returns_pure.mp hnoise
      exact connected_of_packets hbanner hhello hdecision

theorem connectConnection_connected (hclear : endpoint.security = .insecure)
    {deviceId : DeviceId} {pairsDir : Option PairsDir} {secured : ConnectionSecurity Cipher}
    (h : Returns (connectConnection endpoint deviceId pairsDir) link secured link') :
    Connected link link' secured.noise := by
  simp only [connectConnection, returns_bind] at h
  obtain ⟨banner, _, hbanner, h⟩ := h
  split_ifs at h with hincompatible hmode
  · exact (not_returns_fail h).elim
  · exact (not_returns_fail h).elim
  · simp only [returns_bind] at h
    obtain ⟨_, _, hhello, decision, _, hdecision, h⟩ := h
    split_ifs at h with haccepted
    · exact (not_returns_fail h).elim
    · simp only [returns_bind, returns_pure] at h
      obtain ⟨secret, _, hsecret, noise, _, hnoise, rfl, rfl⟩ := h
      obtain ⟨rfl, rfl⟩ := requireSecret_insecure hclear hsecret
      obtain ⟨rfl, rfl⟩ := returns_pure.mp hnoise
      exact connected_of_packets hbanner hhello hdecision

end Clear

/-- The end that makes the connection: after its packets it writes a Hello with `payload`
and reads a frame. -/
structure Connecting (build : Build) (link link' : Link) (payload : Bytes) (received : Frame) :
    Prop where
  writes : ∃ clientHello header : Bytes, clientHello.length ≤ maxPacket ∧
    frameHeader build .hello 0 payload.length = .ok header ∧
    link'.outgoing = link.outgoing ++ (packet clientHello ++ (header ++ payload))
  reads : ∃ middle rest, AfterPacket link.incoming middle ∧ AfterPacket middle rest ∧
    NextFrame build rest received

/-- The end that accepts it: after its packets it reads a frame and writes a HelloAck with
`payload`. -/
structure Accepting (build : Build) (link link' : Link) (payload : Bytes) (received : Frame) :
    Prop where
  writes : ∃ banner decision header : Bytes, banner.length ≤ maxPacket ∧
    decision.length ≤ maxPacket ∧ frameHeader build .helloAck 0 payload.length = .ok header ∧
    link'.outgoing =
      link.outgoing ++ (packet banner ++ (packet decision ++ (header ++ payload)))
  reads : ∃ rest, AfterPacket link.incoming rest ∧ NextFrame build rest received

/-- What is read at `link` starts with what the peer writes from `peer` to `peer'`. -/
def Hears (link peer peer' : Link) : Prop :=
  ∃ written later : Bytes, peer'.outgoing = peer.outgoing ++ written ∧
    link.incoming = written ++ later

theorem Connecting.meets {build build' : Build} {link link' peer peer' : Link}
    {payload payload' : Bytes} {frame frame' : Frame}
    (h : Connecting build link link' payload frame)
    (h' : Accepting build' peer peer' payload' frame') (hears : Hears link peer peer')
    (heard : Hears peer link link') :
    frame = ⟨.helloAck, 0, payload'⟩ ∧ frame' = ⟨.hello, 0, payload⟩ ∧
      build.protocolMajor = build'.protocolMajor := by
  obtain ⟨clientHello, header, hhelloLe, hheader, hout⟩ := h.writes
  obtain ⟨banner, decision, header', hbannerLe, hdecisionLe, hheader', hout'⟩ := h'.writes
  obtain ⟨middle, rest, hbanner, hdecision, hframe⟩ := h.reads
  obtain ⟨rest', hhello, hframe'⟩ := h'.reads
  obtain ⟨written, later, hwritten, hincoming⟩ := hears
  obtain ⟨written', later', hwritten', hincoming'⟩ := heard
  obtain rfl := List.append_cancel_left (hout'.symm.trans hwritten)
  obtain rfl := List.append_cancel_left (hout.symm.trans hwritten')
  rw [hincoming, List.append_assoc] at hbanner
  obtain rfl := hbanner.eq hbannerLe
  rw [List.append_assoc] at hdecision
  obtain rfl := hdecision.eq hdecisionLe
  rw [hincoming', List.append_assoc] at hhello
  obtain rfl := hhello.eq hhelloLe
  obtain ⟨hsent, hmajor⟩ := hframe.eq hheader'
  exact ⟨hsent, (hframe'.eq hheader).1, hmajor.symm⟩

section Ends

variable {host : Host Handshake Cipher} {device : Device Handshake Cipher} {link link' : Link}

theorem accepting_of_frames {endpoint : Endpoint Handshake Cipher} {α : Type} {codec : Codec α}
    {message : α} {frame : Frame} {noise noise' noise'' : Option (TransportState Cipher)}
    {first second : Link} (haccepted : Accepted link first noise)
    (hframe : Returns (receiveFrame endpoint noise) first (frame, noise') second)
    (hack : Returns (sendMessage endpoint codec noise' .helloAck message) second noise'' link') :
    ∃ payload, codec.encode message = .ok payload ∧
      Accepting endpoint.build link link' payload frame := by
  obtain ⟨rfl, hafter, banner, decision, hbanner, hdecision, hpackets⟩ := haccepted
  obtain ⟨hnext, rfl, hreadOut⟩ := nextFrame_of_receiveFrame hframe
  obtain ⟨payload, header, hencode, hheader, rfl, hackOut, _⟩ := frame_of_sendMessage hack
  refine ⟨payload, hencode, ⟨banner, decision, header, hbanner, hdecision, hheader, ?_⟩, _,
    hafter, hnext⟩
  rw [hackOut, hreadOut, hpackets, List.append_assoc, List.append_assoc]

theorem connecting_of_frames {endpoint : Endpoint Handshake Cipher} {α : Type} {codec : Codec α}
    {message : α} {frame : Frame} {noise noise' noise'' : Option (TransportState Cipher)}
    {first second : Link} (hconnected : Connected link first noise)
    (hhello : Returns (sendMessage endpoint codec noise .hello message) first noise' second)
    (hframe : Returns (receiveFrame endpoint noise') second (frame, noise'') link') :
    ∃ payload, codec.encode message = .ok payload ∧
      Connecting endpoint.build link link' payload frame := by
  obtain ⟨rfl, ⟨middle, hbanner, hdecision⟩, clientHello, hle, hpacket⟩ := hconnected
  obtain ⟨payload, header, hencode, hheader, rfl, hhelloOut, hhelloIn⟩ :=
    frame_of_sendMessage hhello
  obtain ⟨hnext, rfl, hreadOut⟩ := nextFrame_of_receiveFrame hframe
  rw [hhelloIn] at hnext
  refine ⟨payload, hencode, ⟨clientHello, header, hle, hheader, ?_⟩, middle, _, hbanner,
    hdecision, hnext⟩
  rw [hreadOut, hhelloOut, hpacket, List.append_assoc]

theorem acceptDevice_accepting (hclear : host.security = .insecure)
    {identity : DeviceIdentity Cipher} (h : Returns (acceptDevice host) link identity link') :
    ∃ frame hello ack payload, Accepting host.build link link' payload frame ∧
      host.codecs.helloAck.encode ack = .ok payload ∧
      ack.protocolVersion = host.build.version ∧ ack.capabilities = host.capabilities ∧
      host.codecs.hello.decode frame.payload = .ok hello ∧
      host.build.negotiatedVersion hello.protocolVersion = some identity.protocol ∧
      identity.capabilities = hello.capabilities &&& host.capabilities := by
  obtain ⟨_, _, frame, _, _, hello, ack, hsecurity, hframe, hack, -, -, hversion, hcaps, hdecode,
    hprotocol, hcapabilities⟩ := returns_acceptDevice h
  obtain ⟨payload, hencode, haccepting⟩ :=
    accepting_of_frames (acceptSecurity_accepted hclear hsecurity) hframe hack
  exact ⟨frame, hello, ack, payload, haccepting, hencode, hversion, hcaps, hdecode, hprotocol,
    hcapabilities⟩

theorem connectDevice_connecting (hclear : host.security = .insecure)
    {identity : DeviceIdentity Cipher} (h : Returns (connectDevice host) link identity link') :
    ∃ frame ack hello payload, Connecting host.build link link' payload frame ∧
      host.codecs.hello.encode hello = .ok payload ∧
      hello.protocolVersion = host.build.version ∧ hello.capabilities = host.capabilities ∧
      host.codecs.helloAck.decode frame.payload = .ok ack ∧
      host.build.negotiatedVersion ack.protocolVersion = some identity.protocol ∧
      identity.capabilities = ack.capabilities &&& host.capabilities := by
  obtain ⟨_, _, hello, _, _, frame, ack, hsecurity, hhello, hframe, -, -, hversion, hcaps,
    hdecode, hprotocol, hcapabilities⟩ := returns_connectDevice h
  obtain ⟨payload, hencode, hconnecting⟩ :=
    connecting_of_frames (connectSecurity_connected hclear hsecurity) hhello hframe
  exact ⟨frame, ack, hello, payload, hconnecting, hencode, hversion, hcaps, hdecode, hprotocol,
    hcapabilities⟩

theorem serveInbound_accepting (hclear : device.security = .insecure)
    {identity : HostIdentity Cipher} (h : Returns (serveInbound device) link identity link') :
    ∃ frame hello ack payload, Accepting device.build link link' payload frame ∧
      device.codecs.helloAck.encode ack = .ok payload ∧
      ack.protocolVersion = device.build.version ∧ ack.capabilities = device.capabilities ∧
      device.codecs.hello.decode frame.payload = .ok hello ∧
      device.build.negotiatedVersion hello.protocolVersion = some identity.protocol ∧
      identity.capabilities = device.capabilities &&& hello.capabilities := by
  obtain ⟨_, _, frame, _, _, hello, ack, hsecurity, hframe, hack, -, -, hversion, hcaps, hdecode,
    hprotocol, hcapabilities⟩ := returns_serveInbound h
  obtain ⟨payload, hencode, haccepting⟩ :=
    accepting_of_frames (acceptConnection_accepted hclear hsecurity) hframe hack
  exact ⟨frame, hello, ack, payload, haccepting, hencode, hversion, hcaps, hdecode, hprotocol,
    hcapabilities⟩

theorem serveOutbound_connecting (hclear : device.security = .insecure)
    {identity : HostIdentity Cipher} (h : Returns (serveOutbound device) link identity link') :
    ∃ frame ack hello payload, Connecting device.build link link' payload frame ∧
      device.codecs.hello.encode hello = .ok payload ∧
      hello.protocolVersion = device.build.version ∧
      hello.capabilities = device.capabilities ∧
      device.codecs.helloAck.decode frame.payload = .ok ack ∧
      device.build.negotiatedVersion ack.protocolVersion = some identity.protocol ∧
      identity.capabilities = device.capabilities &&& ack.capabilities := by
  obtain ⟨_, _, hello, _, _, frame, ack, hsecurity, hhello, hframe, -, -, hversion, hcaps,
    hdecode, hprotocol, hcapabilities⟩ := returns_serveOutbound h
  obtain ⟨payload, hencode, hconnecting⟩ :=
    connecting_of_frames (connectConnection_connected hclear hsecurity) hhello hframe
  exact ⟨frame, ack, hello, payload, hconnecting, hencode, hversion, hcaps, hdecode, hprotocol,
    hcapabilities⟩

end Ends

/-- Both ends use the version and the capabilities that follow from what the two builds
advertise. -/
structure Negotiated (host : Host Handshake Cipher) (device : Device Handshake Cipher)
    (hostSide : DeviceIdentity Cipher) (deviceSide : HostIdentity Cipher) : Prop where
  hostProtocol : hostSide.protocol = agreedVersion host.build device.build
  deviceProtocol : deviceSide.protocol = agreedVersion host.build device.build
  hostCapabilities : hostSide.capabilities = host.capabilities &&& device.capabilities
  deviceCapabilities : deviceSide.capabilities = host.capabilities &&& device.capabilities

section Negotiated

variable {host : Host Handshake Cipher} {device : Device Handshake Cipher}
  {hostSide : DeviceIdentity Cipher} {deviceSide : HostIdentity Cipher}
  {hostLink hostLink' deviceLink deviceLink' : Link}

theorem outbound_negotiated (hhost : host.security = .insecure)
    (hdevice : device.security = .insecure)
    (hcodecs : Interoperable host.codecs device.codecs)
    (hhostSide : Returns (acceptDevice host) hostLink hostSide hostLink')
    (hdeviceSide : Returns (serveOutbound device) deviceLink deviceSide deviceLink')
    (hears : Hears hostLink deviceLink deviceLink')
    (heard : Hears deviceLink hostLink hostLink') :
    Negotiated host device hostSide deviceSide := by
  obtain ⟨hhello, _, _, hack'⟩ := hcodecs
  obtain ⟨frame, hello, ack, payload, haccepting, hencode, hversion, hcaps, hdecode,
    hprotocol, hcapabilities⟩ := acceptDevice_accepting hhost hhostSide
  obtain ⟨frame', ack', hello', payload', hconnecting, hencode', hversion', hcaps',
    hdecode', hprotocol', hcapabilities'⟩ := serveOutbound_connecting hdevice hdeviceSide
  obtain ⟨rfl, rfl, -⟩ := hconnecting.meets haccepting heard hears
  obtain rfl := hhello.eq hencode' hdecode
  obtain rfl := hack'.eq hencode hdecode'
  obtain ⟨⟨hboth, hboth'⟩, hcommon, hcommon'⟩ := both_negotiated hversion hcaps hversion' hcaps'
    hprotocol hcapabilities hprotocol' hcapabilities'
  exact ⟨hboth, hboth', hcommon, hcommon'⟩

theorem inbound_negotiated (hhost : host.security = .insecure)
    (hdevice : device.security = .insecure)
    (hcodecs : Interoperable host.codecs device.codecs)
    (hhostSide : Returns (connectDevice host) hostLink hostSide hostLink')
    (hdeviceSide : Returns (serveInbound device) deviceLink deviceSide deviceLink')
    (hears : Hears hostLink deviceLink deviceLink')
    (heard : Hears deviceLink hostLink hostLink') :
    Negotiated host device hostSide deviceSide := by
  obtain ⟨_, hhello', hack, _⟩ := hcodecs
  obtain ⟨frame, ack, hello, payload, hconnecting, hencode, hversion, hcaps, hdecode,
    hprotocol, hcapabilities⟩ := connectDevice_connecting hhost hhostSide
  obtain ⟨frame', hello', ack', payload', haccepting, hencode', hversion', hcaps',
    hdecode', hprotocol', hcapabilities'⟩ := serveInbound_accepting hdevice hdeviceSide
  obtain ⟨rfl, rfl, -⟩ := hconnecting.meets haccepting hears heard
  obtain rfl := hack.eq hencode' hdecode
  obtain rfl := hhello'.eq hencode hdecode'
  obtain ⟨⟨hboth, hboth'⟩, hcommon, hcommon'⟩ := both_negotiated hversion hcaps hversion' hcaps'
    hprotocol hcapabilities hprotocol' hcapabilities'
  exact ⟨hboth, hboth', hcommon, hcommon'⟩

end Negotiated

/-- What the two ends know of the connection is what the other has put on it: in secure
mode by what Noise promises, in insecure mode because nobody tampers with it. -/
inductive Undisturbed (host : Host Handshake Cipher) (device : Device Handshake Cipher)
    (hostSide : DeviceIdentity Cipher) (deviceSide : HostIdentity Cipher)
    (hostLink hostLink' deviceLink deviceLink' : Link) : Prop
  | secure (hhost : host.security = .secure) (hdevice : device.security = .secure)
      (hauthentic : ∀ state state', hostSide.noise = some state →
        deviceSide.noise = some state' → Authentic state state')
  | insecure (hhost : host.security = .insecure) (hdevice : device.security = .insecure)
      (hears : Hears hostLink deviceLink deviceLink')
      (heard : Hears deviceLink hostLink hostLink')

/-- Two ends that finish over an undisturbed connection have negotiated the same, in either
mode and whoever made it. -/
theorem Undisturbed.negotiated {host : Host Handshake Cipher} {device : Device Handshake Cipher}
    {hostSide : DeviceIdentity Cipher} {deviceSide : HostIdentity Cipher}
    {hostLink hostLink' deviceLink deviceLink' : Link}
    (h : Undisturbed host device hostSide deviceSide hostLink hostLink' deviceLink deviceLink')
    (hcodecs : Interoperable host.codecs device.codecs) (connector : Connector)
    (hhostSide : Returns (hostHandshake connector host) hostLink hostSide hostLink')
    (hdeviceSide : Returns (deviceHandshake connector device) deviceLink deviceSide
      deviceLink') : Negotiated host device hostSide deviceSide := by
  cases h with
  | secure hhost hdevice hauthentic =>
      have hagreement : Agreement host device hostSide deviceSide := by
        cases connector with
        | device =>
            exact outbound_agreement hhost hdevice hcodecs hhostSide hdeviceSide hauthentic
        | host =>
            exact inbound_agreement hhost hdevice hcodecs hhostSide hdeviceSide hauthentic
      exact ⟨hagreement.hostProtocol, hagreement.deviceProtocol, hagreement.hostCapabilities,
        hagreement.deviceCapabilities⟩
  | insecure hhost hdevice hears heard =>
      cases connector with
      | device => exact outbound_negotiated hhost hdevice hcodecs hhostSide hdeviceSide hears heard
      | host => exact inbound_negotiated hhost hdevice hcodecs hhostSide hdeviceSide hears heard

end SideWire.ClearHandshake
