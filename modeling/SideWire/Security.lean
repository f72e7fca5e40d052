import SideWire.FrameTransport

/-!
The security messages of a new connection, the texts that bind a Noise handshake to its
purpose, and the handshake itself.
-/

namespace SideWire.Security

open SideWire.ByteString
open SideWire.ByteLink
open SideWire.FrameCodec
open SideWire.PairingStore
open SideWire.RecordLayer

inductive SecurityMode
  | secure
  | insecure
  deriving DecidableEq

def SecurityMode.asStr : SecurityMode → String
  | secure => "secure"
  | insecure => "insecure"

structure SecurityBanner where
  nodeId : DeviceId
  security : SecurityMode
  protocolVersion : UInt16
  deriving DecidableEq

structure SecurityClientHello where
  nodeId : DeviceId
  security : SecurityMode
  protocolVersion : UInt16
  deriving DecidableEq

structure SecurityDecision where
  accepted : Bool
  message : String
  deriving DecidableEq

inductive PeerRole
  | host
  | device
  deriving DecidableEq

structure Hello where
  deviceId : Option DeviceId
  name : Text
  role : PeerRole
  protocolVersion : UInt16
  capabilities : UInt64
  deriving DecidableEq

structure HelloAck where
  deviceId : Option DeviceId
  name : Text
  os : Text
  arch : Text
  protocolVersion : UInt16
  capabilities : UInt64
  deriving DecidableEq

/-- The serialisation of one type of message. -/
structure Codec (α : Type) where
  encode : α → Except String Bytes
  decode : Bytes → Except String α

/-- What `writer` encodes, `reader` decodes again. -/
def Codec.Understands {α : Type} (reader writer : Codec α) : Prop :=
  ∀ value bytes, writer.encode value = .ok bytes → reader.decode bytes = .ok value

theorem Codec.Understands.eq {α : Type} {reader writer : Codec α} (h : reader.Understands writer)
    {value value' : α} {bytes : Bytes} (hencode : writer.encode value = .ok bytes)
    (hdecode : reader.decode bytes = .ok value') : value' = value :=
  Except.ok.inj (hdecode.symm.trans (h _ _ hencode))

/-- The serialisation of the messages of a new connection. -/
structure Codecs where
  banner : Codec SecurityBanner
  clientHello : Codec SecurityClientHello
  decision : Codec SecurityDecision
  hello : Codec Hello
  helloAck : Codec HelloAck

section Packets

variable {α : Type}

def writePacket (codec : Codec α) (value : α) : Io String Unit := do
  let bytes ← attempt (codec.encode value)
  writeRawPacket bytes

def readPacket (codec : Codec α) : Io String α := do
  let bytes ← readRawPacket
  attempt (codec.decode bytes)

/-- The next packet of `incoming` says `value`, and `rest` follows it. -/
def Announces (codec : Codec α) (incoming : Bytes) (value : α) (rest : Bytes) : Prop :=
  ∃ header bytes : Bytes, header.length = 4 ∧ ofBigEndian header = bytes.length ∧
    incoming = header ++ bytes ++ rest ∧ codec.decode bytes = .ok value

theorem announces_of_readPacket {codec : Codec α} {value : α} {link link' : Link}
    (h : Returns (readPacket codec) link value link') :
    Announces codec link.incoming value link'.incoming := by
  simp only [readPacket, readRawPacket, returns_bind, returns_readRawPacketInto,
    returns_attempt] at h
  obtain ⟨bytes, middle, ⟨_, header, hheader, hlen, hincoming, _⟩, hdecode, rfl⟩ := h
  exact ⟨header, bytes, hheader, hlen, hincoming, hdecode⟩

theorem incoming_of_writeRawPacket {bytes : Bytes} {link link' : Link}
    (h : Returns (writeRawPacket bytes) link () link') : link'.incoming = link.incoming := by
  rw [writeRawPacket] at h
  split_ifs at h with hlarge
  · exact (not_returns_fail h).elim
  · exact (((writes_writeParts _ _).bind writes_flush).of_returns h).2.incoming

theorem incoming_of_writePacket {codec : Codec α} {value : α} {link link' : Link}
    (h : Returns (writePacket codec value) link () link') :
    link'.incoming = link.incoming := by
  simp only [writePacket, returns_bind, returns_attempt] at h
  obtain ⟨bytes, middle, ⟨_, rfl⟩, hwrite⟩ := h
  exact incoming_of_writeRawPacket hwrite

end Packets

def securityPrologue (version : UInt16) (initiator responder : DeviceId) : Bytes :=
  intoBytes ("SideWire/v".toList ++ decimalText version.toNat ++ "/".toList ++
    DeviceId.toHex initiator ++ "->".toList ++ DeviceId.toHex responder)

/-- The bytes of a prologue tell the version and both identities. -/
theorem securityPrologue_inj {version version' : UInt16}
    {initiator initiator' responder responder' : DeviceId}
    (h : securityPrologue version initiator responder =
      securityPrologue version' initiator' responder') :
    version = version' ∧ initiator = initiator' ∧ responder = responder' := by
  have hslash : ∀ value, '/' ∉ decimalText value := not_mem_decimalText rfl
  have hcut : "/".toList = ['/'] := rfl
  have htext := intoBytes_inj h
  simp only [List.append_assoc, hcut, List.singleton_append] at htext
  have hversion := List.append_cancel_left htext
  obtain ⟨hdigits, hrest⟩ := append_cons_inj (hslash _) (hslash _) hversion
  obtain ⟨hinitiator, hends⟩ := List.append_inj hrest (by simp)
  have hresponder := List.append_cancel_left hends
  exact ⟨UInt16.toNat_inj.mp (decimalText_inj hdigits), DeviceId.toHex_inj hinitiator,
    DeviceId.toHex_inj hresponder⟩

section Noise

variable {Handshake Cipher : Type} (snow : Snow Handshake Cipher)

def noiseInitiator (psk : Key) (prologue : Bytes) : Io String (TransportState Cipher) := do
  let state ← attempt (snow.build ⟨.initiator, psk, prologue⟩)
  let (message, state) ← attempt (snow.writeHandshake state 65535)
  writeRawPacket message
  let incoming ← readRawPacket
  let state ← attempt (snow.readHandshake state incoming 65535)
  let cipher ← attempt (snow.intoTransportMode state)
  pure ⟨⟨.initiator, psk, prologue⟩, [], [], cipher⟩

def noiseResponder (psk : Key) (prologue : Bytes) : Io String (TransportState Cipher) := do
  let state ← attempt (snow.build ⟨.responder, psk, prologue⟩)
  let incoming ← readRawPacket
  let state ← attempt (snow.readHandshake state incoming 65535)
  let (message, state) ← attempt (snow.writeHandshake state 65535)
  writeRawPacket message
  let cipher ← attempt (snow.intoTransportMode state)
  pure ⟨⟨.responder, psk, prologue⟩, [], [], cipher⟩

/-- The steps a handshake state can take. -/
inductive Proceeds : Handshake → Handshake → Prop
  | write {state state' : Handshake} {message : Bytes} {room : Nat} :
      snow.writeHandshake state room = .ok (message, state') → Proceeds state state'
  | read {state state' : Handshake} {message : Bytes} {room : Nat} :
      snow.readHandshake state message room = .ok state' → Proceeds state state'

/-- A fresh transport state whose cipher comes from a handshake with these keys. -/
def Keyed (keying : Keying) (noise : TransportState Cipher) : Prop :=
  noise.keying = keying ∧ noise.sent = [] ∧ noise.received = [] ∧
    ∃ start middle last, snow.build keying = .ok start ∧ Proceeds snow start middle ∧
      Proceeds snow middle last ∧ snow.intoTransportMode last = .ok noise.cipher

variable {snow}

theorem keyed_of_noiseInitiator {psk : Key} {prologue : Bytes}
    {noise : TransportState Cipher} {link link' : Link}
    (h : Returns (noiseInitiator snow psk prologue) link noise link') :
    Keyed snow ⟨.initiator, psk, prologue⟩ noise := by
  simp only [noiseInitiator, returns_bind, returns_attempt, returns_pure] at h
  obtain ⟨start, _, ⟨hbuild, rfl⟩, ⟨message, middle⟩, _, ⟨hwrite, rfl⟩, _, _, _, incoming, _,
    _, last, _, ⟨hread, rfl⟩, cipher, _, ⟨hcipher, rfl⟩, rfl, rfl⟩ := h
  exact ⟨rfl, rfl, rfl, start, middle, last, hbuild, .write hwrite, .read hread, hcipher⟩

theorem keyed_of_noiseResponder {psk : Key} {prologue : Bytes}
    {noise : TransportState Cipher} {link link' : Link}
    (h : Returns (noiseResponder snow psk prologue) link noise link') :
    Keyed snow ⟨.responder, psk, prologue⟩ noise := by
  simp only [noiseResponder, returns_bind, returns_attempt, returns_pure] at h
  obtain ⟨start, _, ⟨hbuild, rfl⟩, incoming, _, _, middle, _, ⟨hread, rfl⟩, ⟨message, last⟩, _,
    ⟨hwrite, rfl⟩, _, _, _, cipher, _, ⟨hcipher, rfl⟩, rfl, rfl⟩ := h
  exact ⟨rfl, rfl, rfl, start, middle, last, hbuild, .read hread, .write hwrite, hcipher⟩

end Noise

end SideWire.Security
