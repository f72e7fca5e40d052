import SideWire.FrameCodec
import SideWire.PairingStore

/-!
Packets, Noise records and the frame transport on top of them. The Noise library is a
parameter.
-/

namespace SideWire.RecordLayer

open SideWire.ByteString
open SideWire.ByteLink
open SideWire.FrameCodec
open SideWire.PairingStore

def maxPacket : Nat := 128 * 1024
def noiseChunk : Nat := 60 * 1024
/-- The longest message of the Noise protocol. -/
def maxNoiseMessage : Nat := 65535
/-- The authentication tag that a Noise message ends in. -/
def noiseTag : Nat := 16

inductive Role
  | initiator
  | responder
  deriving DecidableEq

/-- What a Noise handshake is built from. -/
structure Keying where
  role : Role
  psk : Key
  prologue : Bytes
  deriving DecidableEq

/-- The Noise library, with the randomness it draws. `Handshake` and `Cipher` are its
states before and after a handshake. Each operation that fills a buffer is given the
room there. -/
structure Snow (Handshake Cipher : Type) where
  build : Keying → Except String Handshake
  writeHandshake : Handshake → Nat → Except String (Bytes × Handshake)
  readHandshake : Handshake → Bytes → Nat → Except String Handshake
  intoTransportMode : Handshake → Except String Cipher
  writeMessage : Cipher → Bytes → Nat → Except String (Bytes × Cipher)
  readMessage : Cipher → Bytes → Nat → Except String (Bytes × Cipher)

/-- The state of a finished handshake, with what it was built from and the records
that went through it. -/
structure TransportState (Cipher : Type) where
  keying : Keying
  sent : List Bytes
  received : List Bytes
  cipher : Cipher
  deriving DecidableEq

variable {Handshake Cipher : Type} (snow : Snow Handshake Cipher)

namespace TransportState

variable (noise : TransportState Cipher)

def writeMessage (payload : Bytes) (room : Nat) :
    Except String (Bytes × TransportState Cipher) :=
  match snow.writeMessage noise.cipher payload room with
  | .error error => .error error
  | .ok (message, cipher) =>
      .ok (message, { noise with sent := noise.sent ++ [payload], cipher := cipher })

def readMessage (message : Bytes) (room : Nat) :
    Except String (Bytes × TransportState Cipher) :=
  match snow.readMessage noise.cipher message room with
  | .error error => .error error
  | .ok (payload, cipher) =>
      .ok (payload, { noise with received := noise.received ++ [payload], cipher := cipher })

end TransportState

def writeRawPacket (bytes : Bytes) : Io String Unit := do
  if maxPacket < bytes.length then
    fail s!"security packet too large: {bytes.length} bytes"
  else
    let _ ← writeParts (bigEndian 4 bytes.length) bytes
    flush

/-- `Vec::resize` with zeros. -/
def resize (buffer : Bytes) (len : Nat) : Bytes :=
  buffer.take len ++ List.replicate (len - buffer.length) 0

/-- Reads a packet into `buffer` and returns the buffer. -/
def readRawPacketInto (buffer : Bytes) : Io String Bytes := do
  let header ← readExact 4
  let len := ofBigEndian header
  if maxPacket < len then
    fail s!"security packet too large: {len} bytes"
  else
    readExact (resize buffer len).length

def readRawPacket : Io String Bytes := readRawPacketInto []

def writeNoiseRecord (noise : TransportState Cipher) (plaintext : Bytes) :
    Io String (TransportState Cipher) := do
  if noiseChunk + 1 < plaintext.length then
    fail s!"Noise plaintext record too large: {plaintext.length} bytes"
  else
    let (message, noise) ← attempt (noise.writeMessage snow plaintext (plaintext.length + 32))
    writeRawPacket message
    pure noise

structure SecureFrameReader (Cipher : Type) where
  noise : Option (TransportState Cipher)
  encryptedScratch : Bytes
  plaintextScratch : Bytes
  deriving DecidableEq

def SecureFrameReader.new (noise : Option (TransportState Cipher)) :
    SecureFrameReader Cipher :=
  ⟨noise, [], []⟩

/-- Reads and opens a record. Returns both buffers. -/
def readNoiseRecordInto (noise : TransportState Cipher) (encrypted plaintext : Bytes) :
    Io String (Bytes × Bytes × TransportState Cipher) := do
  let encrypted ← readRawPacketInto encrypted
  let (payload, noise) ←
    attempt (noise.readMessage snow encrypted (resize plaintext encrypted.length).length)
  pure (encrypted, payload, noise)

/-- One record of a frame: a flag, then bytes from the header, the payload or both. -/
def plainRecord (header payload : Bytes) (offset chunkLen : Nat) : Bytes :=
  (if offset + chunkLen = headerLen + payload.length then 1 else 0) ::
    if offset < headerLen then
      let headerEnd := min (offset + chunkLen) headerLen
      let payloadTake := chunkLen - (headerEnd - offset)
      (header.take headerEnd).drop offset ++
        if 0 < payloadTake then payload.take payloadTake else []
    else (payload.drop (offset - headerLen)).take chunkLen

/-- The records of a frame from `offset` on. -/
def writeRecords (header payload : Bytes) (offset : Nat) (noise : TransportState Cipher) :
    Io String (TransportState Cipher) :=
  if _hleft : offset < headerLen + payload.length then do
    let noise ← writeNoiseRecord snow noise
      (plainRecord header payload offset (min (headerLen + payload.length - offset) noiseChunk))
    writeRecords header payload
      (offset + min (headerLen + payload.length - offset) noiseChunk) noise
  else pure noise
termination_by headerLen + payload.length - offset
decreasing_by
  simp only [noiseChunk] at *
  omega

/-- `SecureFrameWriter::write_raw`. -/
def writeRaw (build : Build) (noise : Option (TransportState Cipher)) (kind : FrameKind)
    (streamId : UInt32) (payload : Bytes) : Io String (Option (TransportState Cipher)) :=
  match noise with
  | none => do
      writeRawFrame build kind streamId payload
      pure none
  | some noise => do
      let header ← attempt (frameHeader build kind streamId payload.length)
      let noise ← writeRecords snow header payload 0 noise
      pure (some noise)

/-- A frame under reassembly: the header bytes so far, their meaning once complete,
and the payload so far. -/
structure Assembly where
  header : Bytes
  metadata : Option (FrameKind × UInt32 × Nat)
  payload : Bytes
  deriving DecidableEq

def Assembly.empty : Assembly := ⟨[], none, []⟩

/-- Moves bytes of a record into a header that is not complete yet. -/
def fillHeader (build : Build) (assembly : Assembly) (bytes : Bytes) :
    Except String (Assembly × Bytes) :=
  if assembly.header.length < headerLen then
    let take := min (headerLen - assembly.header.length) bytes.length
    let header := assembly.header ++ bytes.take take
    if header.length = headerLen then
      match decodeFrameHeader build header with
      | .error error => .error error
      | .ok decoded => .ok (⟨header, some decoded, []⟩, bytes.drop take)
    else .ok ({ assembly with header := header }, bytes.drop take)
  else .ok (assembly, bytes)

/-- Appends the rest of a record to the payload. -/
def extendPayload (assembly : Assembly) (finalFlag : UInt8) (bytes : Bytes) :
    Except String Assembly :=
  match assembly.metadata with
  | none => .ok assembly
  | some (_, _, expected) =>
      if expected < assembly.payload.length + bytes.length then
        .error "encrypted SideWire frame exceeded declared payload length"
      else if finalFlag = 0 ∧ (assembly.payload ++ bytes).length = expected then
        .error "encrypted SideWire frame missing final record flag"
      else .ok { assembly with payload := assembly.payload ++ bytes }

def finishFrame (assembly : Assembly) : Except String Frame :=
  match assembly.metadata with
  | none => .error "truncated encrypted SideWire frame header"
  | some (kind, streamId, expected) =>
      if assembly.payload.length ≠ expected then .error "invalid SideWire frame length"
      else .ok ⟨kind, streamId, assembly.payload⟩

/-- What `read_frame` does with one opened record. -/
def acceptRecord (build : Build) (assembly : Assembly) (record : Bytes) :
    Except String (Assembly ⊕ Frame) :=
  match record with
  | [] => .error "empty encrypted SideWire record"
  | finalFlag :: bytes =>
      if 1 < finalFlag then
        .error s!"invalid encrypted SideWire record flag {finalFlag.toNat}"
      else do
        let (assembly, bytes) ← fillHeader build assembly bytes
        let assembly ← extendPayload assembly finalFlag bytes
        if finalFlag = 1 then
          let frame ← finishFrame assembly
          .ok (.inr frame)
        else .ok (.inl assembly)

@[simp] theorem length_resize (buffer : Bytes) (len : Nat) :
    (resize buffer len).length = len := by
  simp only [resize, List.length_append, List.length_take, List.length_replicate]
  omega

theorem returns_readRawPacketInto {buffer bytes : Bytes} {link link' : Link} :
    Returns (readRawPacketInto buffer) link bytes link' ↔
      bytes.length ≤ maxPacket ∧
        ∃ header : Bytes, header.length = 4 ∧ ofBigEndian header = bytes.length ∧
          link.incoming = header ++ bytes ++ link'.incoming ∧
          link' = { link with incoming := link'.incoming } := by
  simp only [readRawPacketInto, returns_bind, returns_readExact]
  constructor
  · rintro ⟨header, middle, ⟨hheader, hincoming, hmiddle⟩, h⟩
    split_ifs at h with hlarge
    · exact (not_returns_fail h).elim
    · rw [length_resize, returns_readExact] at h
      obtain ⟨hlen, hmore, hlink⟩ := h
      refine ⟨by omega, header, hheader, hlen.symm, ?_, ?_⟩
      · rw [hincoming, hmore, List.append_assoc]
      · rw [hlink, hmiddle]
  · rintro ⟨hle, header, hheader, hlen, hincoming, hlink⟩
    refine ⟨header, { link with incoming := bytes ++ link'.incoming }, ⟨hheader, ?_, rfl⟩, ?_⟩
    · rw [hincoming, List.append_assoc]
    · rw [if_neg (by omega), length_resize, hlen, returns_readExact]
      exact ⟨rfl, rfl, hlink⟩

theorem returns_readNoiseRecordInto {noise noise' : TransportState Cipher}
    {encrypted plaintext encrypted' payload : Bytes} {link link' : Link} :
    Returns (readNoiseRecordInto snow noise encrypted plaintext) link
        (encrypted', payload, noise') link' ↔
      Returns (readRawPacketInto encrypted) link encrypted' link' ∧
        noise.readMessage snow encrypted' encrypted'.length = .ok (payload, noise') := by
  simp only [readNoiseRecordInto, returns_bind, returns_attempt, returns_pure, length_resize]
  constructor
  · rintro ⟨message, middle, hread, ⟨opened, noise''⟩, _, ⟨hopened, rfl⟩, heq, rfl⟩
    obtain ⟨rfl, rfl, rfl⟩ := by simpa using heq
    exact ⟨hread, hopened⟩
  · rintro ⟨hread, hopened⟩
    exact ⟨encrypted', link', hread, (payload, noise'), link', ⟨hopened, rfl⟩, rfl, rfl⟩

theorem incoming_lt_of_readNoiseRecordInto {noise : TransportState Cipher}
    {encrypted plaintext : Bytes} {value : Bytes × Bytes × TransportState Cipher}
    {link link' : Link}
    (h : Returns (readNoiseRecordInto snow noise encrypted plaintext) link value link') :
    link'.incoming.length < link.incoming.length := by
  obtain ⟨_, header, hheader, _, hincoming, _⟩ :=
    returns_readRawPacketInto.mp ((returns_readNoiseRecordInto snow).mp h).1
  rw [hincoming, List.length_append, List.length_append, hheader]
  omega

/-- The loop of `read_frame`. -/
def readRecords (build : Build) (assembly : Assembly) (noise : TransportState Cipher)
    (encrypted plaintext : Bytes) (link : Link) :
    Except (Failure String) (Frame × SecureFrameReader Cipher) × Link :=
  match _hread : outcome (readNoiseRecordInto snow noise encrypted plaintext) link with
  | (.error error, link') => (.error error, link')
  | (.ok (encrypted', plaintext', noise'), link') =>
      match acceptRecord build assembly plaintext' with
      | .error error => (.error (.raised error), link')
      | .ok (.inr frame) => (.ok (frame, ⟨some noise', encrypted', plaintext'⟩), link')
      | .ok (.inl assembly') => readRecords build assembly' noise' encrypted' plaintext' link'
termination_by link.incoming.length
decreasing_by
  exact incoming_lt_of_readNoiseRecordInto snow _hread

/-- `SecureFrameReader::read_frame`. -/
def SecureFrameReader.readFrame (build : Build) (reader : SecureFrameReader Cipher) :
    Io String (Frame × SecureFrameReader Cipher) :=
  match reader.noise with
  | none => do
      let frame ← FrameCodec.readFrame build
      pure (frame, reader)
  | some noise => ExceptT.mk fun link =>
      readRecords snow build .empty noise reader.encryptedScratch reader.plaintextScratch link

end SideWire.RecordLayer
