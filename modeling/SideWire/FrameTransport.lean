import SideWire.RecordSequences

namespace SideWire.FrameTransport

open SideWire.ByteString
open SideWire.ByteLink
open SideWire.FrameCodec
open SideWire.RecordLayer
open SideWire.RecordSequences

variable {Handshake Cipher : Type} (snow : Snow Handshake Cipher)

/-- The next `count` messages of `sender` are what `receiver` opens, in this order. A
message carries a tag, must fit the Noise limit and the buffer, and is opened with any
buffer that holds it. -/
def InStep : Nat → Cipher → Cipher → Prop
  | 0, _, _ => True
  | count + 1, sender, receiver =>
      ∀ payload : Bytes, ∀ room, payload.length + noiseTag ≤ maxNoiseMessage →
        payload.length + noiseTag ≤ room →
        ∃ message sender' receiver',
          snow.writeMessage sender payload room = .ok (message, sender') ∧
          message.length = payload.length + noiseTag ∧
          (∀ room, message.length ≤ room →
            snow.readMessage receiver message room = .ok (payload, receiver')) ∧
          InStep count sender' receiver'

/-- A packet on the connection. -/
def packet (bytes : Bytes) : Bytes := bigEndian 4 bytes.length ++ bytes

theorem writes_writeRawPacket {bytes : Bytes} (hle : bytes.length ≤ maxPacket) :
    Writes (writeRawPacket bytes) (packet bytes) () := by
  rw [writeRawPacket, if_neg (Nat.not_lt.mpr hle), ← List.append_nil (packet bytes)]
  exact (writes_writeParts (bigEndian 4 bytes.length) bytes).bind writes_flush

theorem reads_readRawPacketInto {bytes : Bytes} (hle : bytes.length ≤ maxPacket)
    (buffer : Bytes) : Reads (readRawPacketInto buffer) (packet bytes) bytes := by
  intro link rest hincoming
  have hfits : maxPacket < 256 ^ 4 := by decide
  refine returns_readRawPacketInto.mpr ⟨hle, bigEndian 4 bytes.length, length_bigEndian _ _,
    ofBigEndian_bigEndian _ _ (by omega), hincoming, rfl⟩

/-- `records` go through `noise` as `messages`. -/
inductive Sealed : TransportState Cipher → List Bytes → List Bytes →
    TransportState Cipher → Prop
  | nil (noise : TransportState Cipher) : Sealed noise [] [] noise
  | cons {noise middle last : TransportState Cipher} {record message : Bytes}
      {records messages : List Bytes} :
      noise.writeMessage snow record (record.length + 32) = .ok (message, middle) →
      message.length = record.length + noiseTag →
      Sealed middle records messages last →
      Sealed noise (record :: records) (message :: messages) last

/-- `noise` opens `messages` to `records`. -/
inductive Opened : TransportState Cipher → List Bytes → List Bytes →
    TransportState Cipher → Prop
  | nil (noise : TransportState Cipher) : Opened noise [] [] noise
  | cons {noise middle last : TransportState Cipher} {record message : Bytes}
      {records messages : List Bytes} :
      noise.readMessage snow message message.length = .ok (record, middle) →
      message.length ≤ maxPacket →
      Opened middle records messages last →
      Opened noise (record :: records) (message :: messages) last

variable {snow}

theorem Sealed.log {noise last : TransportState Cipher} {records messages : List Bytes}
    (h : Sealed snow noise records messages last) :
    last.keying = noise.keying ∧ last.received = noise.received ∧
      last.sent = noise.sent ++ records := by
  induction h with
  | nil noise => exact ⟨rfl, rfl, (List.append_nil _).symm⟩
  | cons hwrite _ _ ih =>
      rw [TransportState.writeMessage] at hwrite
      split at hwrite
      · simp at hwrite
      · obtain ⟨rfl, rfl⟩ := by simpa using hwrite
        obtain ⟨hkeying, hreceived, hsent⟩ := ih
        exact ⟨hkeying, hreceived, by simp [hsent]⟩

theorem Opened.log {noise last : TransportState Cipher} {records messages : List Bytes}
    (h : Opened snow noise records messages last) :
    last.keying = noise.keying ∧ last.sent = noise.sent ∧
      last.received = noise.received ++ records := by
  induction h with
  | nil noise => exact ⟨rfl, rfl, (List.append_nil _).symm⟩
  | cons hread _ _ ih =>
      rw [TransportState.readMessage] at hread
      split at hread
      · simp at hread
      · obtain ⟨rfl, rfl⟩ := by simpa using hread
        obtain ⟨hkeying, hsent, hreceived⟩ := ih
        exact ⟨hkeying, hsent, by simp [hreceived]⟩

/-- Two states in step carry as many records as they are in step for. -/
theorem InStep.carries {records : List Bytes} {count : Nat}
    {sender receiver : TransportState Cipher}
    (h : InStep snow (records.length + count) sender.cipher receiver.cipher)
    (hbounds : ∀ record ∈ records, record.length ≤ noiseChunk + 1) :
    ∃ messages sender' receiver',
      Sealed snow sender records messages sender' ∧
      Opened snow receiver records messages receiver' ∧
      (∀ message ∈ messages, message.length ≤ maxNoiseMessage) ∧
      InStep snow count sender'.cipher receiver'.cipher := by
  have hlimit : noiseChunk + 1 + noiseTag ≤ maxNoiseMessage := by decide
  have hpacket : maxNoiseMessage ≤ maxPacket := by decide
  have htag : noiseTag ≤ 32 := by decide
  induction records generalizing sender receiver with
  | nil => exact ⟨[], sender, receiver, .nil _, .nil _, by simp, by simpa using h⟩
  | cons record records ih =>
      have hrecord := hbounds record List.mem_cons_self
      rw [List.length_cons, Nat.add_right_comm] at h
      obtain ⟨message, sender', receiver', hwrite, hlen, hread, hrest⟩ :=
        h record (record.length + 32) (by omega) (by omega)
      have hnext : InStep snow (records.length + count)
          ({ sender with sent := sender.sent ++ [record], cipher := sender' } :
            TransportState Cipher).cipher
          ({ receiver with received := receiver.received ++ [record], cipher := receiver' } :
            TransportState Cipher).cipher := hrest
      obtain ⟨messages, sender'', receiver'', hsealed, hopened, hsizes, hstep⟩ :=
        ih hnext (fun r hr => hbounds r (List.mem_cons_of_mem _ hr))
      refine ⟨message :: messages, sender'', receiver'', .cons ?_ hlen hsealed,
        .cons ?_ (by omega) hopened, ?_, hstep⟩
      · rw [TransportState.writeMessage, hwrite]
      · rw [TransportState.readMessage, hread _ (Nat.le_refl _)]
      · intro m hm
        rcases List.mem_cons.mp hm with rfl | hm
        · omega
        · exact hsizes m hm

theorem writes_writeNoiseRecord {noise next : TransportState Cipher} {record message : Bytes}
    (hrecord : record.length ≤ noiseChunk + 1)
    (hmessage : noise.writeMessage snow record (record.length + 32) = .ok (message, next))
    (hlen : message.length = record.length + noiseTag) :
    Writes (writeNoiseRecord snow noise record) (packet message) next := by
  have hpacket : noiseChunk + 1 + noiseTag ≤ maxPacket := by decide
  have hwrite : Writes (do
      writeRawPacket message
      pure next : Io String (TransportState Cipher)) (packet message ++ []) next :=
    (writes_writeRawPacket (by omega)).bind (.pure next)
  rw [writeNoiseRecord, if_neg (Nat.not_lt.mpr hrecord), ← List.nil_append (packet message),
    ← List.append_nil (packet message)]
  exact (writes_attempt hmessage).bind hwrite

theorem writes_writeRecords {header payload : Bytes} (hheader : header.length = headerLen)
    {offset : Nat} {noise last : TransportState Cipher} {messages : List Bytes}
    (h : Sealed snow noise (recordsFrom (header ++ payload) offset) messages last) :
    Writes (writeRecords snow header payload offset noise) (messages.flatMap packet) last := by
  have hlen : (header ++ payload).length = headerLen + payload.length := by
    rw [List.length_append, hheader]
  induction offset using recordsFrom.induct (header ++ payload) generalizing noise messages with
  | case1 offset hstep ih =>
      rw [recordsFrom, dif_pos hstep] at h
      rw [writeRecords, dif_pos (by omega), plainRecord_eq hheader, ← hlen]
      cases h with
      | @cons _ middle _ record message records messages hmessage hsize hrest =>
          rw [List.flatMap_cons]
          refine (writes_writeNoiseRecord ?_ hmessage hsize).bind (ih hrest)
          simp only [List.length_cons, List.length_take]
          omega
  | case2 offset hdone =>
      rw [recordsFrom, dif_neg hdone] at h
      rw [writeRecords, dif_neg (by omega)]
      cases h
      exact .pure last

theorem reads_readNoiseRecordInto {noise next : TransportState Cipher}
    {record message : Bytes} (hle : message.length ≤ maxPacket)
    (hmessage : noise.readMessage snow message message.length = .ok (record, next))
    (encrypted plaintext : Bytes) :
    Reads (readNoiseRecordInto snow noise encrypted plaintext) (packet message)
      (message, record, next) := by
  intro link rest hincoming
  exact (returns_readNoiseRecordInto snow).mpr
    ⟨reads_readRawPacketInto hle encrypted link rest hincoming, hmessage⟩

theorem readRecords_eq {build : Build} {assembly : Assembly}
    {noise next : TransportState Cipher} {encrypted plaintext message record : Bytes}
    {link link' : Link}
    (h : Returns (readNoiseRecordInto snow noise encrypted plaintext) link
      (message, record, next) link') :
    readRecords snow build assembly noise encrypted plaintext link =
      match acceptRecord build assembly record with
      | .error error => (.error (.raised error), link')
      | .ok (.inr frame) => (.ok (frame, ⟨some next, message, record⟩), link')
      | .ok (.inl assembly') => readRecords snow build assembly' next message record link' := by
  rw [readRecords]
  split
  · rename_i hread
    rw [h] at hread
    simp at hread
  · rename_i hread
    rw [h] at hread
    obtain ⟨⟨rfl, rfl, rfl⟩, rfl⟩ := by simpa using hread
    rfl

theorem reads_readRecords {build : Build} {assembly : Assembly} {records messages : List Bytes}
    {frame : Frame} (hassembles : Assembles build assembly records frame)
    {noise last : TransportState Cipher} (hopened : Opened snow noise records messages last)
    (encrypted plaintext : Bytes) :
    ∃ reader : SecureFrameReader Cipher, reader.noise = some last ∧
      ∀ (link : Link) (rest : Bytes), link.incoming = messages.flatMap packet ++ rest →
        readRecords snow build assembly noise encrypted plaintext link =
          (.ok (frame, reader), { link with incoming := rest }) := by
  induction hassembles generalizing noise messages encrypted plaintext with
  | @last assembly record frame haccept =>
      cases hopened with
      | @cons _ middle _ _ message _ messages hmessage hle hrest =>
          cases hrest
          refine ⟨⟨some last, message, record⟩, rfl, ?_⟩
          intro link rest hincoming
          rw [List.flatMap_cons, List.flatMap_nil, List.append_nil] at hincoming
          rw [readRecords_eq (reads_readNoiseRecordInto hle hmessage _ _ link rest hincoming),
            haccept]
  | @more assembly next record records frame haccept _ ih =>
      cases hopened with
      | @cons _ middle _ _ message _ messages hmessage hle hrest =>
          obtain ⟨reader, hnoise, hreads⟩ := ih hrest message record
          refine ⟨reader, hnoise, ?_⟩
          intro link rest hincoming
          rw [List.flatMap_cons, List.append_assoc] at hincoming
          rw [readRecords_eq (reads_readNoiseRecordInto hle hmessage _ _ link _ hincoming),
            haccept]
          exact hreads _ rest rfl

/-- One end of the transport for each of several frames. -/
def writeFrames (snow : Snow Handshake Cipher) (build : Build) :
    Option (TransportState Cipher) → List Frame → Io String (Option (TransportState Cipher))
  | noise, [] => pure noise
  | noise, frame :: frames => do
      let noise ← writeRaw snow build noise frame.kind frame.streamId frame.payload
      writeFrames snow build noise frames

def readFrames (snow : Snow Handshake Cipher) (build : Build) :
    SecureFrameReader Cipher → Nat → Io String (List Frame × SecureFrameReader Cipher)
  | reader, 0 => pure ([], reader)
  | reader, count + 1 => do
      let (frame, reader) ← reader.readFrame snow build
      let (frames, reader) ← readFrames snow build reader count
      pure (frame :: frames, reader)

variable (snow) in
/-- The ends of a connection are both plain, or in step for `count` messages. -/
def Matching (count : Nat) : Option (TransportState Cipher) →
    Option (TransportState Cipher) → Prop
  | none, none => True
  | some sender, some receiver => InStep snow count sender.cipher receiver.cipher
  | _, _ => False

variable (snow) in
/-- `piece` is made of records of bounded size, the last of which is marked. -/
def WellRecorded (noise next : TransportState Cipher) (piece : Bytes) : Prop :=
  ∃ records messages,
    Sealed snow noise records messages next ∧ piece = messages.flatMap packet ∧
    (∀ record ∈ records, record.length ≤ noiseChunk + 1) ∧
    (∀ message ∈ messages, message.length ≤ maxNoiseMessage ∧ message.length ≤ maxPacket) ∧
    ∃ count, records.map List.head? = List.replicate count (some 0) ++ [some 1]

variable (snow) in
/-- `piece` is what `frame` becomes between two ends, which go on as `sender'` and
`receiver'`. Any reader, however it is buffered, takes exactly `piece`. -/
structure Carries (writer reader : Build)
    (sender receiver sender' receiver' : Option (TransportState Cipher))
    (frame : Frame) (piece : Bytes) : Prop where
  writes : Writes (writeRaw snow writer sender frame.kind frame.streamId frame.payload)
    piece sender'
  reads : ∀ encrypted plaintext, ∃ next : SecureFrameReader Cipher,
    next.noise = receiver' ∧
    Reads (SecureFrameReader.readFrame snow reader ⟨receiver, encrypted, plaintext⟩) piece
      (frame, next)
  recorded : ∀ noise, sender = some noise →
    ∃ next, sender' = some next ∧ WellRecorded snow noise next piece

variable (snow) in
inductive CarriesAll (writer reader : Build) :
    Option (TransportState Cipher) → Option (TransportState Cipher) →
      List Frame → List Bytes → Prop
  | nil (sender receiver : Option (TransportState Cipher)) :
      CarriesAll writer reader sender receiver [] []
  | cons {sender receiver sender' receiver' : Option (TransportState Cipher)}
      {frame : Frame} {piece : Bytes} {frames : List Frame} {pieces : List Bytes} :
      Carries snow writer reader sender receiver sender' receiver' frame piece →
      CarriesAll writer reader sender' receiver' frames pieces →
      CarriesAll writer reader sender receiver (frame :: frames) (piece :: pieces)

/-- `records` went from one state to the other, and nothing else happened. -/
structure Logged (records : List Bytes)
    (sender receiver sender' receiver' : TransportState Cipher) : Prop where
  senderKeying : sender'.keying = sender.keying
  receiverKeying : receiver'.keying = receiver.keying
  sent : sender'.sent = sender.sent ++ records
  received : receiver'.received = receiver.received ++ records
  senderReceived : sender'.received = sender.received
  receiverSent : receiver'.sent = receiver.sent

section Carries

variable {writer reader : Build} {frame : Frame}

theorem exists_frameHeader (writer : Build) (hsize : frame.payload.length ≤ maxPayload) :
    ∃ header, frameHeader writer frame.kind frame.streamId frame.payload.length = .ok header :=
  ⟨_, frameHeader_eq_ok_iff.mpr ⟨hsize, rfl⟩⟩

variable (snow) in
theorem carries_plain (hmajor : writer.protocolMajor = reader.protocolMajor)
    (hsize : frame.payload.length ≤ maxPayload) :
    ∃ piece, Carries snow writer reader none none none none frame piece := by
  obtain ⟨header, hheader⟩ := exists_frameHeader writer hsize
  refine ⟨header ++ frame.payload, ?_, ?_, ?_⟩
  · rw [← List.append_nil (header ++ frame.payload)]
    exact (writes_writeRawFrame hheader).bind (.pure none)
  · intro encrypted plaintext
    refine ⟨⟨none, encrypted, plaintext⟩, rfl, ?_⟩
    rw [← List.append_nil (header ++ frame.payload)]
    exact (reads_readFrame hmajor hheader).bind (.pure _)
  · simp

theorem carries_encrypted (hmajor : writer.protocolMajor = reader.protocolMajor)
    (hsize : frame.payload.length ≤ maxPayload) {count : Nat}
    {sender receiver : TransportState Cipher}
    (hstep : InStep snow (recordCount frame + count) sender.cipher receiver.cipher) :
    ∃ sender' receiver' piece records,
      Carries snow writer reader (some sender) (some receiver) (some sender') (some receiver')
        frame piece ∧ Logged records sender receiver sender' receiver' ∧
        InStep snow count sender'.cipher receiver'.cipher := by
  obtain ⟨header, hheader⟩ := exists_frameHeader writer hsize
  have hlen := length_frameHeader hheader
  have hmessage : (header ++ frame.payload).length = headerLen + frame.payload.length := by
    rw [List.length_append, hlen]
  have hcount : (frameRecords header frame.payload).length = recordCount frame := by
    rw [frameRecords, length_recordsFrom, hmessage]
    rfl
  have hpacket : maxNoiseMessage ≤ maxPacket := by decide
  have hpos : 0 < headerLen := by decide
  rw [← hcount] at hstep
  obtain ⟨messages, sender', receiver', hsealed, hopened, hsizes, hnext⟩ :=
    hstep.carries (recordsFrom_bounds _ _)
  obtain ⟨hsenderKeying, hsenderReceived, hsent⟩ := hsealed.log
  obtain ⟨hreceiverKeying, hreceiverSent, hreceived⟩ := hopened.log
  refine ⟨sender', receiver', messages.flatMap packet, frameRecords header frame.payload,
    ⟨?_, ?_, ?_⟩, ⟨hsenderKeying, hreceiverKeying, hsent, hreceived, hsenderReceived,
      hreceiverSent⟩, hnext⟩
  · have hloop : Writes (do
        let noise ← writeRecords snow header frame.payload 0 sender
        pure (some noise) : Io String (Option (TransportState Cipher)))
        (messages.flatMap packet ++ []) (some sender') :=
      (writes_writeRecords hlen hsealed).bind (.pure _)
    rw [List.append_nil] at hloop
    rw [← List.nil_append (messages.flatMap packet)]
    exact (writes_attempt hheader).bind hloop
  · intro encrypted plaintext
    obtain ⟨next, hnoise, hreads⟩ := reads_readRecords
      (assembles_frameRecords hmajor hheader) hopened encrypted plaintext
    exact ⟨next, hnoise, hreads⟩
  · rintro noise ⟨⟩
    refine ⟨sender', rfl, frameRecords header frame.payload, messages, hsealed, rfl,
      recordsFrom_bounds _ _, ?_, recordsFrom_flags _ (by omega)⟩
    intro message hmem
    exact ⟨hsizes message hmem, (hsizes message hmem).trans hpacket⟩

theorem exists_carries (hmajor : writer.protocolMajor = reader.protocolMajor)
    (hsize : frame.payload.length ≤ maxPayload) {count : Nat}
    {sender receiver : Option (TransportState Cipher)}
    (hmatch : Matching snow (recordCount frame + count) sender receiver) :
    ∃ sender' receiver' piece,
      Carries snow writer reader sender receiver sender' receiver' frame piece ∧
        Matching snow count sender' receiver' := by
  cases sender with
  | none =>
      cases receiver with
      | none =>
          obtain ⟨piece, hcarries⟩ := carries_plain snow hmajor hsize
          exact ⟨none, none, piece, hcarries, trivial⟩
      | some receiver => exact hmatch.elim
  | some sender =>
      cases receiver with
      | none => exact hmatch.elim
      | some receiver =>
          obtain ⟨sender', receiver', piece, _, hcarries, _, hnext⟩ :=
            carries_encrypted hmajor hsize hmatch
          exact ⟨some sender', some receiver', piece, hcarries, hnext⟩

theorem exists_carriesAll (hmajor : writer.protocolMajor = reader.protocolMajor)
    {frames : List Frame} (hsizes : ∀ frame ∈ frames, frame.payload.length ≤ maxPayload)
    {sender receiver : Option (TransportState Cipher)}
    (hmatch : Matching snow (frames.map recordCount).sum sender receiver) :
    ∃ pieces, CarriesAll snow writer reader sender receiver frames pieces := by
  induction frames generalizing sender receiver with
  | nil => exact ⟨[], .nil _ _⟩
  | cons frame frames ih =>
      obtain ⟨sender', receiver', piece, hcarries, hnext⟩ :=
        exists_carries hmajor (hsizes frame List.mem_cons_self) hmatch
      obtain ⟨pieces, hpieces⟩ :=
        ih (fun f hf => hsizes f (List.mem_cons_of_mem _ hf)) hnext
      exact ⟨piece :: pieces, .cons hcarries hpieces⟩

theorem CarriesAll.writes {sender receiver : Option (TransportState Cipher)}
    {frames : List Frame} {pieces : List Bytes}
    (h : CarriesAll snow writer reader sender receiver frames pieces) :
    ∃ last, Writes (writeFrames snow writer sender frames) pieces.flatten last := by
  induction h with
  | nil sender receiver => exact ⟨sender, .pure sender⟩
  | cons hcarries _ ih =>
      obtain ⟨last, hlast⟩ := ih
      exact ⟨last, hcarries.writes.bind hlast⟩

theorem CarriesAll.reads {sender receiver : Option (TransportState Cipher)}
    {frames : List Frame} {pieces : List Bytes}
    (h : CarriesAll snow writer reader sender receiver frames pieces)
    (encrypted plaintext : Bytes) :
    ∃ last, Reads (readFrames snow reader ⟨receiver, encrypted, plaintext⟩ frames.length)
      pieces.flatten (frames, last) := by
  induction h generalizing encrypted plaintext with
  | nil sender receiver => exact ⟨_, .pure _⟩
  | @cons _ _ _ _ frame piece frames pieces hcarries _ ih =>
      obtain ⟨next, rfl, hread⟩ := hcarries.reads encrypted plaintext
      obtain ⟨last, hlast⟩ := ih next.encryptedScratch next.plaintextScratch
      have hrest : Reads (do
          let (frames, reader) ← readFrames snow reader next frames.length
          pure (frame :: frames, reader) :
            Io String (List Frame × SecureFrameReader Cipher))
          (pieces.flatten ++ []) (frame :: frames, last) :=
        hlast.bind (.pure _)
      rw [List.append_nil] at hrest
      exact ⟨last, hread.bind hrest⟩

end Carries

/-- Frames go through the transport one piece each, whatever parts the writer takes. -/
theorem frames_roundTrip (snow : Snow Handshake Cipher) {writer reader : Build}
    (hmajor : writer.protocolMajor = reader.protocolMajor) (frames : List Frame)
    (hsizes : ∀ frame ∈ frames, frame.payload.length ≤ maxPayload)
    (sender receiver : Option (TransportState Cipher))
    (hmatch : Matching snow (frames.map recordCount).sum sender receiver) :
    ∃ pieces,
      (∃ last, Writes (writeFrames snow writer sender frames) pieces.flatten last) ∧
      (∀ encrypted plaintext, ∃ last,
        Reads (readFrames snow reader ⟨receiver, encrypted, plaintext⟩ frames.length)
          pieces.flatten (frames, last)) ∧
      CarriesAll snow writer reader sender receiver frames pieces := by
  obtain ⟨pieces, h⟩ := exists_carriesAll hmajor hsizes hmatch
  exact ⟨pieces, h.writes, h.reads, h⟩

/-- A Noise library that encrypts nothing: a handshake message is what the handshake is
built from, a message is its payload and an empty tag. -/
def clearSnow : Snow Keying Unit where
  build keying := .ok keying
  writeHandshake keying _ := .ok (keying.psk.toList ++ keying.prologue, keying)
  readHandshake keying message _ :=
    if message = keying.psk.toList ++ keying.prologue then .ok keying
    else .error "decrypt error"
  intoTransportMode _ := .ok ()
  writeMessage _ payload room :=
    if payload.length + noiseTag ≤ maxNoiseMessage ∧ payload.length + noiseTag ≤ room then
      .ok (payload ++ List.replicate noiseTag 0, ())
    else .error "input error"
  readMessage _ message room :=
    if noiseTag ≤ message.length ∧ message.length ≤ maxNoiseMessage ∧
        message.length ≤ room + noiseTag then
      .ok (message.take (message.length - noiseTag), ())
    else .error "decrypt error"

theorem inStep_clearSnow (count : Nat) : InStep clearSnow count () () := by
  induction count with
  | zero => trivial
  | succ count ih =>
      intro payload room hlimit hroom
      refine ⟨payload ++ List.replicate noiseTag 0, (), (), ?_, by simp, ?_, ih⟩
      · simp only [clearSnow, if_pos (And.intro hlimit hroom)]
      · intro space hspace
        have hlen : (payload ++ List.replicate noiseTag (0 : UInt8)).length =
            payload.length + noiseTag := by
          simp
        rw [hlen] at hspace
        simp only [clearSnow, hlen]
        rw [if_pos (by omega), Nat.add_sub_cancel, List.take_left]

def filePart : Bytes := List.replicate 70000 120

/-- Three frames, of which the second takes two records. -/
def sentFrames : List Frame :=
  [⟨.ptyInput, 42, [97, 98, 99]⟩, ⟨.fileChunk, 7, filePart⟩, ⟨.ping, 0, []⟩]

theorem frames_roundTrip_sentFrames :
    sentFrames.map recordCount = [1, 2, 1] ∧ ∃ pieces,
      (∃ last, Writes (writeFrames clearSnow currentBuild
        (some ⟨⟨.initiator, Vector.replicate 32 7, []⟩, [], [], ()⟩) sentFrames)
          pieces.flatten last) ∧
      (∀ encrypted plaintext, ∃ last,
        Reads (readFrames clearSnow currentBuild
          ⟨some ⟨⟨.responder, Vector.replicate 32 7, []⟩, [], [], ()⟩, encrypted, plaintext⟩
          sentFrames.length) pieces.flatten (sentFrames, last)) ∧
      CarriesAll clearSnow currentBuild currentBuild
        (some ⟨⟨.initiator, Vector.replicate 32 7, []⟩, [], [], ()⟩)
        (some ⟨⟨.responder, Vector.replicate 32 7, []⟩, [], [], ()⟩)
        sentFrames pieces := by
  have hlength : filePart.length = 70000 := List.length_replicate
  have hcounts : sentFrames.map recordCount = [1, 2, 1] := by
    simp [sentFrames, recordCount, hlength, headerLen, noiseChunk]
  have hsizes : ∀ frame ∈ sentFrames, frame.payload.length ≤ maxPayload := by
    simp [sentFrames, hlength, maxPayload]
  refine ⟨hcounts, frames_roundTrip clearSnow rfl sentFrames hsizes _ _ ?_⟩
  rw [hcounts]
  exact inStep_clearSnow _

end SideWire.FrameTransport
