import SideWire.FrameCodec

/-!
A whole frame as one byte string, and how the two decoders and the encoder fit together.
-/

namespace SideWire.FrameBytes

open SideWire.ByteString
open SideWire.ByteLink
open SideWire.FrameCodec

def encodeFrameBytes (build : Build) (frame : Frame) : Except String Bytes := do
  let header ← frameHeader build frame.kind frame.streamId frame.payload.length
  .ok (header ++ frame.payload)

def decodeFrameBytes (build : Build) (bytes : Bytes) : Except String Frame :=
  if bytes.length < headerLen then .error "truncated SideWire frame"
  else
    match decodeFrameHeader build (bytes.take headerLen) with
    | .error error => .error error
    | .ok (kind, streamId, payloadLen) =>
        if bytes.length ≠ headerLen + payloadLen then .error "invalid SideWire frame length"
        else .ok ⟨kind, streamId, bytes.drop headerLen⟩

/-- The bytes of a frame under a given version. -/
def wireFrame (major minor : UInt8) (frame : Frame) : Bytes :=
  wireHeader major minor frame.kind frame.streamId frame.payload.length ++ frame.payload

section Laws

variable {build : Build} {frame frame' : Frame} {bytes bytes' : Bytes} {major minor : UInt8}

@[simp] theorem length_wireFrame (major minor : UInt8) (frame : Frame) :
    (wireFrame major minor frame).length = headerLen + frame.payload.length := by
  simp [wireFrame]

theorem wireFrame_set_minor (major minor minor' : UInt8) (frame : Frame) :
    (wireFrame major minor frame).set 5 minor' = wireFrame major minor' frame := by
  simp [wireFrame, wireHeader, magic]

theorem encodeFrameBytes_eq_ok_iff :
    encodeFrameBytes build frame = .ok bytes ↔
      frame.payload.length ≤ maxPayload ∧
        bytes = wireFrame build.protocolMajor build.protocolMinor frame := by
  constructor
  · intro h
    cases hheader : frameHeader build frame.kind frame.streamId frame.payload.length with
    | error error => simp [encodeFrameBytes, hheader, bind, Except.bind] at h
    | ok header =>
        obtain ⟨hle, rfl⟩ := frameHeader_eq_ok_iff_wireHeader.mp hheader
        refine ⟨hle, ?_⟩
        simpa [encodeFrameBytes, hheader, bind, Except.bind, wireFrame, eq_comm] using h
  · rintro ⟨hle, rfl⟩
    have hheader : frameHeader build frame.kind frame.streamId frame.payload.length = .ok _ :=
      frameHeader_eq_ok_iff_wireHeader.mpr ⟨hle, rfl⟩
    simp [encodeFrameBytes, hheader, bind, Except.bind, wireFrame]

theorem decodeFrameBytes_wireFrame (hle : frame.payload.length ≤ maxPayload) :
    decodeFrameBytes build (wireFrame build.protocolMajor minor frame) = .ok frame := by
  have hheader : (wireFrame build.protocolMajor minor frame).take headerLen =
      wireHeader build.protocolMajor minor frame.kind frame.streamId frame.payload.length := by
    rw [wireFrame, ← length_wireHeader build.protocolMajor minor, List.take_left]
  have hpayload : (wireFrame build.protocolMajor minor frame).drop headerLen =
      frame.payload := by
    rw [wireFrame, ← length_wireHeader build.protocolMajor minor, List.drop_left]
  rw [decodeFrameBytes, length_wireFrame, if_neg (by omega), hheader,
    decodeFrameHeader_wireHeader minor hle]
  simp [hpayload]

/-- The byte strings a build accepts as a frame: those of its own major, of any minor. -/
theorem decodeFrameBytes_eq_ok_iff :
    decodeFrameBytes build bytes = .ok frame ↔
      frame.payload.length ≤ maxPayload ∧
        ∃ minor, bytes = wireFrame build.protocolMajor minor frame := by
  constructor
  · intro h
    unfold decodeFrameBytes at h
    split_ifs at h with hshort
    have hheader : (bytes.take headerLen).length = headerLen := by
      rw [List.length_take]
      omega
    split at h
    · cases h
    · rename_i kind streamId payloadLen hdecode
      split_ifs at h with hlen
      obtain rfl : (⟨kind, streamId, bytes.drop headerLen⟩ : Frame) = frame := by simpa using h
      have hpayload : (bytes.drop headerLen).length = payloadLen := by
        rw [List.length_drop]
        omega
      obtain ⟨hle, minor, heq⟩ := (decodeFrameHeader_eq_ok_iff hheader).mp hdecode
      refine ⟨by rwa [hpayload], minor, ?_⟩
      rw [wireFrame, hpayload, ← heq, List.take_append_drop]
  · rintro ⟨hle, minor, rfl⟩
    exact decodeFrameBytes_wireFrame hle

theorem wireFrame_inj_of_prefix {minor' : UInt8} (hle : frame.payload.length ≤ maxPayload)
    (hle' : frame'.payload.length ≤ maxPayload)
    (h : wireFrame major minor frame <+: wireFrame major minor' frame') :
    wireFrame major minor frame = wireFrame major minor' frame' := by
  obtain ⟨rest, hrest⟩ := h
  have hheaders := List.append_inj (by simpa [wireFrame] using hrest :
    wireHeader major minor frame.kind frame.streamId frame.payload.length ++
      (frame.payload ++ rest) =
    wireHeader major minor' frame'.kind frame'.streamId frame'.payload.length ++
      frame'.payload) (by simp)
  have hdecode : decodeFrameHeader ⟨major, 0⟩ (wireHeader major minor frame.kind
      frame.streamId frame.payload.length) =
        .ok (frame.kind, frame.streamId, frame.payload.length) :=
    decodeFrameHeader_wireHeader minor hle
  have hdecode' : decodeFrameHeader ⟨major, 0⟩ (wireHeader major minor' frame'.kind
      frame'.streamId frame'.payload.length) =
        .ok (frame'.kind, frame'.streamId, frame'.payload.length) :=
    decodeFrameHeader_wireHeader minor' hle'
  rw [hheaders.1, hdecode'] at hdecode
  have hlen : frame'.payload.length = frame.payload.length := by
    simpa using (congrArg (fun decoded => decoded.2.2) (Except.ok.inj hdecode))
  apply List.IsPrefix.eq_of_length ⟨rest, hrest⟩
  rw [length_wireFrame, length_wireFrame, hlen]

theorem reads_readFrame_wireFrame (hle : frame.payload.length ≤ maxPayload) :
    Reads (readFrame build) (wireFrame build.protocolMajor minor frame) frame := by
  have hheader := reads_readExact (ε := String) (wireHeader build.protocolMajor minor
    frame.kind frame.streamId frame.payload.length)
  have hpayload : Reads (do
      let payload ← readExact frame.payload.length
      pure (⟨frame.kind, frame.streamId, payload⟩ : Frame) : Io String Frame)
      (frame.payload ++ []) frame :=
    (reads_readExact frame.payload).bind (.pure _)
  rw [length_wireHeader] at hheader
  rw [List.append_nil] at hpayload
  exact hheader.bind ((reads_attempt (decodeFrameHeader_wireHeader minor hle)).bind hpayload)

/-- The streaming decoder takes a frame off the connection exactly when the whole
bytes are one. -/
theorem returns_readFrame_iff {link link' : Link} :
    Returns (readFrame build) link frame link' ↔
      ∃ bytes, link.incoming = bytes ++ link'.incoming ∧
        link' = { link with incoming := link'.incoming } ∧
        decodeFrameBytes build bytes = .ok frame := by
  simp only [decodeFrameBytes_eq_ok_iff]
  constructor
  · intro h
    obtain ⟨header, middle, hread, ⟨kind, streamId, payloadLen⟩, middle', hdecoded,
      payload, link'', hpayload, hframe⟩ := by
        simpa only [readFrame, returns_bind, returns_pure] using h
    obtain ⟨hlen, hincoming, hmiddle⟩ := returns_readExact.mp hread
    obtain ⟨hdecode, rfl⟩ := returns_attempt.mp hdecoded
    obtain ⟨hsize, hmore, hlink⟩ := returns_readExact.mp hpayload
    obtain ⟨rfl, rfl⟩ := hframe
    obtain ⟨hle, minor, rfl⟩ := (decodeFrameHeader_eq_ok_iff hlen).mp hdecode
    dsimp only at hsize
    subst hsize
    refine ⟨_, ?_, ?_, hle, minor, rfl⟩
    · rw [hincoming, hmore, wireFrame, List.append_assoc]
    · rw [hlink, hmiddle]
  · rintro ⟨_, hincoming, hlink, hle, minor, rfl⟩
    rw [hlink]
    exact reads_readFrame_wireFrame hle link _ hincoming

/-- A header whose length field is out of bounds is an error of every decoder, and the
streaming one has read nothing else by then. -/
theorem refused_of_large {header : Bytes} (hheader : header.length = headerLen)
    (hlarge : maxPayload < ofBigEndian (header.drop 12)) :
    ∃ error, decodeFrameHeader build header = .error error ∧
      (∀ rest, decodeFrameBytes build (header ++ rest) = .error error) ∧
      ∀ (link : Link) (rest : Bytes), link.incoming = header ++ rest →
        Fails (readFrame build) link (.raised error) { link with incoming := rest } := by
  cases hdecode : decodeFrameHeader build header with
  | ok decoded =>
      obtain ⟨kind, streamId, payloadLen⟩ := decoded
      obtain ⟨hle, minor, rfl⟩ := (decodeFrameHeader_eq_ok_iff hheader).mp hdecode
      have hdrop : (wireHeader build.protocolMajor minor kind streamId payloadLen).drop 12 =
          bigEndian 4 payloadLen := by
        simp [wireHeader, magic, bigEndian]
      rw [hdrop, ofBigEndian_bigEndian 4 _ (Nat.lt_of_le_of_lt hle (by decide))] at hlarge
      exact absurd hle (Nat.not_le.mpr hlarge)
  | error error =>
      refine ⟨error, rfl, ?_, ?_⟩
      · intro rest
        rw [decodeFrameBytes, if_neg (by rw [List.length_append]; omega),
          List.take_left' hheader, hdecode]
      · intro link rest hincoming
        have hread : Returns (readExact headerLen : Io String Bytes) link header
            { link with incoming := rest } := returns_readExact.mpr ⟨hheader, hincoming, rfl⟩
        exact fails_bind.mpr (.inr ⟨header, _, hread,
          fails_bind.mpr (.inl (fails_attempt.mpr ⟨⟨error, hdecode, rfl⟩, rfl⟩))⟩)

/-- The laws of the frame codec, for any build. -/
theorem frame_codec_laws (build : Build) :
    (∀ frame : Frame, frame.payload.length ≤ maxPayload →
      ∃ bytes, encodeFrameBytes build frame = .ok bytes ∧
        decodeFrameBytes build bytes = .ok frame) ∧
    (∀ frame frame' bytes bytes', encodeFrameBytes build frame = .ok bytes →
      encodeFrameBytes build frame' = .ok bytes' → bytes <+: bytes' → bytes = bytes') ∧
    (∀ (link : Link) (frame : Frame),
      decodeFrameBytes build link.incoming = .ok frame ↔
        ∃ link', Returns (readFrame build) link frame link' ∧ link'.incoming = []) ∧
    (∀ bytes frame, decodeFrameBytes build bytes = .ok frame →
      encodeFrameBytes build frame = .ok (bytes.set 5 build.protocolMinor)) ∧
    (∀ frame : Frame, maxPayload < frame.payload.length →
      encodeFrameBytes build frame =
        .error s!"payload too large: {frame.payload.length} bytes") ∧
    (∀ header kind streamId payloadLen,
      decodeFrameHeader build header = .ok (kind, streamId, payloadLen) →
        payloadLen ≤ maxPayload) ∧
    (∀ header : Bytes, header.length = headerLen → maxPayload < ofBigEndian (header.drop 12) →
      ∃ error, decodeFrameHeader build header = .error error ∧
        (∀ rest, decodeFrameBytes build (header ++ rest) = .error error) ∧
        ∀ (link : Link) (rest : Bytes), link.incoming = header ++ rest →
          Fails (readFrame build) link (.raised error) { link with incoming := rest }) := by
  refine ⟨?_, ?_, ?_, ?_, ?_, ?_, ?_⟩
  · intro frame hle
    exact ⟨_, encodeFrameBytes_eq_ok_iff.mpr ⟨hle, rfl⟩, decodeFrameBytes_wireFrame hle⟩
  · intro frame frame' bytes bytes' h h' hstart
    obtain ⟨hle, rfl⟩ := encodeFrameBytes_eq_ok_iff.mp h
    obtain ⟨hle', rfl⟩ := encodeFrameBytes_eq_ok_iff.mp h'
    exact wireFrame_inj_of_prefix hle hle' hstart
  · intro link frame
    simp only [returns_readFrame_iff]
    constructor
    · intro h
      exact ⟨{ link with incoming := [] }, ⟨_, (List.append_nil _).symm, rfl, h⟩, rfl⟩
    · rintro ⟨link', ⟨bytes, hincoming, -, h⟩, hend⟩
      rwa [hincoming, hend, List.append_nil]
  · intro bytes frame h
    obtain ⟨hle, minor, rfl⟩ := decodeFrameBytes_eq_ok_iff.mp h
    exact encodeFrameBytes_eq_ok_iff.mpr ⟨hle, wireFrame_set_minor _ _ _ _⟩
  · intro frame hlarge
    simp [encodeFrameBytes, frameHeader, hlarge, bind, Except.bind]
  · intro header kind streamId payloadLen h
    exact le_maxPayload_of_decodeFrameHeader h
  · intro header hheader hlarge
    exact refused_of_large hheader hlarge

end Laws

end SideWire.FrameBytes
