import SideWire.Base.ByteLink

/-!
The frames of a connection and their encoding, for any build of the protocol crate.
-/

namespace SideWire.FrameCodec

open SideWire.ByteString
open SideWire.ByteLink

/-- The constants a build is compiled with. -/
structure Build where
  protocolMajor : UInt8
  protocolMinor : UInt8
  deriving DecidableEq

/-- The build of this repository. -/
def currentBuild : Build := ⟨1, 2⟩

def protocolMajor (version : UInt16) : UInt8 := (version >>> 8).toUInt8

def protocolMinor (version : UInt16) : UInt8 := version.toUInt8

namespace Build

def version (build : Build) : UInt16 :=
  (build.protocolMajor.toUInt16 <<< 8) ||| build.protocolMinor.toUInt16

def protocolCompatible (build : Build) (version : UInt16) : Bool :=
  FrameCodec.protocolMajor version == build.protocolMajor

def negotiatedVersion (build : Build) (peer : UInt16) : Option UInt16 :=
  if build.protocolCompatible peer then
    some ((build.protocolMajor.toUInt16 <<< 8) |||
      (if build.protocolMinor < FrameCodec.protocolMinor peer then build.protocolMinor
        else FrameCodec.protocolMinor peer).toUInt16)
  else none

end Build

def protocolLabel (version : UInt16) : String :=
  s!"{(protocolMajor version).toNat}.{(protocolMinor version).toNat}"

theorem toNat_join (major minor : UInt8) :
    ((major.toUInt16 <<< 8) ||| minor.toUInt16).toNat = major.toNat * 256 + minor.toNat := by
  have hmajor := major.toNat_lt
  have hminor := minor.toNat_lt
  have hshift : (major.toUInt16 <<< 8).toNat = major.toNat <<< 8 := by
    have height : UInt16.toNat 8 % 16 = 8 := rfl
    rw [UInt16.toNat_shiftLeft, height, UInt8.toNat_toUInt16, Nat.shiftLeft_eq]
    exact Nat.mod_eq_of_lt (by omega)
  rw [UInt16.toNat_or, hshift, UInt8.toNat_toUInt16,
    ← Nat.shiftLeft_add_eq_or_of_lt (by omega), Nat.shiftLeft_eq]

theorem toNat_protocolMajor (version : UInt16) :
    (protocolMajor version).toNat = version.toNat / 256 := by
  have hversion := version.toNat_lt
  have height : UInt16.toNat 8 % 16 = 8 := rfl
  rw [protocolMajor, UInt16.toNat_toUInt8, UInt16.toNat_shiftRight, height,
    Nat.shiftRight_eq_div_pow]
  omega

theorem toNat_protocolMinor (version : UInt16) :
    (protocolMinor version).toNat = version.toNat % 256 := by
  simp [protocolMinor]

@[simp] theorem protocolMajor_join (major minor : UInt8) :
    protocolMajor ((major.toUInt16 <<< 8) ||| minor.toUInt16) = major := by
  have hminor := minor.toNat_lt
  apply UInt8.toNat_inj.mp
  rw [toNat_protocolMajor, toNat_join]
  omega

@[simp] theorem protocolMinor_join (major minor : UInt8) :
    protocolMinor ((major.toUInt16 <<< 8) ||| minor.toUInt16) = minor := by
  have hminor := minor.toNat_lt
  apply UInt8.toNat_inj.mp
  rw [toNat_protocolMinor, toNat_join]
  omega

@[simp] theorem protocolMajor_version (build : Build) :
    protocolMajor build.version = build.protocolMajor :=
  protocolMajor_join _ _

@[simp] theorem protocolMinor_version (build : Build) :
    protocolMinor build.version = build.protocolMinor :=
  protocolMinor_join _ _

theorem protocolCompatible_version {host device : Build} :
    host.protocolCompatible device.version = true ↔
      device.protocolMajor = host.protocolMajor := by
  simp [Build.protocolCompatible]

/-- The version of the older one of two builds of one major. -/
def agreedVersion (host device : Build) : UInt16 :=
  (host.protocolMajor.toUInt16 <<< 8) |||
    (min host.protocolMinor device.protocolMinor).toUInt16

theorem min_comm_minor (m n : UInt8) : min m n = min n m := by
  apply UInt8.toNat_inj.mp
  rw [UInt8.toNat_min, UInt8.toNat_min, Nat.min_comm]

theorem negotiatedVersion_version {host device : Build} {version : UInt16} :
    host.negotiatedVersion device.version = some version ↔
      device.protocolMajor = host.protocolMajor ∧ version = agreedVersion host device := by
  have hmin : (if host.protocolMinor < device.protocolMinor then host.protocolMinor
      else device.protocolMinor) = min host.protocolMinor device.protocolMinor := by
    apply UInt8.toNat_inj.mp
    rw [UInt8.toNat_min]
    split_ifs with hlt <;> rw [UInt8.lt_iff_toNat_lt] at hlt <;> omega
  unfold Build.negotiatedVersion agreedVersion
  rw [protocolMinor_version, hmin]
  split_ifs with hcompatible
  · rw [protocolCompatible_version] at hcompatible
    simp [hcompatible, eq_comm]
  · rw [protocolCompatible_version] at hcompatible
    simp [hcompatible]

theorem agreedVersion_comm {host device : Build}
    (h : device.protocolMajor = host.protocolMajor) :
    agreedVersion device host = agreedVersion host device := by
  rw [agreedVersion, agreedVersion, h, min_comm_minor]

def magic : Bytes := [0x53, 0x49, 0x44, 0x45]
def headerLen : Nat := 16
def maxPayload : Nat := 16 * 1024 * 1024

inductive FrameKind
  | hello
  | helloAck
  | execRequest
  | execStdout
  | execStderr
  | execExit
  | pushRequest
  | fileChunk
  | fileEnd
  | pullRequest
  | fileMeta
  | proxyStartRequest
  | proxyStartAck
  | ptyOpen
  | ptyOpenAck
  | ptyInput
  | ptyOutput
  | ptyResize
  | ptyExit
  | ptyClose
  | ptyComplete
  | ptyCompleteResult
  | clipboardGet
  | clipboardSet
  | clipboardClear
  | clipboardData
  | ping
  | pong
  | streamCancel
  | streamWindowUpdate
  | error
  deriving DecidableEq

namespace FrameKind

def toU16 : FrameKind → UInt16
  | hello => 1
  | helloAck => 2
  | execRequest => 10
  | execStdout => 11
  | execStderr => 12
  | execExit => 13
  | pushRequest => 30
  | fileChunk => 31
  | fileEnd => 32
  | pullRequest => 33
  | fileMeta => 34
  | proxyStartRequest => 40
  | proxyStartAck => 41
  | ptyOpen => 50
  | ptyOpenAck => 51
  | ptyInput => 52
  | ptyOutput => 53
  | ptyResize => 54
  | ptyExit => 55
  | ptyClose => 56
  | ptyComplete => 57
  | ptyCompleteResult => 58
  | clipboardGet => 60
  | clipboardSet => 61
  | clipboardClear => 62
  | clipboardData => 63
  | ping => 20
  | pong => 21
  | streamCancel => 22
  | streamWindowUpdate => 23
  | error => 255

def tryFrom (value : UInt16) : Except String FrameKind :=
  match value with
  | 1 => .ok hello
  | 2 => .ok helloAck
  | 10 => .ok execRequest
  | 11 => .ok execStdout
  | 12 => .ok execStderr
  | 13 => .ok execExit
  | 30 => .ok pushRequest
  | 31 => .ok fileChunk
  | 32 => .ok fileEnd
  | 33 => .ok pullRequest
  | 34 => .ok fileMeta
  | 40 => .ok proxyStartRequest
  | 41 => .ok proxyStartAck
  | 50 => .ok ptyOpen
  | 51 => .ok ptyOpenAck
  | 52 => .ok ptyInput
  | 53 => .ok ptyOutput
  | 54 => .ok ptyResize
  | 55 => .ok ptyExit
  | 56 => .ok ptyClose
  | 57 => .ok ptyComplete
  | 58 => .ok ptyCompleteResult
  | 60 => .ok clipboardGet
  | 61 => .ok clipboardSet
  | 62 => .ok clipboardClear
  | 63 => .ok clipboardData
  | 20 => .ok ping
  | 21 => .ok pong
  | 22 => .ok streamCancel
  | 23 => .ok streamWindowUpdate
  | 255 => .ok error
  | other => .error s!"unknown frame kind {other.toNat}"

theorem tryFrom_toU16 (kind : FrameKind) : tryFrom kind.toU16 = .ok kind := by
  cases kind <;> rfl

theorem tryFrom_eq_ok_iff {value : UInt16} {kind : FrameKind} :
    tryFrom value = .ok kind ↔ value = kind.toU16 := by
  constructor
  · intro h
    unfold tryFrom at h
    split at h <;> cases h <;> rfl
  · rintro rfl
    exact tryFrom_toU16 kind

end FrameKind

/-- One frame of any stream. -/
structure Frame where
  kind : FrameKind
  streamId : UInt32
  payload : Bytes
  deriving DecidableEq

def frameHeader (build : Build) (kind : FrameKind) (streamId : UInt32)
    (payloadLen : Nat) : Except String Bytes :=
  if maxPayload < payloadLen then .error s!"payload too large: {payloadLen} bytes"
  else
    .ok (magic ++ bigEndian 2 build.version.toNat ++ bigEndian 2 kind.toU16.toNat ++
      bigEndian 4 streamId.toNat ++ bigEndian 4 payloadLen)

def decodeFrameHeader (build : Build) (header : Bytes) :
    Except String (FrameKind × UInt32 × Nat) :=
  if header.take 4 ≠ magic then .error "invalid SideWire frame magic"
  else
    let version := UInt16.ofNat (ofBigEndian ((header.drop 4).take 2))
    if build.protocolCompatible version = false then
      .error s!"unsupported protocol version {protocolLabel version}"
    else
      match FrameKind.tryFrom (UInt16.ofNat (ofBigEndian ((header.drop 6).take 2))) with
      | .error error => .error error
      | .ok kind =>
          let streamId := UInt32.ofNat (ofBigEndian ((header.drop 8).take 4))
          let payloadLen := ofBigEndian ((header.drop 12).take 4)
          if maxPayload < payloadLen then .error s!"payload too large: {payloadLen} bytes"
          else .ok (kind, streamId, payloadLen)

section Header

variable {build : Build} {kind : FrameKind} {streamId : UInt32} {payloadLen : Nat}
  {header : Bytes}

theorem frameHeader_eq_ok_iff :
    frameHeader build kind streamId payloadLen = .ok header ↔
      payloadLen ≤ maxPayload ∧
        header = magic ++ bigEndian 2 build.version.toNat ++ bigEndian 2 kind.toU16.toNat ++
          bigEndian 4 streamId.toNat ++ bigEndian 4 payloadLen := by
  unfold frameHeader
  split_ifs with hlarge
  · simp only [false_iff, not_and]
    omega
  · simp only [Except.ok.injEq, eq_comm (b := header)]
    exact (and_iff_right (Nat.le_of_not_lt hlarge)).symm

theorem length_frameHeader (h : frameHeader build kind streamId payloadLen = .ok header) :
    header.length = headerLen := by
  rw [(frameHeader_eq_ok_iff.mp h).2]
  simp [magic, headerLen]

/-- The header of a frame as any build of major `major` writes it. -/
def wireHeader (major minor : UInt8) (kind : FrameKind) (streamId : UInt32)
    (payloadLen : Nat) : Bytes :=
  magic ++ [major, minor] ++ bigEndian 2 kind.toU16.toNat ++ bigEndian 4 streamId.toNat ++
    bigEndian 4 payloadLen

@[simp] theorem length_wireHeader (major minor : UInt8) :
    (wireHeader major minor kind streamId payloadLen).length = headerLen := by
  simp [wireHeader, magic, headerLen]

theorem bigEndian_version (build : Build) :
    bigEndian 2 build.version.toNat = [build.protocolMajor, build.protocolMinor] := by
  have hmajor := build.protocolMajor.toNat_lt
  have hminor := build.protocolMinor.toNat_lt
  have hhigh : UInt8.ofNat (build.version.toNat / 256) = build.protocolMajor := by
    apply UInt8.toNat_inj.mp
    rw [Build.version, toNat_join, UInt8.toNat_ofNat']
    omega
  have hlow : UInt8.ofNat build.version.toNat = build.protocolMinor := by
    apply UInt8.toNat_inj.mp
    rw [Build.version, toNat_join, UInt8.toNat_ofNat']
    omega
  simp only [bigEndian, Nat.pow_one, Nat.pow_zero, Nat.div_one, hhigh, hlow]

theorem frameHeader_eq_ok_iff_wireHeader :
    frameHeader build kind streamId payloadLen = .ok header ↔
      payloadLen ≤ maxPayload ∧
        header = wireHeader build.protocolMajor build.protocolMinor kind streamId payloadLen := by
  rw [frameHeader_eq_ok_iff, bigEndian_version, wireHeader]

theorem protocolMajor_ofBigEndian (major minor : UInt8) :
    protocolMajor (UInt16.ofNat (ofBigEndian [major, minor])) = major := by
  have hmajor := major.toNat_lt
  have hminor := minor.toNat_lt
  have hvalue : ofBigEndian [major, minor] = major.toNat * 256 + minor.toNat := by
    simp [ofBigEndian]
  apply UInt8.toNat_inj.mp
  rw [toNat_protocolMajor, hvalue, UInt16.toNat_ofNat']
  omega

theorem decodeFrameHeader_wireHeader (minor : UInt8) (hle : payloadLen ≤ maxPayload) :
    decodeFrameHeader build (wireHeader build.protocolMajor minor kind streamId payloadLen) =
      .ok (kind, streamId, payloadLen) := by
  have hcompatible : build.protocolCompatible
      (UInt16.ofNat (ofBigEndian [build.protocolMajor, minor])) = true := by
    rw [Build.protocolCompatible, protocolMajor_ofBigEndian, beq_self_eq_true]
  have hkind := ofBigEndian_bigEndian 2 kind.toU16.toNat kind.toU16.toNat_lt
  have hstream := ofBigEndian_bigEndian 4 streamId.toNat streamId.toNat_lt
  have hlen := ofBigEndian_bigEndian 4 payloadLen (Nat.lt_of_le_of_lt hle (by decide))
  simp only [decodeFrameHeader, wireHeader, magic, bigEndian, List.cons_append,
    List.nil_append, List.take_succ_cons, List.take_zero, List.drop_succ_cons, List.drop_zero,
    ne_eq, not_true_eq_false, if_false] at hkind hstream hlen ⊢
  rw [hkind, hstream, hlen, UInt16.ofNat_toNat, UInt32.ofNat_toNat, hcompatible,
    FrameKind.tryFrom_toU16]
  simp [Nat.not_lt.mpr hle]

/-- The headers a build accepts: those of its own major, of any minor. -/
theorem decodeFrameHeader_eq_ok_iff (hlen : header.length = headerLen) :
    decodeFrameHeader build header = .ok (kind, streamId, payloadLen) ↔
      payloadLen ≤ maxPayload ∧
        ∃ minor, header = wireHeader build.protocolMajor minor kind streamId payloadLen := by
  constructor
  · intro h
    have hslice : ∀ offset width, offset + width ≤ headerLen →
        ((header.drop offset).take width).length = width := by
      intro offset width hle
      rw [List.length_take, List.length_drop]
      omega
    obtain ⟨major, minor, hversion⟩ := List.length_eq_two.mp (hslice 4 2 (by decide))
    unfold decodeFrameHeader at h
    simp only [hversion, Build.protocolCompatible, protocolMajor_ofBigEndian] at h
    split_ifs at h with hmagic hmajor hlarge
    · split at h <;> cases h
    · split at h
      · cases h
      · rename_i found hkind
        obtain ⟨rfl, rfl, rfl⟩ := by simpa using h
        refine ⟨Nat.le_of_not_lt hlarge, minor, ?_⟩
        have hmajor : major = build.protocolMajor := by simpa using hmajor
        have hkind := FrameKind.tryFrom_eq_ok_iff.mp hkind
        have hkindBytes : (header.drop 6).take 2 = bigEndian 2 found.toU16.toNat := by
          rw [← hkind,
            UInt16.toNat_ofNat_of_lt' (ofBigEndian_lt_of_length (hslice 6 2 (by decide))),
            bigEndian_ofBigEndian_of_length (hslice 6 2 (by decide))]
        have hstreamBytes := bigEndian_ofBigEndian_of_length (hslice 8 4 (by decide))
        have hlenBytes := bigEndian_ofBigEndian_of_length (hslice 12 4 (by decide))
        have hrest : header.drop 16 = [] := List.drop_of_length_le (by rw [hlen]; decide)
        have hsplit : ∀ offset width, header.drop offset =
            (header.drop offset).take width ++ header.drop (offset + width) := by
          intro offset width
          rw [← List.drop_drop, List.take_append_drop]
        rw [wireHeader, hlenBytes, ← hkindBytes,
          UInt32.toNat_ofNat_of_lt' (ofBigEndian_lt_of_length (hslice 8 4 (by decide))),
          hstreamBytes, ← hmajor, ← hversion, ← not_not.mp hmagic]
        calc header = header.take 4 ++ header.drop 4 := (List.take_append_drop 4 header).symm
          _ = _ := by
            conv_lhs => rw [hsplit 4 2, hsplit 6 2, hsplit 8 4, hsplit 12 4, hrest]
            simp only [List.append_nil, List.append_assoc]
  · rintro ⟨hle, minor, rfl⟩
    exact decodeFrameHeader_wireHeader minor hle

theorem le_maxPayload_of_decodeFrameHeader
    (h : decodeFrameHeader build header = .ok (kind, streamId, payloadLen)) :
    payloadLen ≤ maxPayload := by
  unfold decodeFrameHeader at h
  dsimp only at h
  split_ifs at h with hmagic hmajor hlarge
  · split at h <;> cases h
  · split at h
    · cases h
    · obtain ⟨-, -, rfl⟩ := by simpa using h
      exact Nat.le_of_not_lt hlarge

/-- Any build of the same major reads the header another one writes. -/
theorem decodeFrameHeader_frameHeader {reader : Build}
    (hmajor : build.protocolMajor = reader.protocolMajor)
    (h : frameHeader build kind streamId payloadLen = .ok header) :
    decodeFrameHeader reader header = .ok (kind, streamId, payloadLen) := by
  obtain ⟨hle, rfl⟩ := frameHeader_eq_ok_iff_wireHeader.mp h
  rw [hmajor]
  exact decodeFrameHeader_wireHeader _ hle

end Header

def writeRawFrame (build : Build) (kind : FrameKind) (streamId : UInt32)
    (payload : Bytes) : Io String Unit := do
  let header ← attempt (frameHeader build kind streamId payload.length)
  writeParts header payload

def readFrame (build : Build) : Io String Frame := do
  let header ← readExact headerLen
  let (kind, streamId, payloadLen) ← attempt (decodeFrameHeader build header)
  let payload ← readExact payloadLen
  pure ⟨kind, streamId, payload⟩

section RawFrame

variable {writer reader : Build} {frame : Frame} {header : Bytes}

theorem writes_writeRawFrame
    (h : frameHeader writer frame.kind frame.streamId frame.payload.length = .ok header) :
    Writes (writeRawFrame writer frame.kind frame.streamId frame.payload)
      (header ++ frame.payload) () := by
  rw [← List.nil_append (header ++ frame.payload)]
  exact (writes_attempt h).bind (writes_writeParts header frame.payload)

theorem reads_readFrame (hmajor : writer.protocolMajor = reader.protocolMajor)
    (h : frameHeader writer frame.kind frame.streamId frame.payload.length = .ok header) :
    Reads (readFrame reader) (header ++ frame.payload) frame := by
  have hheader : Reads (readExact header.length : Io String Bytes) header header :=
    reads_readExact header
  rw [length_frameHeader h] at hheader
  have hpayload : Reads (do
      let payload ← readExact frame.payload.length
      pure (⟨frame.kind, frame.streamId, payload⟩ : Frame) : Io String Frame)
      (frame.payload ++ []) frame :=
    (reads_readExact frame.payload).bind (.pure _)
  have hdecoded := reads_attempt (decodeFrameHeader_frameHeader hmajor h)
  rw [List.append_nil] at hpayload
  exact hheader.bind (hdecoded.bind hpayload)

end RawFrame

end SideWire.FrameCodec
