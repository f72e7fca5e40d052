import SideWire.Base.ShortWrites
import SideWire.RecordLayer

/-!
`write_raw_frame` and `write_raw_packet` with every slice and every subtraction of theirs
checked, on a writer that takes any part of what it is offered.
-/

namespace SideWire.PartialWrites

open SideWire.ByteString
open SideWire.ByteLink
open SideWire.FrameCodec
open SideWire.RecordLayer

/-- How a write ends without the writer's doing: with an error of its own, or in a panic. -/
inductive Halt
  | bail (message : String)
  | panic
  deriving DecidableEq

/-- `&bytes[offset..]`. -/
def sliceFrom (bytes : Bytes) (offset : Nat) : Io Halt Bytes :=
  if offset ≤ bytes.length then pure (bytes.drop offset) else fail .panic

def checkedSub (a b : Nat) : Io Halt Nat := if b ≤ a then pure (a - b) else fail .panic

/-- The loop over the header, which returns how much of the payload went with it. -/
def writeHeader (header payload : Bytes) (headerOffset payloadOffset : Nat) : Io Halt Nat :=
  if _hleft : headerOffset < header.length then do
    let headerPart ← sliceFrom header headerOffset
    let payloadPart ← sliceFrom payload payloadOffset
    let written ← writeVectored headerPart payloadPart
    if _hzero : written = 0 then throw (.io .writeZero)
    else do
      let headerLeft ← checkedSub header.length headerOffset
      if written < headerLeft then
        writeHeader header payload (headerOffset + written) payloadOffset
      else do
        let taken ← checkedSub written headerLeft
        writeHeader header payload header.length (payloadOffset + taken)
  else pure payloadOffset
termination_by header.length - headerOffset

def writeParts (header payload : Bytes) : Io Halt Unit := do
  let payloadOffset ← writeHeader header payload 0 0
  if payloadOffset < payload.length then do
    let rest ← sliceFrom payload payloadOffset
    writeAll rest
  else pure ()

def writeRawFrame (build : Build) (kind : FrameKind) (streamId : UInt32) (payload : Bytes) :
    Io Halt Unit := do
  let header ← attempt ((frameHeader build kind streamId payload.length).mapError .bail)
  writeParts header payload

def writeRawPacket (bytes : Bytes) : Io Halt Unit := do
  if maxPacket < bytes.length then
    fail (.bail s!"security packet too large: {bytes.length} bytes")
  else
    let _ ← writeParts (bigEndian 4 bytes.length) bytes
    flush

section Slices

theorem sliceFrom_eq {bytes : Bytes} {offset : Nat} (h : offset ≤ bytes.length) :
    sliceFrom bytes offset = pure (bytes.drop offset) := if_pos h

theorem checkedSub_eq {a b : Nat} (h : b ≤ a) : checkedSub a b = pure (a - b) := if_pos h

/-- All slices and subtractions of the loop are in range. -/
theorem writeHeader_eq (header payload : Bytes) (headerOffset : Nat) :
    writeHeader header payload headerOffset 0 =
      (ByteLink.writeHeader header payload headerOffset 0 : Io Halt Nat) := by
  induction hleft : header.length - headerOffset using Nat.strong_induction_on
    generalizing headerOffset with
  | _ left ih =>
      rw [writeHeader, ByteLink.writeHeader]
      split_ifs with hmore
      · rw [sliceFrom_eq (Nat.le_of_lt hmore), sliceFrom_eq (Nat.zero_le _),
          checkedSub_eq (Nat.le_of_lt hmore)]
        simp only [pure_bind]
        congr 1
        funext written
        split_ifs with hzero hshort
        · rfl
        · exact ih _ (by omega) _ rfl
        · rw [checkedSub_eq (Nat.le_of_not_lt hshort), pure_bind, writeHeader, ByteLink.writeHeader,
            dif_neg (Nat.lt_irrefl _), dif_neg (Nat.lt_irrefl _)]
      · rfl

theorem writeParts_eq (header payload : Bytes) :
    writeParts header payload = (ByteLink.writeParts header payload : Io Halt Unit) := by
  rw [writeParts, ByteLink.writeParts, writeHeader_eq]
  congr 1
  funext payloadOffset
  split_ifs with hmore
  · rw [sliceFrom_eq (Nat.le_of_lt hmore), pure_bind]
  · rfl

end Slices

/-- What flushing the writer makes of a write. -/
inductive Flushed : Except (Failure Halt) Unit × Link → Except (Failure Halt) Unit × Link → Prop
  | notReached {failure : Failure Halt} {link : Link} :
      Flushed (.error failure, link) (.error failure, link)
  | flushed {link : Link} (h : link.answers 0 ≠ none) :
      Flushed (.ok (), link) (.ok (), link.after [] 1)
  | fails {link : Link} (h : link.answers 0 = none) :
      Flushed (.ok (), link) (.error (.io .broken), link.after [] 1)

/-- At every moment a part of `bytes` is on the writer, and it stays there. -/
def Growing (program : Io Halt Unit) (bytes : Bytes) (link : Link) : Prop :=
  ∀ calls, ∃ part, part <+: bytes ∧
    ByteLink.written program link calls = link.outgoing ++ part ∧
    ByteLink.written program link calls <+: (outcome program link).2.outgoing

section Frames

variable {build : Build} {kind : FrameKind} {streamId : UInt32} {payload header : Bytes}

theorem writeRawFrame_eq
    (h : frameHeader build kind streamId payload.length = .ok header) :
    writeRawFrame build kind streamId payload =
      (ByteLink.writeParts header payload : Io Halt Unit) := by
  rw [writeRawFrame, h, ← writeParts_eq]
  rfl

theorem outcome_writeRawFrame_of_large (build : Build) (kind : FrameKind) (streamId : UInt32)
    (h : maxPayload < payload.length) (link : Link) :
    ∃ message, outcome (writeRawFrame build kind streamId payload) link =
      (.error (.raised (.bail message)), link) := by
  rw [writeRawFrame, frameHeader, if_pos h]
  exact ⟨_, rfl⟩

end Frames

section Packets

variable {bytes : Bytes} {result result' : Except (Failure Halt) Unit × Link}

theorem flushed_flush (link : Link) :
    Flushed ((.ok () : Except (Failure Halt) Unit), link)
      (outcome (flush : Io Halt Unit) link) := by
  rw [flush, outcome_bind]
  cases hanswer : link.answers 0 with
  | none =>
      rw [outcome_writeVectored_of_none hanswer]
      have h := Flushed.fails hanswer
      rwa [Link.after, List.append_nil] at h
  | some taken =>
      have hnone : link.answers 0 ≠ none := by
        rw [hanswer]
        exact Option.some_ne_none taken
      have h := Flushed.flushed hnone
      rw [Link.after, List.append_nil] at h
      rw [outcome_writeVectored_of_some hanswer, List.append_nil, List.take_nil, List.append_nil]
      exact h

theorem Flushed.outgoing (h : Flushed result result') :
    result'.2.outgoing = result.2.outgoing := by
  cases h with
  | notReached => rfl
  | flushed | fails => exact List.append_nil _

theorem Flushed.ne_panic (h : Flushed result result')
    (hresult : result.1 ≠ .error (.raised .panic)) : result'.1 ≠ .error (.raised .panic) := by
  cases h with
  | notReached => exact hresult
  | flushed | fails => exact nofun

theorem writeRawPacket_eq (h : bytes.length ≤ maxPacket) :
    writeRawPacket bytes =
      (ByteLink.writeParts (bigEndian 4 bytes.length) bytes : Io Halt Unit) >>= fun _ => flush := by
  rw [writeRawPacket, if_neg (Nat.not_lt.mpr h), writeParts_eq]

theorem flushed_writeRawPacket (h : bytes.length ≤ maxPacket) (link : Link) :
    Flushed (outcome (ByteLink.writeParts (bigEndian 4 bytes.length) bytes : Io Halt Unit) link)
      (outcome (writeRawPacket bytes) link) := by
  rw [writeRawPacket_eq h, outcome_bind]
  rcases outcome (ByteLink.writeParts (bigEndian 4 bytes.length) bytes : Io Halt Unit) link with
    ⟨failure | _, middle⟩
  · exact .notReached
  · exact flushed_flush middle

theorem outcome_writeRawPacket_of_large (h : maxPacket < bytes.length) (link : Link) :
    ∃ message, outcome (writeRawPacket bytes) link = (.error (.raised (.bail message)), link) := by
  rw [writeRawPacket, if_pos h]
  exact ⟨_, rfl⟩

end Packets

section Course

variable {link : Link} {bytes : Bytes} {program : Io Halt Unit}
  {result : Except (Failure Halt) Unit × Link}

theorem ne_panic_of_course (h : Course link bytes () result) :
    result.1 ≠ .error (.raised .panic) := by
  cases h with
  | whole | cut => exact nofun

theorem growing_of_course (hresumes : Resumes program)
    (hcourse : ∀ calls, ∃ result : Except (Failure Halt) Unit × Link,
      Course (link.upTo calls) bytes () result ∧
      (outcome program (link.upTo calls)).2.outgoing = result.2.outgoing) :
    Growing program bytes link := by
  intro calls
  obtain ⟨result, hcourse, heq⟩ := hcourse calls
  obtain ⟨part, hpart, houtgoing⟩ := hcourse.outgoing
  exact ⟨part, hpart, heq.trans houtgoing, hresumes.written_prefix link calls⟩

end Course

/-- A partial write goes on where it stopped: no slice is out of range, what is on the writer is
at every moment a first part of the header and the payload, and all of it when the call
returns; a call of the writer that fails or takes nothing ends it with an error. -/
theorem partialWrites_spec (link : Link) :
    (∀ build kind streamId payload,
      (outcome (writeRawFrame build kind streamId payload) link).1 ≠ .error (.raised .panic) ∧
      ((maxPayload < payload.length ∧ ∃ message,
          outcome (writeRawFrame build kind streamId payload) link =
            (.error (.raised (.bail message)), link)) ∨
        ∃ header, frameHeader build kind streamId payload.length = .ok header ∧
          Course link (header ++ payload) ()
            (outcome (writeRawFrame build kind streamId payload) link) ∧
          Growing (writeRawFrame build kind streamId payload) (header ++ payload) link)) ∧
    ∀ bytes,
      (outcome (writeRawPacket bytes) link).1 ≠ .error (.raised .panic) ∧
      ((maxPacket < bytes.length ∧ ∃ message,
          outcome (writeRawPacket bytes) link = (.error (.raised (.bail message)), link)) ∨
        (∃ result, Course link (bigEndian 4 bytes.length ++ bytes) () result ∧
            Flushed result (outcome (writeRawPacket bytes) link)) ∧
          Growing (writeRawPacket bytes) (bigEndian 4 bytes.length ++ bytes) link) := by
  constructor
  · intro build kind streamId payload
    cases hheader : frameHeader build kind streamId payload.length with
    | error error =>
        have hlarge : maxPayload < payload.length := by
          by_contra hle
          rw [frameHeader, if_neg hle] at hheader
          cases hheader
        obtain ⟨message, houtcome⟩ :=
          outcome_writeRawFrame_of_large build kind streamId hlarge link
        rw [houtcome]
        exact ⟨nofun, .inl ⟨hlarge, message, rfl⟩⟩
    | ok header =>
        rw [writeRawFrame_eq hheader]
        have hcourse := course_writeParts (ε := Halt) header payload
        refine ⟨ne_panic_of_course (hcourse link), .inr ⟨header, rfl, hcourse link, ?_⟩⟩
        exact growing_of_course (resumes_writeParts header payload)
          fun calls => ⟨_, hcourse (link.upTo calls), rfl⟩
  · intro bytes
    by_cases hlarge : maxPacket < bytes.length
    · obtain ⟨message, houtcome⟩ := outcome_writeRawPacket_of_large hlarge link
      rw [houtcome]
      exact ⟨nofun, .inl ⟨hlarge, message, rfl⟩⟩
    · have hle := Nat.le_of_not_lt hlarge
      have hcourse := course_writeParts (ε := Halt) (bigEndian 4 bytes.length) bytes
      have hflushed := flushed_writeRawPacket hle
      refine ⟨(hflushed link).ne_panic (ne_panic_of_course (hcourse link)),
        .inr ⟨⟨_, hcourse link, hflushed link⟩, ?_⟩⟩
      have hresumes : Resumes (writeRawPacket bytes) := by
        rw [writeRawPacket_eq hle]
        exact (resumes_writeParts _ _).bind fun _ => resumes_flush
      exact growing_of_course hresumes
        fun calls => ⟨_, hcourse (link.upTo calls), (hflushed (link.upTo calls)).outgoing⟩

end SideWire.PartialWrites
