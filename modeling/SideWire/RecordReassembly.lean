import SideWire.FrameBytes
import SideWire.FrameTransport

namespace SideWire.RecordReassembly

open SideWire.ByteString
open SideWire.ByteLink
open SideWire.FrameCodec
open SideWire.FrameBytes
open SideWire.RecordLayer
open SideWire.RecordSequences
open SideWire.FrameTransport

/-- An opened record as the reader takes it apart. -/
structure Record where
  finalFlag : UInt8
  body : Bytes
  deriving DecidableEq

def Record.plaintext (record : Record) : Bytes := record.finalFlag :: record.body

def bodies (records : List Record) : Bytes := records.flatMap Record.body

@[simp] theorem bodies_append (front rest : List Record) :
    bodies (front ++ rest) = bodies front ++ bodies rest := List.flatMap_append

@[simp] theorem bodies_cons (record : Record) (records : List Record) :
    bodies (record :: records) = record.body ++ bodies records := List.flatMap_cons

/-- The state of the reassembly, computed from the bytes that have arrived. -/
def assemblyOf (build : Build) (bytes : Bytes) : Except String Assembly :=
  if bytes.length < headerLen then .ok ⟨bytes, none, []⟩
  else
    match decodeFrameHeader build (bytes.take headerLen) with
    | .error error => .error error
    | .ok decoded => .ok ⟨bytes.take headerLen, some decoded, bytes.drop headerLen⟩

/-- What becomes of the state at the end of a record. -/
def settle (finalFlag : UInt8) (assembly : Assembly) : Except String (Assembly ⊕ Frame) :=
  match assembly.metadata with
  | none =>
      if finalFlag = 1 then .error "truncated encrypted SideWire frame header"
      else .ok (.inl assembly)
  | some (kind, streamId, expected) =>
      if expected < assembly.payload.length then
        .error "encrypted SideWire frame exceeded declared payload length"
      else if finalFlag = 0 ∧ assembly.payload.length = expected then
        .error "encrypted SideWire frame missing final record flag"
      else if finalFlag = 1 then
        if assembly.payload.length ≠ expected then .error "invalid SideWire frame length"
        else .ok (.inr ⟨kind, streamId, assembly.payload⟩)
      else .ok (.inl assembly)

/-- The state after `bytes`, with the frame not complete yet. -/
structure Incomplete (build : Build) (bytes : Bytes) (assembly : Assembly) : Prop where
  arrived : assemblyOf build bytes = .ok assembly
  short : ∀ {kind streamId expected}, assembly.metadata = some (kind, streamId, expected) →
    assembly.payload.length < expected

section Steps

variable {build : Build} {bytes body : Bytes} {assembly next : Assembly} {frame : Frame}
  {finalFlag : UInt8}

theorem incomplete_nil : Incomplete build [] .empty where
  arrived := rfl
  short h := by simp [Assembly.empty] at h

theorem assemblyOf_of_short (h : bytes.length < headerLen) :
    assemblyOf build bytes = .ok ⟨bytes, none, []⟩ := if_pos h

theorem assemblyOf_of_long (h : headerLen ≤ bytes.length) :
    assemblyOf build bytes =
      match decodeFrameHeader build (bytes.take headerLen) with
      | .error error => .error error
      | .ok decoded => .ok ⟨bytes.take headerLen, some decoded, bytes.drop headerLen⟩ :=
  if_neg (Nat.not_lt.mpr h)

theorem assemblyOf_append (hlong : headerLen ≤ bytes.length) (rest : Bytes) :
    assemblyOf build (bytes ++ rest) =
      (assemblyOf build bytes).map fun assembly =>
        { assembly with payload := assembly.payload ++ rest } := by
  have htotal : headerLen ≤ (bytes ++ rest).length := by
    rw [List.length_append]
    omega
  rw [assemblyOf_of_long hlong, assemblyOf_of_long htotal, List.take_append_of_le_length hlong,
    List.drop_append_of_le_length hlong]
  cases decodeFrameHeader build (bytes.take headerLen) <;> rfl

theorem length_header_of_long (hlong : headerLen ≤ bytes.length)
    (h : assemblyOf build bytes = .ok assembly) :
    assembly.header.length = headerLen ∧ assembly.metadata ≠ none := by
  rw [assemblyOf_of_long hlong] at h
  split at h
  · cases h
  · obtain rfl := Except.ok.inj h
    exact ⟨by rw [List.length_take]; omega, nofun⟩

theorem fillHeader_assemblyOf (h : assemblyOf build bytes = .ok assembly) (body : Bytes) :
    (∀ error, assemblyOf build (bytes ++ body) = .error error →
      fillHeader build assembly body = .error error) ∧
    ∀ next, assemblyOf build (bytes ++ body) = .ok next →
      ∃ rest, fillHeader build assembly body =
          .ok ({ next with payload := assembly.payload }, rest) ∧
        next.payload = assembly.payload ++ rest ∧ (next.metadata = none → rest = []) := by
  by_cases hshort : bytes.length < headerLen
  · rw [assemblyOf_of_short hshort] at h
    obtain rfl := Except.ok.inj h
    simp only [fillHeader, if_pos hshort]
    by_cases hstill : (bytes ++ body).length < headerLen
    · have htake : min (headerLen - bytes.length) body.length = body.length := by
        rw [List.length_append] at hstill
        omega
      rw [assemblyOf_of_short hstill, htake, List.take_length, List.drop_length,
        if_neg (Nat.ne_of_lt hstill)]
      refine ⟨fun error h => (by cases h), ?_⟩
      rintro next hnext
      obtain rfl := Except.ok.inj hnext
      exact ⟨[], rfl, rfl, fun _ => rfl⟩
    · have htotal : headerLen ≤ (bytes ++ body).length := Nat.le_of_not_lt hstill
      have htake : min (headerLen - bytes.length) body.length = headerLen - bytes.length := by
        rw [List.length_append] at htotal
        omega
      have hheader : bytes ++ body.take (headerLen - bytes.length) =
          (bytes ++ body).take headerLen := by
        rw [List.take_append, List.take_of_length_le (Nat.le_of_lt hshort)]
      have hrest : body.drop (headerLen - bytes.length) = (bytes ++ body).drop headerLen := by
        rw [List.drop_append, List.drop_of_length_le (Nat.le_of_lt hshort), List.nil_append]
      have hlen : ((bytes ++ body).take headerLen).length = headerLen := by
        rw [List.length_take]
        omega
      rw [assemblyOf_of_long htotal, htake, hheader, hrest, if_pos hlen]
      cases decodeFrameHeader build ((bytes ++ body).take headerLen) with
      | error error =>
          exact ⟨fun _ h => congrArg Except.error (Except.error.inj h),
            fun next h => (by cases h)⟩
      | ok decoded =>
          refine ⟨fun error h => (by cases h), ?_⟩
          rintro next hnext
          obtain rfl := Except.ok.inj hnext
          exact ⟨_, rfl, rfl, fun hnone => (by cases hnone)⟩
  · have hlong : headerLen ≤ bytes.length := Nat.le_of_not_lt hshort
    obtain ⟨hlen, hmetadata⟩ := length_header_of_long hlong h
    rw [assemblyOf_append hlong, h]
    refine ⟨fun error h => (by cases h), ?_⟩
    rintro next hnext
    obtain rfl := Except.ok.inj hnext
    refine ⟨body, ?_, rfl, fun hnone => (hmetadata hnone).elim⟩
    rw [fillHeader, if_neg (by omega)]

theorem extendPayload_settle {received : Assembly} {payload rest : Bytes}
    (hpayload : received.payload = payload ++ rest)
    (hrest : received.metadata = none → rest = []) (finalFlag : UInt8) :
    (do
      let assembly ← extendPayload { received with payload := payload } finalFlag rest
      if finalFlag = 1 then
        let frame ← finishFrame assembly
        .ok (.inr frame)
      else .ok (.inl assembly)) = settle finalFlag received := by
  obtain ⟨header, metadata, received⟩ := received
  obtain rfl : received = payload ++ rest := hpayload
  cases metadata with
  | none =>
      obtain rfl := hrest rfl
      simp only [extendPayload, settle, finishFrame, bind, Except.bind, List.append_nil]
  | some decoded =>
      obtain ⟨kind, streamId, expected⟩ := decoded
      simp only [extendPayload, settle, List.length_append]
      split_ifs <;> simp_all [bind, Except.bind, finishFrame]

theorem acceptRecord_assemblyOf (h : assemblyOf build bytes = .ok assembly) (record : Record) :
    acceptRecord build assembly record.plaintext =
      if 1 < record.finalFlag then
        .error s!"invalid encrypted SideWire record flag {record.finalFlag.toNat}"
      else assemblyOf build (bytes ++ record.body) >>= settle record.finalFlag := by
  obtain ⟨hfails, hfills⟩ := fillHeader_assemblyOf h record.body
  simp only [Record.plaintext, acceptRecord]
  by_cases hflag : 1 < record.finalFlag
  · rw [if_pos hflag, if_pos hflag]
  · rw [if_neg hflag, if_neg hflag]
    cases hnext : assemblyOf build (bytes ++ record.body) with
    | error error => rw [hfails error hnext]; rfl
    | ok next =>
        obtain ⟨rest, hfill, hpayload, hrest⟩ := hfills next hnext
        rw [hfill]
        exact extendPayload_settle hpayload hrest record.finalFlag

theorem decodeFrameBytes_eq_ok_iff_assemblyOf :
    decodeFrameBytes build bytes = .ok frame ↔
      ∃ assembly, assemblyOf build bytes = .ok assembly ∧
        assembly.metadata = some (frame.kind, frame.streamId, frame.payload.length) ∧
        assembly.payload = frame.payload := by
  by_cases hshort : bytes.length < headerLen
  · rw [decodeFrameBytes, if_pos hshort, assemblyOf_of_short hshort]
    simp
  · rw [decodeFrameBytes, if_neg hshort, assemblyOf_of_long (Nat.le_of_not_lt hshort)]
    cases decodeFrameHeader build (bytes.take headerLen) with
    | error error => simp
    | ok decoded =>
        obtain ⟨kind, streamId, payloadLen⟩ := decoded
        have hlen : (bytes.drop headerLen).length = bytes.length - headerLen := List.length_drop
        dsimp only
        constructor
        · intro hdecode
          split_ifs at hdecode with hsize
          obtain rfl := Except.ok.inj hdecode
          refine ⟨_, rfl, ?_, rfl⟩
          dsimp only
          rw [hlen]
          congr 3
          omega
        · rintro ⟨assembly, hassembly, hmetadata, hpayload⟩
          obtain rfl := Except.ok.inj hassembly
          dsimp only at hmetadata hpayload
          obtain ⟨rfl, rfl, rfl⟩ := by simpa using hmetadata
          have hsize : (bytes.drop headerLen).length = frame.payload.length := by rw [hpayload]
          rw [if_neg (by omega), hpayload]

theorem settle_eq_frame_iff {finalFlag : UInt8} (hflag : ¬ 1 < finalFlag) :
    settle finalFlag next = .ok (.inr frame) ↔
      finalFlag = 1 ∧
        next.metadata = some (frame.kind, frame.streamId, frame.payload.length) ∧
        next.payload = frame.payload := by
  obtain ⟨header, metadata, payload⟩ := next
  cases metadata with
  | none =>
      simp only [settle]
      split_ifs <;> simp
  | some decoded =>
      obtain ⟨kind, streamId, expected⟩ := decoded
      obtain ⟨kind', streamId', payload'⟩ := frame
      simp only [settle]
      constructor
      · intro h
        split_ifs at h with hlarge hmissing hlast hsize
        · obtain ⟨rfl, rfl, rfl⟩ := by simpa using h
          exact ⟨hlast, by rw [not_not.mp hsize], rfl⟩
        · simp at h
      · rintro ⟨rfl, hmetadata, rfl⟩
        obtain ⟨rfl, rfl, rfl⟩ := by simpa using hmetadata
        simp

theorem settle_eq_assembly_iff {finalFlag : UInt8} (hflag : ¬ 1 < finalFlag)
    {settled : Assembly} :
    settle finalFlag next = .ok (.inl settled) ↔
      finalFlag = 0 ∧ settled = next ∧
        ∀ {kind streamId expected}, next.metadata = some (kind, streamId, expected) →
          next.payload.length < expected := by
  have hzero : finalFlag = 0 ↔ finalFlag ≠ 1 := by
    rw [UInt8.lt_iff_toNat_lt] at hflag
    rw [← UInt8.toNat_inj, ne_eq, ← UInt8.toNat_inj]
    simp only [UInt8.toNat_zero, UInt8.toNat_one] at *
    omega
  obtain ⟨header, metadata, payload⟩ := next
  cases metadata with
  | none =>
      simp only [settle]
      split_ifs with hlast <;> simp [hzero, hlast, eq_comm]
  | some decoded =>
      obtain ⟨kind, streamId, expected⟩ := decoded
      simp only [settle]
      constructor
      · intro h
        split_ifs at h with hlarge hmissing hlast hsize
        · simp at h
        · obtain rfl :
              (⟨header, some (kind, streamId, expected), payload⟩ : Assembly) = settled := by
            simpa using h
          refine ⟨hzero.mpr hlast, rfl, ?_⟩
          rintro _ _ _ hmetadata
          obtain ⟨rfl, rfl, rfl⟩ := by simpa using hmetadata
          have hne := not_and.mp hmissing (hzero.mpr hlast)
          omega
      · rintro ⟨rfl, rfl, hshort⟩
        have hlt : payload.length < expected := hshort rfl
        rw [if_neg (by omega), if_neg (by omega), if_neg (by decide)]

theorem Incomplete.accept_eq_frame_iff (h : Incomplete build bytes assembly)
    {record : Record} :
    acceptRecord build assembly record.plaintext = .ok (.inr frame) ↔
      record.finalFlag = 1 ∧ decodeFrameBytes build (bytes ++ record.body) = .ok frame := by
  rw [acceptRecord_assemblyOf h.arrived, decodeFrameBytes_eq_ok_iff_assemblyOf]
  split_ifs with hflag
  · have hone : record.finalFlag ≠ 1 := by
      rintro heq
      rw [heq] at hflag
      exact absurd hflag (by decide)
    simp [hone]
  · cases assemblyOf build (bytes ++ record.body) with
    | error error => simp [bind, Except.bind]
    | ok next => simp [bind, Except.bind, settle_eq_frame_iff hflag]

theorem Incomplete.accept_eq_assembly_iff (h : Incomplete build bytes assembly)
    {record : Record} :
    acceptRecord build assembly record.plaintext = .ok (.inl next) ↔
      record.finalFlag = 0 ∧ Incomplete build (bytes ++ record.body) next := by
  rw [acceptRecord_assemblyOf h.arrived]
  split_ifs with hflag
  · have hzero : record.finalFlag ≠ 0 := by
      rintro heq
      rw [heq] at hflag
      exact absurd hflag (by decide)
    simp [hzero]
  · cases harrived : assemblyOf build (bytes ++ record.body) with
    | error error =>
        constructor
        · intro heq
          cases heq
        · rintro ⟨-, hnext⟩
          rw [hnext.arrived] at harrived
          cases harrived
    | ok settled =>
        simp only [bind, Except.bind, settle_eq_assembly_iff hflag]
        constructor
        · rintro ⟨hzero, rfl, hshort⟩
          exact ⟨hzero, harrived, hshort⟩
        · rintro ⟨hzero, hnext⟩
          rw [hnext.arrived] at harrived
          obtain rfl := Except.ok.inj harrived
          exact ⟨hzero, rfl, hnext.short⟩

theorem Incomplete.not_decode (h : Incomplete build bytes assembly) {part : Bytes}
    (hpart : part <+: bytes) : decodeFrameBytes build part ≠ .ok frame := by
  intro hdecode
  obtain ⟨rest, rfl⟩ := hpart
  obtain ⟨complete, harrived, hmetadata, hpayload⟩ :=
    decodeFrameBytes_eq_ok_iff_assemblyOf.mp hdecode
  have hlong : headerLen ≤ part.length := by
    by_contra hshort
    rw [assemblyOf_of_short (Nat.lt_of_not_le hshort)] at harrived
    obtain rfl := Except.ok.inj harrived
    cases hmetadata
  have hall := h.arrived
  rw [assemblyOf_append hlong, harrived] at hall
  obtain rfl := Except.ok.inj hall
  have hlt : (complete.payload ++ rest).length < frame.payload.length := h.short hmetadata
  rw [hpayload, List.length_append] at hlt
  omega

/-- What is short of a frame that arrives later is incomplete. -/
theorem incomplete_of_decode {rest : Bytes}
    (h : decodeFrameBytes build (bytes ++ rest) = .ok frame)
    (hnot : ∀ frame', decodeFrameBytes build bytes ≠ .ok frame') :
    ∃ assembly, Incomplete build bytes assembly := by
  by_cases hshort : bytes.length < headerLen
  · exact ⟨_, assemblyOf_of_short hshort, fun hnone => by cases hnone⟩
  · have hlong : headerLen ≤ bytes.length := Nat.le_of_not_lt hshort
    obtain ⟨complete, harrived, hmetadata, hpayload⟩ :=
      decodeFrameBytes_eq_ok_iff_assemblyOf.mp h
    rw [assemblyOf_append hlong] at harrived
    cases hassembly : assemblyOf build bytes with
    | error error => simp [hassembly, Except.map] at harrived
    | ok assembly =>
        rw [hassembly] at harrived
        obtain rfl := Except.ok.inj harrived
        refine ⟨assembly, hassembly, ?_⟩
        intro kind streamId expected hmetadata'
        obtain ⟨rfl, rfl, rfl⟩ := by simpa using hmetadata'.symm.trans hmetadata
        have hrest : rest ≠ [] := by
          rintro rfl
          rw [List.append_nil] at h
          exact hnot frame h
        have hpos := List.length_pos_iff.mpr hrest
        rw [← hpayload, List.length_append]
        omega

theorem Incomplete.of_append {rest : Bytes} (h : Incomplete build (bytes ++ rest) next) :
    ∃ assembly, Incomplete build bytes assembly := by
  by_cases hshort : bytes.length < headerLen
  · exact ⟨_, assemblyOf_of_short hshort, fun hnone => by cases hnone⟩
  · have harrived := h.arrived
    rw [assemblyOf_append (Nat.le_of_not_lt hshort)] at harrived
    cases hassembly : assemblyOf build bytes with
    | error error => simp [hassembly, Except.map] at harrived
    | ok assembly =>
        rw [hassembly] at harrived
        obtain rfl := Except.ok.inj harrived
        refine ⟨assembly, hassembly, ?_⟩
        intro kind streamId expected hmetadata
        have hlt : (assembly.payload ++ rest).length < expected := h.short hmetadata
        rw [List.length_append] at hlt
        omega

end Steps

/-- What a call of the reader has come to after some records. -/
inductive Progress
  | waiting (assembly : Assembly)
  | returned (frame : Frame) (unread : List Record)
  | failed (error : String)
  deriving DecidableEq

/-- The loop of `read_frame` over opened records. -/
def consume (build : Build) : Assembly → List Record → Progress
  | assembly, [] => .waiting assembly
  | assembly, record :: records =>
      match acceptRecord build assembly record.plaintext with
      | .error error => .failed error
      | .ok (.inr frame) => .returned frame records
      | .ok (.inl next) => consume build next records

/-- The sequences of records that make up `frame`: the final flag is on the last record
alone, the bodies together are the frame, and it is not there before the last record. -/
structure WellFormed (build : Build) (records : List Record) (frame : Frame) : Prop where
  flags : ∃ front body, records = front ++ [⟨1, body⟩] ∧
    ∀ record ∈ front, record.finalFlag = 0
  decodes : decodeFrameBytes build (bodies records) = .ok frame
  minimal : ∀ front, front <+: records → front ≠ records →
    ∀ part, part <+: bodies front → ∀ other, decodeFrameBytes build part ≠ .ok other

section Runs

variable {build : Build} {assembly next : Assembly} {records front : List Record}
  {frame : Frame}

theorem consume_append (h : consume build assembly front = .waiting next)
    (rest : List Record) :
    consume build assembly (front ++ rest) = consume build next rest := by
  induction front generalizing assembly with
  | nil =>
      obtain rfl : assembly = next := by simpa [consume] using h
      rfl
  | cons record front ih =>
      rw [List.cons_append, consume]
      rw [consume] at h
      split at h
      · cases h
      · cases h
      · exact ih h

theorem consume_waiting_of_append {rest : List Record}
    (h : consume build assembly (front ++ rest) = .waiting next) :
    ∃ middle, consume build assembly front = .waiting middle := by
  induction front generalizing assembly with
  | nil => exact ⟨assembly, rfl⟩
  | cons record front ih =>
      rw [List.cons_append, consume] at h
      rw [consume]
      split at h
      · cases h
      · cases h
      · exact ih h

theorem consume_eq_returned {unread : List Record}
    (h : consume build assembly records = .returned frame unread) :
    ∃ front record middle, records = front ++ record :: unread ∧
      consume build assembly front = .waiting middle ∧
      acceptRecord build middle record.plaintext = .ok (.inr frame) := by
  induction records generalizing assembly with
  | nil => cases h
  | cons record records ih =>
      rw [consume] at h
      split at h
      · cases h
      · rename_i haccept
        obtain ⟨rfl, rfl⟩ := by simpa using h
        exact ⟨[], record, assembly, rfl, rfl, haccept⟩
      · rename_i middle haccept
        obtain ⟨front, last, after, rfl, hfront, hlast⟩ := ih h
        refine ⟨record :: front, last, after, rfl, ?_, hlast⟩
        rw [consume, haccept]
        exact hfront

theorem consume_of_accept (hfront : consume build assembly front = .waiting next)
    {record : Record} (haccept : acceptRecord build next record.plaintext = .ok (.inr frame))
    (unread : List Record) :
    consume build assembly (front ++ record :: unread) = .returned frame unread := by
  rw [consume_append hfront, consume, haccept]

/-- The call waits for more as long as no record ends the frame and the bytes are short
of it. -/
theorem consume_eq_waiting_iff :
    consume build .empty records = .waiting next ↔
      (∀ record ∈ records, record.finalFlag = 0) ∧ Incomplete build (bodies records) next := by
  induction records using List.reverseRecOn generalizing next with
  | nil =>
      constructor
      · intro h
        obtain rfl : Assembly.empty = next := by simpa [consume] using h
        exact ⟨by simp, incomplete_nil⟩
      · rintro ⟨-, h⟩
        obtain rfl : Assembly.empty = next :=
          Except.ok.inj (incomplete_nil.arrived.symm.trans h.arrived)
        rfl
  | append_singleton front record ih =>
      have hlast : ∀ {middle}, consume build .empty front = .waiting middle →
          (consume build .empty (front ++ [record]) = .waiting next ↔
            record.finalFlag = 0 ∧ Incomplete build (bodies front ++ record.body) next) := by
        intro middle hmiddle
        rw [consume_append hmiddle, ← (ih.mp hmiddle).2.accept_eq_assembly_iff, consume]
        split <;> rename_i haccept <;> simp [haccept, consume]
      simp only [List.forall_mem_append, List.forall_mem_singleton, bodies_append]
      constructor
      · intro h
        obtain ⟨middle, hmiddle⟩ := consume_waiting_of_append h
        obtain ⟨hzero, hnext⟩ := (hlast hmiddle).mp h
        exact ⟨⟨(ih.mp hmiddle).1, hzero⟩, by simpa [bodies] using hnext⟩
      · rintro ⟨⟨hfront, hzero⟩, hnext⟩
        obtain ⟨middle, hincomplete⟩ := hnext.of_append
        have hmiddle := ih.mpr ⟨hfront, hincomplete⟩
        exact (hlast hmiddle).mpr ⟨hzero, by simpa [bodies] using hnext⟩

/-- A call returns at the last of some records exactly when they are well formed. -/
theorem consume_eq_returned_iff :
    consume build .empty records = .returned frame [] ↔ WellFormed build records frame := by
  constructor
  · intro h
    obtain ⟨front, ⟨flag, body⟩, middle, rfl, hfront, haccept⟩ := consume_eq_returned h
    obtain ⟨hzero, hincomplete⟩ := consume_eq_waiting_iff.mp hfront
    obtain ⟨hone, hdecode⟩ := hincomplete.accept_eq_frame_iff.mp haccept
    obtain rfl : flag = 1 := hone
    refine ⟨⟨front, body, rfl, hzero⟩, by simpa [bodies] using hdecode, ?_⟩
    intro before hbefore hne part hpart other
    obtain ⟨rest, rfl⟩ := (List.prefix_concat_iff.mp hbefore).resolve_left hne
    rw [bodies_append] at hincomplete
    exact hincomplete.not_decode (hpart.trans (List.prefix_append _ _))
  · rintro ⟨⟨front, body, rfl, hzero⟩, hdecode, hminimal⟩
    rw [bodies_append] at hdecode
    have hnot : ∀ other, decodeFrameBytes build (bodies front) ≠ .ok other :=
      hminimal front (List.prefix_append _ _) (by simp) _ List.prefix_rfl
    obtain ⟨middle, hincomplete⟩ := incomplete_of_decode hdecode hnot
    have hfront := consume_eq_waiting_iff.mpr ⟨hzero, hincomplete⟩
    exact consume_of_accept hfront
      (hincomplete.accept_eq_frame_iff.mpr ⟨rfl, by simpa [bodies] using hdecode⟩) []

/-- While the call waits, the payload is short of the declared length. -/
theorem payload_le_of_waiting (h : consume build .empty records = .waiting assembly) :
    (assembly.metadata = none → assembly.payload = [] ∧ assembly.header.length < headerLen) ∧
      ∀ {kind streamId expected}, assembly.metadata = some (kind, streamId, expected) →
        assembly.payload.length < expected := by
  obtain ⟨harrived, hshort⟩ := (consume_eq_waiting_iff.mp h).2
  refine ⟨?_, hshort⟩
  intro hmetadata
  by_cases hlong : headerLen ≤ (bodies records).length
  · exact ((length_header_of_long hlong harrived).2 hmetadata).elim
  · rw [assemblyOf_of_short (Nat.lt_of_not_le hlong)] at harrived
    obtain rfl := Except.ok.inj harrived
    exact ⟨rfl, Nat.lt_of_not_le hlong⟩

end Runs

section Connection

variable {Handshake Cipher : Type} {snow : Snow Handshake Cipher} {build : Build}
  {assembly : Assembly} {records : List Record} {frame : Frame}
  {noise last : TransportState Cipher} {messages : List Bytes}
  {encrypted plaintext : Bytes} {link link' : Link}

theorem Opened.length_eq {records : List Bytes}
    (h : Opened snow noise records messages last) : messages.length = records.length := by
  induction h with
  | nil noise => rfl
  | cons _ _ _ ih => rw [List.length_cons, List.length_cons, ih]

/-- Where the loop of `read_frame` stands on the connection after some records. -/
def Stands (snow : Snow Handshake Cipher) (build : Build) (last : TransportState Cipher)
    (rest : Bytes) (link : Link) :
    Progress → Except (Failure String) (Frame × SecureFrameReader Cipher) × Link → Prop
  | .waiting assembly, result => ∃ encrypted plaintext,
      result = readRecords snow build assembly last encrypted plaintext
        { link with incoming := rest }
  | .returned frame unread, result => ∃ reader, ∃ messages : List Bytes,
      messages.length = unread.length ∧
      result = (.ok (frame, reader), { link with incoming := messages.flatMap packet ++ rest })
  | .failed error, result => ∃ link', result = (.error (.raised error), link')

theorem stands_readRecords (hopened : Opened snow noise (records.map Record.plaintext)
      messages last) {rest : Bytes} (hincoming : link.incoming = messages.flatMap packet ++ rest)
    (build : Build) (assembly : Assembly) (encrypted plaintext : Bytes) :
    Stands snow build last rest link (consume build assembly records)
      (readRecords snow build assembly noise encrypted plaintext link) := by
  induction records generalizing noise messages assembly encrypted plaintext link with
  | nil =>
      cases hopened
      obtain rfl : link.incoming = rest := hincoming
      exact ⟨encrypted, plaintext, rfl⟩
  | cons record records ih =>
      cases hopened with
      | @cons _ middle _ _ message _ messages hmessage hle hrest =>
          rw [List.flatMap_cons, List.append_assoc] at hincoming
          rw [readRecords_eq (reads_readNoiseRecordInto hle hmessage _ _ link _ hincoming),
            consume]
          cases acceptRecord build assembly record.plaintext with
          | error error => exact ⟨_, rfl⟩
          | ok accepted =>
              cases accepted with
              | inl next =>
                  have hnext : ({ link with incoming := messages.flatMap packet ++ rest } :
                      Link).incoming = messages.flatMap packet ++ rest := rfl
                  exact ih hrest hnext next message record.plaintext
              | inr frame =>
                  have hcount := Opened.length_eq hrest
                  rw [List.length_map] at hcount
                  exact ⟨_, messages, hcount, rfl⟩

theorem incoming_lt_of_readRecords {reader : SecureFrameReader Cipher}
    (h : readRecords snow build assembly noise encrypted plaintext link =
      (.ok (frame, reader), link')) :
    link'.incoming.length < link.incoming.length := by
  induction hsize : link.incoming.length using Nat.strong_induction_on
    generalizing assembly noise encrypted plaintext link with
  | _ size ih =>
      rw [readRecords] at h
      split at h
      · cases h
      · rename_i middle hread
        have hlt := incoming_lt_of_readNoiseRecordInto snow hread
        split at h
        · cases h
        · obtain ⟨-, rfl⟩ := Prod.mk.inj h
          omega
        · have hmore := ih _ (by omega) h rfl
          omega

theorem eq_nil_of_packets {rest : Bytes} (h : messages.flatMap packet ++ rest = rest) :
    messages = [] := by
  cases messages with
  | nil => rfl
  | cons message messages =>
      have hlen := congrArg List.length h
      simp only [List.flatMap_cons, packet, List.length_append, length_bigEndian] at hlen
      omega

theorem Stands.returns_iff {rest : Bytes} {progress : Progress}
    {result : Except (Failure String) (Frame × SecureFrameReader Cipher) × Link}
    (h : Stands snow build last rest link progress result) :
    (∃ reader link', link'.incoming = rest ∧ result = (.ok (frame, reader), link')) ↔
      progress = .returned frame [] := by
  constructor
  · rintro ⟨reader, link', hend, hreturns⟩
    cases progress with
    | waiting assembly =>
        obtain ⟨_, _, hresult⟩ := h
        have hlt := incoming_lt_of_readRecords (hresult.symm.trans hreturns)
        rw [hend] at hlt
        exact absurd hlt (Nat.lt_irrefl _)
    | returned other unread =>
        obtain ⟨_, unreadMessages, hcount, hresult⟩ := h
        obtain ⟨⟨rfl, -⟩, rfl⟩ := by simpa using hresult.symm.trans hreturns
        obtain rfl := eq_nil_of_packets hend
        rw [List.length_eq_zero_iff.mp hcount.symm]
    | failed error =>
        obtain ⟨_, hresult⟩ := h
        cases hresult.symm.trans hreturns
  · rintro rfl
    obtain ⟨reader, unreadMessages, hcount, hresult⟩ := h
    obtain rfl := List.length_eq_zero_iff.mp hcount
    exact ⟨reader, _, rfl, hresult⟩

/-- Where the call stands if the records are not those of a frame. -/
theorem Stands.of_not_wellFormed {rest : Bytes}
    {result : Except (Failure String) (Frame × SecureFrameReader Cipher) × Link}
    (h : Stands snow build last rest link (consume build .empty records) result)
    (hnone : ∀ frame, ¬ WellFormed build records frame) :
    (∃ error link', result = (.error (.raised error), link')) ∨
      (∃ assembly encrypted plaintext, result =
        readRecords snow build assembly last encrypted plaintext
          { link with incoming := rest }) ∨
      ∃ frame front unread reader, ∃ unreadMessages : List Bytes,
        records = front ++ unread ∧ unread ≠ [] ∧ WellFormed build front frame ∧
        unreadMessages.length = unread.length ∧
        result = (.ok (frame, reader),
          { link with incoming := unreadMessages.flatMap packet ++ rest }) := by
  cases hprogress : consume build .empty records with
  | waiting assembly =>
      rw [hprogress] at h
      obtain ⟨encrypted', plaintext', hresult⟩ := h
      exact .inr (.inl ⟨assembly, encrypted', plaintext', hresult⟩)
  | returned frame unread =>
      rw [hprogress] at h
      obtain ⟨reader, unreadMessages, hcount, hresult⟩ := h
      obtain ⟨front, record, middle, hrecords, hfront, haccept⟩ := consume_eq_returned hprogress
      have hwell := consume_eq_returned_iff.mp (consume_of_accept hfront haccept [])
      have hunread : unread ≠ [] := by
        rintro rfl
        exact hnone frame (hrecords ▸ hwell)
      exact .inr (.inr ⟨frame, front ++ [record], unread, reader, unreadMessages,
        by simpa using hrecords, hunread, hwell, hcount, hresult⟩)
  | failed error =>
      rw [hprogress] at h
      obtain ⟨link', hresult⟩ := h
      exact .inl ⟨error, link', hresult⟩

/-- The encrypted reader returns at the end of some records exactly when they are well
formed, and then it returns the frame of their bodies. Else it has failed, waits for more
records or has returned at an earlier one, and it never buffers more than was declared. -/
theorem readFrame_iff_wellFormed (snow : Snow Handshake Cipher) (build : Build)
    (hopened : Opened snow noise (records.map Record.plaintext) messages last) (rest : Bytes)
    (hincoming : link.incoming = messages.flatMap packet ++ rest)
    (encrypted plaintext : Bytes) :
    (∀ frame, (∃ reader link', link'.incoming = rest ∧
        Returns (SecureFrameReader.readFrame snow build ⟨some noise, encrypted, plaintext⟩) link
          (frame, reader) link') ↔ WellFormed build records frame) ∧
    ((∀ frame, ¬ WellFormed build records frame) →
      (∃ error link',
        Fails (SecureFrameReader.readFrame snow build ⟨some noise, encrypted, plaintext⟩) link
          (.raised error) link') ∨
      (∃ assembly encrypted' plaintext',
        outcome (SecureFrameReader.readFrame snow build ⟨some noise, encrypted, plaintext⟩) link =
          readRecords snow build assembly last encrypted' plaintext'
            { link with incoming := rest }) ∨
      ∃ frame front unread reader, ∃ unreadMessages : List Bytes,
        records = front ++ unread ∧ unread ≠ [] ∧ WellFormed build front frame ∧
        unreadMessages.length = unread.length ∧
        Returns (SecureFrameReader.readFrame snow build ⟨some noise, encrypted, plaintext⟩) link
          (frame, reader)
          { link with incoming := unreadMessages.flatMap packet ++ rest }) ∧
    ∀ front, front <+: records → ∀ assembly, consume build .empty front = .waiting assembly →
      (assembly.metadata = none → assembly.payload = [] ∧ assembly.header.length < headerLen) ∧
        ∀ {kind streamId expected}, assembly.metadata = some (kind, streamId, expected) →
          assembly.payload.length < expected := by
  have houtcome : outcome (SecureFrameReader.readFrame snow build
      ⟨some noise, encrypted, plaintext⟩) link =
        readRecords snow build .empty noise encrypted plaintext link := rfl
  have hstands := stands_readRecords hopened hincoming build .empty encrypted plaintext
  simp only [Returns, Fails, houtcome]
  refine ⟨fun frame => ?_, hstands.of_not_wellFormed, ?_⟩
  · rw [← consume_eq_returned_iff]
    exact hstands.returns_iff
  · intro front _ assembly hwaiting
    exact payload_le_of_waiting hwaiting

end Connection

/-- A frame of three records; the first two share its header, the last two its payload. -/
def inputRecords : List Record :=
  let header := wireHeader 1 2 .ptyInput 42 3
  [⟨0, header.take 5⟩, ⟨0, header.drop 5 ++ [97]⟩, ⟨1, [98, 99]⟩]

/-- The records as a Noise library that encrypts nothing sends them. -/
def inputMessages : List Bytes :=
  inputRecords.map fun record => record.plaintext ++ List.replicate noiseTag 0

theorem readFrame_iff_wellFormed_inputRecords :
    ∃ reader link', link'.incoming = [] ∧
      Returns (SecureFrameReader.readFrame clearSnow currentBuild
          ⟨some ⟨⟨.responder, Vector.replicate 32 7, []⟩, [], [], ()⟩, [], []⟩)
        ⟨inputMessages.flatMap packet, [], fun _ => some 1⟩
        (⟨.ptyInput, 42, [97, 98, 99]⟩, reader) link' := by
  have hwell : WellFormed currentBuild inputRecords ⟨.ptyInput, 42, [97, 98, 99]⟩ :=
    consume_eq_returned_iff.mp (by decide)
  have hopened : Opened clearSnow ⟨⟨.responder, Vector.replicate 32 7, []⟩, [], [], ()⟩
      (inputRecords.map Record.plaintext) inputMessages
      ⟨⟨.responder, Vector.replicate 32 7, []⟩, [], inputRecords.map Record.plaintext, ()⟩ :=
    .cons rfl (by decide) (.cons rfl (by decide) (.cons rfl (by decide) (.nil _)))
  have hincoming : inputMessages.flatMap packet = inputMessages.flatMap packet ++ [] :=
    (List.append_nil _).symm
  exact ((readFrame_iff_wellFormed clearSnow currentBuild hopened [] hincoming [] []).1
    ⟨.ptyInput, 42, [97, 98, 99]⟩).mpr hwell

end SideWire.RecordReassembly
