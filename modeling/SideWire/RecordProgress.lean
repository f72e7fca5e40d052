import SideWire.RecordReassembly

namespace SideWire.RecordProgress

open SideWire.ByteString
open SideWire.ByteLink
open SideWire.FrameCodec
open SideWire.RecordLayer
open SideWire.RecordSequences
open SideWire.FrameTransport
open SideWire.RecordReassembly

/-- How many records a frame may take if each brings at least one byte of it. -/
def recordLimit : Nat := headerLen + maxPayload + 1

/-- How many bytes of the header and of the payload may still be missing. -/
def missing (assembly : Assembly) : Nat :=
  match assembly.metadata with
  | none => headerLen - assembly.header.length + maxPayload
  | some (_, _, expected) => expected - assembly.payload.length

/-- A record that announces more and brings nothing. -/
def idle : Record := ⟨0, []⟩

/-- The bytes are short of a frame: of its header, or of the payload that the header declares. -/
def Short (build : Build) (bytes : Bytes) : Prop :=
  bytes.length < headerLen ∨
    ∃ kind streamId expected,
      decodeFrameHeader build (bytes.take headerLen) = .ok (kind, streamId, expected) ∧
      bytes.length < headerLen + expected

/-- No idle record comes while the frame is unfinished. -/
def NoIdle (build : Build) (records : List Record) : Prop :=
  ∀ front rest, records = front ++ idle :: rest → (∀ record ∈ front, record.finalFlag = 0) →
    ¬ Short build (bodies front)

section Measure

variable {build : Build} {bytes body : Bytes} {assembly next : Assembly}
  {records front : List Record}

/-- What is missing of an unfinished frame, by the bytes that have arrived. -/
theorem missing_cases (h : Incomplete build bytes assembly) :
    (bytes.length < headerLen ∧ missing assembly = headerLen - bytes.length + maxPayload) ∨
      ∃ kind streamId expected, headerLen ≤ bytes.length ∧
        decodeFrameHeader build (bytes.take headerLen) = .ok (kind, streamId, expected) ∧
        bytes.length < headerLen + expected ∧
        missing assembly = headerLen + expected - bytes.length := by
  obtain ⟨harrived, hleft⟩ := h
  by_cases hshort : bytes.length < headerLen
  · rw [assemblyOf_of_short hshort] at harrived
    obtain rfl := Except.ok.inj harrived
    exact .inl ⟨hshort, rfl⟩
  · have hlong := Nat.le_of_not_lt hshort
    rw [assemblyOf_of_long hlong] at harrived
    split at harrived
    · cases harrived
    · rename_i decoded hdecoded
      obtain ⟨kind, streamId, expected⟩ := decoded
      obtain rfl := Except.ok.inj harrived
      have hlt : (bytes.drop headerLen).length < expected := hleft rfl
      have hmissing : missing ⟨bytes.take headerLen, some (kind, streamId, expected),
          bytes.drop headerLen⟩ = expected - (bytes.drop headerLen).length := rfl
      rw [List.length_drop] at hlt hmissing
      exact .inr ⟨kind, streamId, expected, hlong, hdecoded, by omega, by omega⟩

theorem incomplete_iff_short :
    (∃ assembly, Incomplete build bytes assembly) ↔ Short build bytes := by
  constructor
  · rintro ⟨assembly, h⟩
    rcases missing_cases h with ⟨hshort, -⟩ | ⟨kind, streamId, expected, -, hdecoded, hlt, -⟩
    · exact .inl hshort
    · exact .inr ⟨kind, streamId, expected, hdecoded, hlt⟩
  · by_cases hshort : bytes.length < headerLen
    · exact fun _ => ⟨_, assemblyOf_of_short hshort, fun hnone => by cases hnone⟩
    · rintro (h | ⟨kind, streamId, expected, hdecoded, hlt⟩)
      · exact (hshort h).elim
      · refine ⟨⟨bytes.take headerLen, some (kind, streamId, expected), bytes.drop headerLen⟩,
          ?_, ?_⟩
        · rw [assemblyOf_of_long (Nat.le_of_not_lt hshort), hdecoded]
        · intro kind' streamId' expected' hmetadata
          obtain ⟨rfl, rfl, rfl⟩ := by simpa using hmetadata
          rw [List.length_drop]
          omega

theorem waiting_iff :
    (∃ assembly, consume build .empty records = .waiting assembly) ↔
      (∀ record ∈ records, record.finalFlag = 0) ∧ Short build (bodies records) := by
  rw [← incomplete_iff_short]
  simp only [consume_eq_waiting_iff, exists_and_left]

theorem missing_lt_of_append (h : Incomplete build bytes assembly)
    (hnext : Incomplete build (bytes ++ body) next) (hbody : body ≠ []) :
    missing next < missing assembly := by
  have hpos := List.length_pos_iff.mpr hbody
  rcases missing_cases hnext with ⟨hshort', hmissing'⟩ |
    ⟨kind', streamId', expected', hlong', hdecoded', hlt', hmissing'⟩
  · rw [List.length_append] at hshort' hmissing'
    rcases missing_cases h with ⟨hshort, hmissing⟩ | ⟨_, _, _, hlong, -, -, -⟩
    · omega
    · omega
  · have hle := le_maxPayload_of_decodeFrameHeader hdecoded'
    rw [List.length_append] at hlong' hlt' hmissing'
    rcases missing_cases h with ⟨hshort, hmissing⟩ |
      ⟨kind, streamId, expected, hlong, hdecoded, hlt, hmissing⟩
    · omega
    · rw [List.take_append_of_le_length hlong, hdecoded] at hdecoded'
      obtain ⟨-, -, rfl⟩ := by simpa using hdecoded'
      omega

theorem length_add_missing_le (hbodies : ∀ record ∈ records, record.body ≠ [])
    (h : consume build .empty records = .waiting assembly) :
    records.length + missing assembly ≤ headerLen + maxPayload := by
  induction records using List.reverseRecOn generalizing assembly with
  | nil =>
      obtain rfl : Assembly.empty = assembly := by simpa [consume] using h
      exact Nat.le_of_eq (Nat.zero_add _)
  | append_singleton front record ih =>
      obtain ⟨before, hbefore⟩ := consume_waiting_of_append h
      have hfront := ih (fun other hother => hbodies other (List.mem_append_left _ hother)) hbefore
      have hincomplete := (consume_eq_waiting_iff.mp h).2
      rw [bodies_append, bodies_cons] at hincomplete
      have hlt := missing_lt_of_append (consume_eq_waiting_iff.mp hbefore).2 hincomplete
        (List.append_ne_nil_of_left_ne_nil (hbodies record (by simp)) _)
      rw [List.length_append, List.length_singleton]
      omega

end Measure

section Progress

variable {build : Build} {records : List Record}

/-- The call ends within the limit, and each record that it takes as a continuation brings the
frame closer. -/
structure Progresses (build : Build) (records : List Record) : Prop where
  inTime : ∀ front, front <+: records → recordLimit ≤ front.length →
    ∀ assembly, consume build .empty front ≠ .waiting assembly
  closer : ∀ front record rest, records = front ++ record :: rest →
    ∀ assembly next, consume build .empty front = .waiting assembly →
      acceptRecord build assembly record.plaintext = .ok (.inl next) →
      missing next < missing assembly

theorem Progresses.noIdle (h : Progresses build records) : NoIdle build records := by
  rintro front rest rfl hzero hshort
  obtain ⟨assembly, hwaiting⟩ := waiting_iff.mpr ⟨hzero, hshort⟩
  have hincomplete := (consume_eq_waiting_iff.mp hwaiting).2
  have haccept : acceptRecord build assembly idle.plaintext = .ok (.inl assembly) := by
    rw [hincomplete.accept_eq_assembly_iff]
    refine ⟨rfl, ?_⟩
    rwa [idle, List.append_nil]
  exact Nat.lt_irrefl _ (h.closer front idle rest rfl assembly assembly hwaiting haccept)

/-- While the call waits, a record that brings nothing is an idle one. -/
theorem NoIdle.body_ne_nil (h : NoIdle build records) {front rest : List Record}
    {record : Record} (hrecords : records = front ++ record :: rest) {assembly : Assembly}
    (hwaiting : consume build .empty front = .waiting assembly) (hflag : record.finalFlag = 0) :
    record.body ≠ [] := by
  intro hbody
  obtain rfl : record = idle := by
    obtain ⟨flag, body⟩ := record
    obtain rfl : flag = 0 := hflag
    obtain rfl : body = [] := hbody
    rfl
  obtain ⟨hzero, hshort⟩ := waiting_iff.mp ⟨assembly, hwaiting⟩
  exact h front rest hrecords hzero hshort

theorem NoIdle.progresses (h : NoIdle build records) : Progresses build records where
  inTime := by
    rintro front ⟨after, rfl⟩ hlimit assembly hwaiting
    have hbodies : ∀ record ∈ front, record.body ≠ [] := by
      intro record hmem
      obtain ⟨before, between, rfl⟩ := List.append_of_mem hmem
      obtain ⟨middle, hmiddle⟩ := consume_waiting_of_append hwaiting
      have hflag := (consume_eq_waiting_iff.mp hwaiting).1 record hmem
      exact h.body_ne_nil (List.append_assoc before _ after) hmiddle hflag
    have hle := length_add_missing_le hbodies hwaiting
    rw [recordLimit] at hlimit
    omega
  closer := by
    intro front record rest hrecords assembly next hwaiting haccept
    have hincomplete := (consume_eq_waiting_iff.mp hwaiting).2
    obtain ⟨hflag, hnext⟩ := hincomplete.accept_eq_assembly_iff.mp haccept
    exact missing_lt_of_append hincomplete hnext (h.body_ne_nil hrecords hwaiting hflag)

theorem progresses_iff_noIdle : Progresses build records ↔ NoIdle build records :=
  ⟨Progresses.noIdle, NoIdle.progresses⟩

theorem recordsFrom_ne_flag (message : Bytes) (offset : Nat) :
    ∀ flag, [flag] ∉ recordsFrom message offset := by
  intro flag
  have hpos : 0 < noiseChunk := by decide
  induction offset using recordsFrom.induct message with
  | case1 offset hleft ih =>
      rw [recordsFrom, dif_pos hleft, List.mem_cons, not_or]
      refine ⟨?_, ih⟩
      intro heq
      have hlen := congrArg List.length heq
      simp only [List.length_cons, List.length_nil, List.length_take, List.length_drop] at hlen
      omega
  | case2 offset hdone =>
      rw [recordsFrom, dif_neg hdone]
      exact List.not_mem_nil

/-- The writer of this crate sends no idle records. -/
theorem noIdle_of_frameRecords {header payload : Bytes}
    (h : records.map Record.plaintext = frameRecords header payload) :
    NoIdle build records := by
  rintro front rest rfl _ _
  refine recordsFrom_ne_flag (header ++ payload) 0 0 ?_
  rw [← frameRecords, ← h, List.map_append, List.map_cons]
  exact List.mem_append_right _ List.mem_cons_self

end Progress

section Connection

variable {Handshake Cipher : Type} {snow : Snow Handshake Cipher} {build : Build}
  {noise last : TransportState Cipher} {records : List Record} {messages : List Bytes}

variable (snow build) in
/-- A call on a connection that brings these packets and then ends asks for one more. -/
def AsksForMore (noise : TransportState Cipher) (messages : List Bytes) : Prop :=
  ∃ link', Fails (SecureFrameReader.readFrame snow build (.new (some noise)))
    ⟨messages.flatMap packet, [], fun _ => none⟩ (.io .unexpectedEof) link'

theorem readRecords_at_end (assembly : Assembly) (encrypted plaintext : Bytes) (link : Link)
    (hend : link.incoming = []) :
    ∃ link', readRecords snow build assembly noise encrypted plaintext link =
      (.error (.io .unexpectedEof), link') := by
  obtain ⟨incoming, outgoing, answers⟩ := link
  obtain rfl : incoming = [] := hend
  refine ⟨⟨[], outgoing, answers⟩, ?_⟩
  rw [readRecords]
  rfl

theorem asksForMore_iff (hopened : Opened snow noise (records.map Record.plaintext) messages last) :
    AsksForMore snow build noise messages ↔
      ∃ assembly, consume build .empty records = .waiting assembly := by
  have hstands : Stands snow build last [] ⟨messages.flatMap packet, [], fun _ => none⟩
      (consume build .empty records)
      (readRecords snow build .empty noise [] [] ⟨messages.flatMap packet, [], fun _ => none⟩) :=
    stands_readRecords hopened (List.append_nil _).symm build .empty [] []
  have houtcome : outcome (SecureFrameReader.readFrame snow build (.new (some noise)))
      ⟨messages.flatMap packet, [], fun _ => none⟩ =
        readRecords snow build .empty noise [] []
          ⟨messages.flatMap packet, [], fun _ => none⟩ := rfl
  simp only [AsksForMore, Fails, houtcome]
  cases hprogress : consume build .empty records with
  | waiting assembly =>
      rw [hprogress] at hstands
      obtain ⟨encrypted, plaintext, hresult⟩ := hstands
      rw [hresult]
      exact ⟨fun _ => ⟨assembly, rfl⟩, fun _ => readRecords_at_end _ _ _ _ rfl⟩
  | returned frame unread =>
      rw [hprogress] at hstands
      obtain ⟨reader, _, _, hresult⟩ := hstands
      rw [hresult]
      constructor
      · rintro ⟨_, h⟩
        cases h
      · rintro ⟨_, h⟩
        cases h
  | failed error =>
      rw [hprogress] at hstands
      obtain ⟨_, hresult⟩ := hstands
      rw [hresult]
      constructor
      · rintro ⟨_, h⟩
        cases h
      · rintro ⟨_, h⟩
        cases h

theorem opened_take {plaintexts : List Bytes} (h : Opened snow noise plaintexts messages last)
    (count : Nat) :
    ∃ middle, Opened snow noise (plaintexts.take count) (messages.take count) middle := by
  induction h generalizing count with
  | nil noise =>
      cases count with
      | zero | succ => exact ⟨noise, .nil noise⟩
  | cons hread hle _ ih =>
      cases count with
      | zero => exact ⟨_, .nil _⟩
      | succ count =>
          obtain ⟨middle, hmiddle⟩ := ih count
          exact ⟨middle, .cons hread hle hmiddle⟩

end Connection

/-- A call returns or fails within the limit, and every continuation brings the frame closer,
exactly if no idle record comes while the frame is unfinished. -/
theorem readFrame_progresses_iff {Handshake Cipher : Type} (snow : Snow Handshake Cipher)
    (build : Build) {noise last : TransportState Cipher} {records : List Record}
    {messages : List Bytes}
    (hopened : Opened snow noise (records.map Record.plaintext) messages last) :
    ((∀ count, recordLimit ≤ count → count ≤ messages.length →
        ¬ AsksForMore snow build noise (messages.take count)) ∧
      ∀ front record rest, records = front ++ record :: rest → ∀ assembly next,
        consume build .empty front = .waiting assembly →
        acceptRecord build assembly record.plaintext = .ok (.inl next) →
        missing next < missing assembly) ↔ NoIdle build records := by
  have hlength : messages.length = records.length := by
    rw [Opened.length_eq hopened, List.length_map]
  have hasks : ∀ count, AsksForMore snow build noise (messages.take count) ↔
      ∃ assembly, consume build .empty (records.take count) = .waiting assembly := by
    intro count
    obtain ⟨middle, hmiddle⟩ := opened_take hopened count
    rw [← List.map_take] at hmiddle
    exact asksForMore_iff hmiddle
  rw [← progresses_iff_noIdle]
  constructor
  · rintro ⟨hinTime, hcloser⟩
    refine ⟨?_, hcloser⟩
    intro front hfront hlimit assembly hwaiting
    refine hinTime front.length hlimit (by rw [hlength]; exact hfront.length_le) ?_
    rw [hasks, ← List.prefix_iff_eq_take.mp hfront]
    exact ⟨assembly, hwaiting⟩
  · rintro ⟨hinTime, hcloser⟩
    refine ⟨?_, hcloser⟩
    intro count hlimit hcount hmore
    obtain ⟨assembly, hwaiting⟩ := (hasks count).mp hmore
    refine hinTime _ (List.take_prefix count records) ?_ assembly hwaiting
    rw [List.length_take]
    omega

/-- The state of a receiver to which nothing has been sent. -/
def freshNoise : TransportState Unit := ⟨⟨.responder, Vector.replicate 32 7, []⟩, [], [], ()⟩

/-- A ping in two records that share its header. -/
def splitPing : List Record :=
  [⟨0, (wireHeader 1 2 .ping 7 0).take 8⟩, ⟨1, (wireHeader 1 2 .ping 7 0).drop 8⟩]

theorem readFrame_progresses_iff_split :
    missing ⟨(wireHeader 1 2 .ping 7 0).take 8, none, []⟩ < missing .empty := by
  have hopened : Opened clearSnow freshNoise (splitPing.map Record.plaintext)
      (splitPing.map fun record => record.plaintext ++ List.replicate noiseTag 0)
      ⟨⟨.responder, Vector.replicate 32 7, []⟩, [], splitPing.map Record.plaintext, ()⟩ :=
    .cons rfl (by decide) (.cons rfl (by decide) (.nil _))
  have hnoIdle : NoIdle currentBuild splitPing := by
    intro front rest hrecords
    have hmem : idle ∈ splitPing := by
      rw [hrecords]
      exact List.mem_append_right _ List.mem_cons_self
    exact absurd hmem (by decide)
  exact ((readFrame_progresses_iff clearSnow currentBuild hopened).mpr hnoIdle).2 [] _ _ rfl
    .empty _ rfl rfl

theorem opened_idle (count : Nat) (noise : TransportState Unit) :
    ∃ last, Opened clearSnow noise ((List.replicate count idle).map Record.plaintext)
      (List.replicate count (List.replicate (1 + noiseTag) 0)) last := by
  induction count generalizing noise with
  | zero => exact ⟨noise, .nil noise⟩
  | succ count ih =>
      obtain ⟨last, hlast⟩ := ih { noise with received := noise.received ++ [idle.plaintext] }
      exact ⟨last, .cons rfl (by decide) hlast⟩

/-- After as many idle records as the limit allows, the call asks for another. -/
theorem readFrame_asks_after_idle :
    ∃ messages last, messages.length = recordLimit ∧
      Opened clearSnow freshNoise ((List.replicate recordLimit idle).map Record.plaintext)
        messages last ∧
      AsksForMore clearSnow currentBuild freshNoise messages := by
  obtain ⟨last, hopened⟩ := opened_idle recordLimit freshNoise
  refine ⟨_, last, List.length_replicate, hopened, (asksForMore_iff hopened).mpr ?_⟩
  refine waiting_iff.mpr ⟨?_, .inl ?_⟩
  · intro record hmem
    rw [List.eq_of_mem_replicate hmem]
    rfl
  · have hnil : bodies (List.replicate recordLimit idle) = [] := by
      refine List.flatMap_eq_nil_iff.mpr fun record hmem => ?_
      rw [List.eq_of_mem_replicate hmem]
      rfl
    rw [hnil]
    decide

end SideWire.RecordProgress
