import SideWire.RecordLayer

namespace SideWire.RecordSequences

open SideWire.ByteString
open SideWire.ByteLink
open SideWire.FrameCodec
open SideWire.RecordLayer

/-- The records of the bytes of a frame from `offset` on. -/
def recordsFrom (message : Bytes) (offset : Nat) : List Bytes :=
  if _hleft : offset < message.length then
    ((if offset + min (message.length - offset) noiseChunk = message.length then 1 else 0) ::
        (message.drop offset).take (min (message.length - offset) noiseChunk)) ::
      recordsFrom message (offset + min (message.length - offset) noiseChunk)
  else []
termination_by message.length - offset
decreasing_by
  simp only [noiseChunk] at *
  omega

def frameRecords (header payload : Bytes) : List Bytes := recordsFrom (header ++ payload) 0

/-- The messages that a Noise state makes of some records, and the state behind them. -/
def sealRecords {Handshake Cipher : Type} (snow : Snow Handshake Cipher) :
    TransportState Cipher → List Bytes → Except String (List Bytes × TransportState Cipher)
  | noise, [] => .ok ([], noise)
  | noise, record :: records => do
      let (message, noise) ← noise.writeMessage snow record (record.length + 32)
      let (messages, noise) ← sealRecords snow noise records
      .ok (message :: messages, noise)

theorem plainRecord_eq {header : Bytes} (hheader : header.length = headerLen)
    (payload : Bytes) (offset chunkLen : Nat) :
    plainRecord header payload offset chunkLen =
      (if offset + chunkLen = (header ++ payload).length then 1 else 0) ::
        ((header ++ payload).drop offset).take chunkLen := by
  have htake : ∀ count, (if 0 < count then payload.take count else []) = payload.take count := by
    intro count
    split_ifs with hcount
    · rfl
    · rw [Nat.eq_zero_of_not_pos hcount, List.take_zero]
  simp only [plainRecord, htake, List.length_append, hheader]
  congr 1
  split_ifs with hoffset
  · rw [List.drop_append_of_le_length (by omega), List.take_append, List.length_drop,
      List.drop_take, hheader]
    rcases le_total (offset + chunkLen) headerLen with hle | hle
    · rw [min_eq_left hle]
      simp
      omega
    · have hwhole : ∀ count, headerLen - offset ≤ count →
          (header.drop offset).take count = header.drop offset := by
        intro count hcount
        exact List.take_of_length_le (by rw [List.length_drop]; omega)
      rw [min_eq_right hle, hwhole _ (Nat.le_refl _), hwhole chunkLen (by omega)]
  · have hdrop : header.drop offset = [] := List.drop_of_length_le (by omega)
    rw [List.drop_append, hdrop, List.nil_append, hheader]

theorem recordsFrom_bounds (message : Bytes) (offset : Nat) :
    ∀ record ∈ recordsFrom message offset, record.length ≤ noiseChunk + 1 := by
  induction offset using recordsFrom.induct message with
  | case1 offset hleft ih =>
      intro record hmem
      rw [recordsFrom, dif_pos hleft] at hmem
      rcases List.mem_cons.mp hmem with rfl | hmem
      · simp only [List.length_cons, List.length_take]
        omega
      · exact ih record hmem
  | case2 offset hdone =>
      intro record hmem
      rw [recordsFrom, dif_neg hdone] at hmem
      simp at hmem

/-- How many records a frame takes. -/
def recordCount (frame : Frame) : Nat :=
  (headerLen + frame.payload.length + (noiseChunk - 1)) / noiseChunk

theorem length_recordsFrom (message : Bytes) (offset : Nat) :
    (recordsFrom message offset).length =
      (message.length - offset + (noiseChunk - 1)) / noiseChunk := by
  have hpos : 0 < noiseChunk := by decide
  induction offset using recordsFrom.induct message with
  | case1 offset hleft ih =>
      rw [recordsFrom, dif_pos hleft, List.length_cons, ih]
      rcases le_total (message.length - offset) noiseChunk with hle | hle
      · rw [min_eq_left hle, Nat.sub_eq_zero_of_le (by omega), Nat.zero_add,
          Nat.div_eq_of_lt (by omega)]
        exact (Nat.div_eq_of_lt_le (by omega) (by omega)).symm
      · rw [min_eq_right hle]
        have hstep : message.length - offset + (noiseChunk - 1) =
            message.length - (offset + noiseChunk) + (noiseChunk - 1) + noiseChunk := by
          omega
        rw [hstep, Nat.add_div_right _ hpos]
  | case2 offset hdone =>
      rw [recordsFrom, dif_neg hdone, Nat.sub_eq_zero_of_le (by omega), Nat.zero_add,
        Nat.div_eq_of_lt (by omega)]
      rfl

/-- The flags of the records: one on the last, zero on all before it. -/
theorem recordsFrom_flags (message : Bytes) {offset : Nat} (hleft : offset < message.length) :
    ∃ count, (recordsFrom message offset).map List.head? =
      List.replicate count (some 0) ++ [some 1] := by
  induction offset using recordsFrom.induct message with
  | case1 offset hstep ih =>
      rw [recordsFrom, dif_pos hstep]
      by_cases hlast : offset + min (message.length - offset) noiseChunk = message.length
      · refine ⟨0, ?_⟩
        rw [if_pos hlast, hlast, recordsFrom, dif_neg (Nat.lt_irrefl _)]
        rfl
      · obtain ⟨count, hcount⟩ := ih (by omega)
        refine ⟨count + 1, ?_⟩
        rw [if_neg hlast, List.map_cons, hcount]
        rfl
  | case2 offset hdone => exact (hdone hleft).elim

/-- The reader takes `records` one after the other and returns `frame` at the last. -/
inductive Assembles (build : Build) : Assembly → List Bytes → Frame → Prop
  | last {assembly : Assembly} {record : Bytes} {frame : Frame} :
      acceptRecord build assembly record = .ok (.inr frame) →
        Assembles build assembly [record] frame
  | more {assembly next : Assembly} {record : Bytes} {records : List Bytes} {frame : Frame} :
      acceptRecord build assembly record = .ok (.inl next) →
        Assembles build next records frame → Assembles build assembly (record :: records) frame

theorem Assembles.unique_of_le {build : Build} {assembly : Assembly}
    {records more : List Bytes} {frame frame' : Frame}
    (h : Assembles build assembly records frame)
    (h' : Assembles build assembly more frame') (hle : records <+: more) :
    records = more ∧ frame = frame' := by
  induction h generalizing more with
  | last haccept =>
      cases h' with
      | last haccept' =>
          obtain ⟨rfl, _⟩ := List.cons_prefix_cons.mp hle
          exact ⟨rfl, by simpa [haccept] using haccept'⟩
      | more haccept' _ =>
          obtain ⟨rfl, _⟩ := List.cons_prefix_cons.mp hle
          simp [haccept] at haccept'
  | @more _ next _ records _ haccept _ ih =>
      cases h' with
      | last haccept' =>
          obtain ⟨rfl, _⟩ := List.cons_prefix_cons.mp hle
          simp [haccept] at haccept'
      | @more _ next' _ _ _ haccept' hmore =>
          obtain ⟨rfl, hrest⟩ := List.cons_prefix_cons.mp hle
          obtain rfl : next = next' := by simpa [haccept] using haccept'
          obtain ⟨rfl, rfl⟩ := ih hmore hrest
          exact ⟨rfl, rfl⟩

section Reassembly

variable {writer reader : Build} {frame : Frame} {header : Bytes}

/-- The assembly once the header and `received` have arrived. -/
def Assembly.withPayload (header : Bytes) (frame : Frame) (received : Bytes) : Assembly :=
  ⟨header, some (frame.kind, frame.streamId, frame.payload.length), received⟩

theorem fillHeader_empty (hheader : header.length = headerLen)
    (hdecode : decodeFrameHeader reader header =
      .ok (frame.kind, frame.streamId, frame.payload.length)) (bytes : Bytes) :
    fillHeader reader .empty (header ++ bytes) =
      .ok (Assembly.withPayload header frame [], bytes) := by
  have hpos : 0 < headerLen := by decide
  have htake : min (headerLen - 0) (header ++ bytes).length = headerLen := by
    rw [List.length_append]
    omega
  have hfull : (header ++ bytes).take headerLen = header := by rw [← hheader, List.take_left]
  have hrest : (header ++ bytes).drop headerLen = bytes := by rw [← hheader, List.drop_left]
  simp only [fillHeader, Assembly.empty, List.length_nil, List.nil_append, htake, hfull,
    hrest, hheader, hdecode, hpos, if_true]
  rfl

theorem fillHeader_withPayload (hheader : header.length = headerLen) (received bytes : Bytes) :
    fillHeader reader (Assembly.withPayload header frame received) bytes =
      .ok (Assembly.withPayload header frame received, bytes) := by
  rw [fillHeader, if_neg (by simp [Assembly.withPayload, hheader])]

theorem extendPayload_eq {assembly : Assembly} {kind : FrameKind} {streamId : UInt32}
    {expected : Nat} (hmetadata : assembly.metadata = some (kind, streamId, expected))
    {finalFlag : UInt8} {chunk : Bytes}
    (hle : assembly.payload.length + chunk.length ≤ expected)
    (hflag : finalFlag = 0 → assembly.payload.length + chunk.length ≠ expected) :
    extendPayload assembly finalFlag chunk =
      .ok { assembly with payload := assembly.payload ++ chunk } := by
  rw [extendPayload, hmetadata]
  dsimp only
  rw [if_neg (Nat.not_lt.mpr hle), if_neg]
  rintro ⟨hzero, hcomplete⟩
  exact hflag hzero (by rwa [List.length_append] at hcomplete)

theorem finishFrame_eq {assembly : Assembly} {kind : FrameKind} {streamId : UInt32}
    (hmetadata : assembly.metadata = some (kind, streamId, assembly.payload.length)) :
    finishFrame assembly = .ok ⟨kind, streamId, assembly.payload⟩ := by
  rw [finishFrame, hmetadata]
  simp

theorem acceptRecord_of_fillHeader {assembly : Assembly} {received bytes chunk : Bytes}
    (hfill : fillHeader reader assembly bytes =
      .ok (Assembly.withPayload header frame received, chunk))
    (hle : received.length + chunk.length ≤ frame.payload.length) :
    acceptRecord reader assembly
        ((if received.length + chunk.length = frame.payload.length then 1 else 0) :: bytes) =
      .ok (if received.length + chunk.length = frame.payload.length then
          .inr ⟨frame.kind, frame.streamId, received ++ chunk⟩
        else .inl (Assembly.withPayload header frame (received ++ chunk))) := by
  have hextend : ∀ finalFlag : UInt8,
      (finalFlag = 0 → received.length + chunk.length ≠ frame.payload.length) →
      extendPayload (Assembly.withPayload header frame received) finalFlag chunk =
        .ok (Assembly.withPayload header frame (received ++ chunk)) :=
    fun finalFlag hflag => extendPayload_eq rfl hle hflag
  by_cases hlast : received.length + chunk.length = frame.payload.length
  · have hfinish : finishFrame (Assembly.withPayload header frame (received ++ chunk)) =
        .ok ⟨frame.kind, frame.streamId, received ++ chunk⟩ := by
      apply finishFrame_eq
      rw [Assembly.withPayload, List.length_append, hlast]
    have hflag : ¬ (1 : UInt8) < 1 := by decide
    have hzero : ¬ (1 : UInt8) = 0 := by decide
    rw [if_pos hlast, if_pos hlast]
    simp only [acceptRecord, if_neg hflag, hfill, bind, Except.bind,
      hextend 1 (fun h => (hzero h).elim), if_true, hfinish]
  · have hflag : ¬ (1 : UInt8) < 0 := by decide
    have hone : ¬ (0 : UInt8) = 1 := by decide
    rw [if_neg hlast, if_neg hlast]
    simp only [acceptRecord, if_neg hflag, hfill, bind, Except.bind,
      hextend 0 (fun _ => hlast), if_neg hone]

theorem assembles_record {assembly : Assembly} {message bytes : Bytes} {offset len : Nat}
    (hheader : header.length = headerLen) (hmessage : message = header ++ frame.payload)
    (hoffset : headerLen ≤ offset + len) (hfits : offset + len ≤ message.length)
    (hfill : fillHeader reader assembly bytes =
      .ok (Assembly.withPayload header frame (frame.payload.take (offset - headerLen)),
        (frame.payload.drop (offset - headerLen)).take (offset + len - max offset headerLen)))
    (hrest : offset + len < message.length →
      Assembles reader
        (Assembly.withPayload header frame (frame.payload.take (offset + len - headerLen)))
        (recordsFrom message (offset + len)) frame) :
    Assembles reader assembly
      (((if offset + len = message.length then 1 else 0) :: bytes) ::
        recordsFrom message (offset + len)) frame := by
  have hlen : message.length = headerLen + frame.payload.length := by
    rw [hmessage, List.length_append, hheader]
  have hreceived : (frame.payload.take (offset - headerLen)).length +
      ((frame.payload.drop (offset - headerLen)).take
        (offset + len - max offset headerLen)).length = offset + len - headerLen := by
    rw [List.length_take, List.length_take, List.length_drop]
    omega
  have hbytes : frame.payload.take (offset - headerLen) ++
      (frame.payload.drop (offset - headerLen)).take (offset + len - max offset headerLen) =
        frame.payload.take (offset + len - headerLen) := by
    rw [← List.take_add]
    congr 1
    omega
  have haccept := acceptRecord_of_fillHeader hfill (by omega)
  rw [hreceived, hbytes] at haccept
  by_cases hlast : offset + len = message.length
  · have hcomplete : offset + len - headerLen = frame.payload.length := by omega
    rw [if_pos hcomplete, if_pos hcomplete, hcomplete, List.take_length] at haccept
    rw [if_pos hlast, hlast, recordsFrom, dif_neg (Nat.lt_irrefl _)]
    exact .last haccept
  · have hpartial : offset + len - headerLen ≠ frame.payload.length := by omega
    rw [if_neg hpartial, if_neg hpartial] at haccept
    rw [if_neg hlast]
    exact .more haccept (hrest (by omega))

/-- The records after the header are assembled on top of what has been received. -/
theorem assembles_recordsFrom (hheader : header.length = headerLen)
    {offset : Nat} (hoffset : headerLen ≤ offset)
    (hleft : offset < (header ++ frame.payload).length) :
    Assembles reader
      (Assembly.withPayload header frame (frame.payload.take (offset - headerLen)))
      (recordsFrom (header ++ frame.payload) offset) frame := by
  induction offset using recordsFrom.induct (header ++ frame.payload) with
  | case1 offset hstep ih =>
      rw [recordsFrom, dif_pos hstep]
      apply assembles_record hheader rfl (by omega) (by omega)
      · rw [fillHeader_withPayload hheader, List.drop_append,
          List.drop_of_length_le (by omega), List.nil_append, hheader,
          Nat.max_eq_left hoffset, Nat.add_sub_cancel_left]
      · exact ih (by omega)
  | case2 offset hdone => exact (hdone hleft).elim

/-- The reader assembles the records of a frame back into the frame. -/
theorem assembles_frameRecords (hmajor : writer.protocolMajor = reader.protocolMajor)
    (h : frameHeader writer frame.kind frame.streamId frame.payload.length = .ok header) :
    Assembles reader .empty (frameRecords header frame.payload) frame := by
  have hheader := length_frameHeader h
  have hlen : (header ++ frame.payload).length = headerLen + frame.payload.length := by
    rw [List.length_append, hheader]
  have hchunk : headerLen ≤ noiseChunk := by decide
  have hpos : 0 < headerLen := by decide
  rw [frameRecords, recordsFrom, dif_pos (by omega)]
  apply assembles_record hheader rfl (by omega) (by omega)
  · have hbytes : ((header ++ frame.payload).drop 0).take
        (min ((header ++ frame.payload).length - 0) noiseChunk) =
          header ++ frame.payload.take
            (min ((header ++ frame.payload).length - 0) noiseChunk - headerLen) := by
      rw [List.drop_zero, List.take_append, hheader, List.take_of_length_le (by omega)]
    rw [hbytes, fillHeader_empty hheader (decodeFrameHeader_frameHeader hmajor h)]
    simp
  · intro hmore
    exact assembles_recordsFrom hheader (by omega) hmore

end Reassembly

end SideWire.RecordSequences
