import SideWire.FrameTransport
import SideWire.SharedWriter

namespace SideWire.SharedWriter

open SideWire.TransitionSystem
open SideWire.ByteString
open SideWire.ByteLink
open SideWire.FrameCodec
open SideWire.RecordLayer
open SideWire.RecordSequences
open SideWire.FrameTransport (clearSnow packet)

variable {Handshake Cipher : Type} {snow : Snow Handshake Cipher} {build : Build}

variable (snow build) in
/-- The bytes of a frame, and the Noise state behind them: its header and payload as they are,
or the packets of its records. -/
def Encodes (noise : Option (TransportState Cipher)) (frame : Frame) (bytes : Bytes)
    (last : Option (TransportState Cipher)) : Prop :=
  ∃ header, frameHeader build frame.kind frame.streamId frame.payload.length = .ok header ∧
    match noise with
    | none => bytes = header ++ frame.payload ∧ last = none
    | some noise => ∃ messages next,
        sealRecords snow noise (frameRecords header frame.payload) = .ok (messages, next) ∧
          bytes = messages.flatMap packet ∧ last = some next

section Emission

theorem emits_writeRawPacket (bytes : Bytes) :
    EmitsTo (writeRawPacket bytes) fun output _ => output = packet bytes := by
  rw [writeRawPacket]
  split_ifs
  · exact emitsTo_fail _
  · exact ⟨_, _, ((writes_writeParts _ bytes).bind writes_flush).emits,
      fun _ _ => List.append_nil _⟩

theorem emits_writeNoiseRecord (noise : TransportState Cipher) (record : Bytes) :
    EmitsTo (writeNoiseRecord snow noise record) fun output next =>
      ∃ message, noise.writeMessage snow record (record.length + 32) = .ok (message, next) ∧
        output = packet message := by
  rw [writeNoiseRecord]
  split_ifs
  · exact emitsTo_fail _
  · refine (emitsTo_attempt _).bind ?_
    rintro _ ⟨message, next⟩ ⟨rfl, hmessage⟩
    refine (emits_writeRawPacket message).bind ?_
    rintro _ _ rfl
    exact emitsTo_pure ⟨message, hmessage, by simp⟩

theorem emits_writeRecords {header payload : Bytes} (hheader : header.length = headerLen)
    (offset : Nat) (noise : TransportState Cipher) :
    EmitsTo (writeRecords snow header payload offset noise) fun output last =>
      ∃ messages, sealRecords snow noise (recordsFrom (header ++ payload) offset) =
        .ok (messages, last) ∧ output = messages.flatMap packet := by
  have hlength : (header ++ payload).length = headerLen + payload.length := by
    rw [List.length_append, hheader]
  induction offset using recordsFrom.induct (header ++ payload) generalizing noise with
  | case1 offset hstep ih =>
      rw [recordsFrom, dif_pos hstep, writeRecords, dif_pos (by omega), plainRecord_eq hheader,
        ← hlength]
      refine (emits_writeNoiseRecord noise _).bind ?_
      rintro _ middle ⟨message, hmessage, rfl⟩
      obtain ⟨output, result, hemits, hrest⟩ := ih middle
      refine ⟨output, result, hemits, fun last hlast => ?_⟩
      obtain ⟨messages, hsealed, rfl⟩ := hrest last hlast
      refine ⟨message :: messages, ?_, rfl⟩
      simp only [sealRecords, hmessage, hsealed, bind, Except.bind]
  | case2 offset hdone =>
      rw [recordsFrom, dif_neg hdone, writeRecords, dif_neg (by omega)]
      exact emitsTo_pure ⟨[], rfl, rfl⟩

variable (snow build) in
/-- Writing a frame has its bytes and its result, before any writer is asked; and where it
returns, the bytes are those of the frame. -/
theorem emits_writeFrame (noise : Option (TransportState Cipher)) (frame : Frame) :
    EmitsTo (writeFrame snow build noise frame) (Encodes snow build noise frame) := by
  cases noise with
  | none =>
      have hraw : EmitsTo (writeRawFrame build frame.kind frame.streamId frame.payload)
          fun bytes _ => Encodes snow build none frame bytes none := by
        refine (emitsTo_attempt _).bind ?_
        rintro _ header ⟨rfl, hheader⟩
        exact ⟨_, _, (writes_writeParts header frame.payload).emits,
          fun _ _ => ⟨header, hheader, rfl, rfl⟩⟩
      refine hraw.bind fun bytes _ hencodes => emitsTo_pure ?_
      rwa [List.append_nil]
  | some noise =>
      refine (emitsTo_attempt _).bind ?_
      rintro _ header ⟨rfl, hheader⟩
      refine (emits_writeRecords (length_frameHeader hheader) 0 noise).bind ?_
      rintro _ last ⟨messages, hsealed, rfl⟩
      exact emitsTo_pure ⟨header, hheader, messages, last, hsealed, by simp, rfl⟩

theorem resumes_writeRawPacket (bytes : Bytes) : Resumes (writeRawPacket bytes) := by
  rw [writeRawPacket]
  split_ifs
  · exact resumes_throw _
  · exact (resumes_writeParts _ _).bind fun _ => resumes_flush

theorem resumes_writeNoiseRecord (noise : TransportState Cipher) (plaintext : Bytes) :
    Resumes (writeNoiseRecord snow noise plaintext) := by
  rw [writeNoiseRecord]
  split_ifs
  · exact resumes_throw _
  · refine (resumes_attempt _).bind ?_
    rintro ⟨message, noise⟩
    exact (resumes_writeRawPacket message).bind fun _ => resumes_pure noise

theorem resumes_writeRecords (header payload : Bytes) (offset : Nat)
    (noise : TransportState Cipher) :
    Resumes (writeRecords snow header payload offset noise) := by
  induction hleft : headerLen + payload.length - offset using Nat.strong_induction_on
    generalizing offset noise with
  | _ left ih =>
      rw [writeRecords]
      split_ifs with hoffset
      · have hchunk : 0 < noiseChunk := by decide
        refine (resumes_writeNoiseRecord noise _).bind ?_
        intro noise
        exact ih _ (by omega) _ noise rfl
      · exact resumes_pure noise

theorem resumes_writeFrame (noise : Option (TransportState Cipher)) (frame : Frame) :
    Resumes (writeFrame snow build noise frame) := by
  cases noise with
  | none =>
      refine Resumes.bind ((resumes_attempt _).bind ?_) fun _ => resumes_pure none
      intro header
      exact resumes_writeParts header frame.payload
  | some noise =>
      refine (resumes_attempt _).bind ?_
      intro header
      refine (resumes_writeRecords header frame.payload 0 noise).bind ?_
      intro noise
      exact resumes_pure (some noise)

end Emission

variable (snow build) in
/-- The pieces in which frames go out one after the other, and the noise state that
writing them leaves. -/
inductive Encoded (noise : Option (TransportState Cipher)) :
    List Frame → List Bytes → Option (TransportState Cipher) → Prop
  | nil : Encoded noise [] [] noise
  | snoc {frames pieces middle frame piece last} (h : Encoded noise frames pieces middle)
      (hpiece : Emits (writeFrame snow build middle frame) piece (.ok last))
      (hencodes : Encodes snow build middle frame piece last) :
      Encoded noise (frames ++ [frame]) (pieces ++ [piece]) last

variable (snow build) in
/-- `part` is what a write of the next frame, cut off somewhere, has put out. -/
def CutOff (s : State Cipher) (part : Bytes) : Prop :=
  ∃ command bytes result, s.written ++ [command] <+: s.accepted ∧
    Emits (writeFrame snow build s.noise command.frame) bytes result ∧ part <+: bytes

variable (snow build) in
/-- What is on the connection outside the write under way. -/
structure Framed (noise : Option (TransportState Cipher)) (s : State Cipher)
    (pieces : List Bytes) (part : Bytes) : Prop where
  encoded : Encoded snow build noise (s.written.map WriterCommand.frame) pieces s.noise
  outgoing : s.outgoing = pieces.flatten ++ part
  part_eq : s.phase.over = false → part = []
  cutOff : part = [] ∨ CutOff snow build s part

/-- The queue goes on where the task stands. -/
structure Ordered (s : State Cipher) : Prop where
  live : s.phase.over = false → s.accepted = s.written ++ s.phase.held ++ s.queue
  failing : ∀ command message, s.phase = .failing command message →
    s.written ++ [command] <+: s.accepted
  written : s.written <+: s.accepted

section Order

variable {task : WriterTask} {s t : State Cipher} {actor : Actor}

theorem Ordered.step (h : Ordered s) (hstep : Step snow build task s actor t) : Ordered t := by
  cases hstep with
  | submit | refuse | sendFails | hear | hearDropped | abandonSend | abandonWait | detach
  | close | notify => exact ⟨h.live, h.failing, h.written⟩
  | send =>
      refine ⟨?_, ?_, h.written.trans (List.prefix_append _ _)⟩
      · intro hover
        simp only [h.live hover, List.append_assoc]
      · intro command message hphase
        exact (h.failing command message hphase).trans (List.prefix_append _ _)
  | arm hphase | startWrite hphase | answer hphase =>
      exact ⟨fun _ => by simpa [hphase, Phase.held] using h.live (by simp [hphase, Phase.over]),
        nofun, h.written⟩
  | receive hphase hqueue =>
      exact ⟨fun _ => by
        simpa [hphase, hqueue, Phase.held] using h.live (by simp [hphase, Phase.over]),
        nofun, h.written⟩
  | seeClosed | shutdown | disconnected | report | signal | finish =>
      exact ⟨nofun, nofun, h.written⟩
  | refuseWrite hphase | failWrite hphase | cancelWrite hphase =>
      refine ⟨nofun, ?_, h.written⟩
      rintro command message ⟨⟩
      have haccepted := h.live (by simp [hphase, Phase.over])
      rw [hphase, Phase.held] at haccepted
      exact ⟨s.queue, haccepted.symm⟩
  | finishWrite hphase =>
      have haccepted := h.live (by simp [hphase, Phase.over])
      rw [hphase, Phase.held] at haccepted
      exact ⟨fun _ => by simp [haccepted, Phase.held], nofun, s.queue, haccepted.symm⟩

theorem ordered_of_reachable {noise : Option (TransportState Cipher)}
    (h : (system snow build task noise).Reachable s) : Ordered s := by
  refine h.invariant ?_ fun _ _ _ => Ordered.step
  rintro s rfl
  exact ⟨fun _ => rfl, nofun, List.prefix_rfl⟩

theorem Ordered.next (h : Ordered s) {command : WriterCommand}
    (hheld : s.phase.held = [command]) (hover : s.phase.over = false) :
    s.written ++ [command] <+: s.accepted := by
  rw [h.live hover, hheld]
  exact List.prefix_append _ _

end Order

section Framing

variable {task : WriterTask} {noise : Option (TransportState Cipher)} {s t : State Cipher}
  {actor : Actor} {pieces : List Bytes} {part : Bytes}

theorem connection_eq (h : ∀ command answers, s.phase ≠ .writing command answers) :
    s.connection snow build = s.outgoing := by
  unfold State.connection
  split
  · exact absurd ‹_› (h _ _)
  · rfl

theorem connection_of_over (h : s.phase.over = true) :
    s.connection snow build = s.outgoing := by
  apply connection_eq
  intro command answers hphase
  simp [hphase, Phase.over] at h

/-- What a write that is cut off leaves on the connection. -/
theorem Framed.cut (h : Framed snow build noise s pieces part) (hordered : Ordered s)
    {command : WriterCommand} {answers : List Nat}
    (hphase : s.phase = .writing command answers) :
    ∃ part, (s.progress snow build command answers).2.outgoing = pieces.flatten ++ part ∧
      CutOff snow build s part := by
  have hpart : part = [] := h.part_eq (by simp [hphase, Phase.over])
  obtain ⟨bytes, result, hemits, -⟩ :=
    emits_writeFrame snow build s.noise command.frame
  obtain ⟨part', hprefix, houtgoing⟩ := hemits.outgoing_underWay
  refine ⟨part', ?_, command, bytes, result, ?_, hemits, hprefix⟩
  · rw [State.progress, houtgoing, h.outgoing, hpart, List.append_nil]
  · exact hordered.next (by simp [hphase, Phase.held]) (by simp [hphase, Phase.over])

theorem Framed.step (h : Framed snow build noise s pieces part) (hordered : Ordered s)
    (hstep : Step snow build task s actor t) :
    ∃ pieces part, Framed snow build noise t pieces part := by
  cases hstep with
  | submit | refuse | sendFails | hear | hearDropped | abandonSend | abandonWait | detach
  | close | notify => exact ⟨pieces, part, h.encoded, h.outgoing, h.part_eq, h.cutOff⟩
  | send =>
      refine ⟨pieces, part, h.encoded, h.outgoing, h.part_eq, ?_⟩
      rcases h.cutOff with hpart | ⟨command, bytes, result, hnext, hemits⟩
      · exact .inl hpart
      · exact .inr ⟨command, bytes, result, hnext.trans (List.prefix_append _ _), hemits⟩
  | arm hphase | receive hphase | startWrite hphase | answer hphase | seeClosed hphase
  | shutdown hphase | disconnected hphase | refuseWrite hphase =>
      have hpart : part = [] := h.part_eq (by simp [hphase, Phase.over])
      exact ⟨pieces, part, h.encoded, h.outgoing, fun _ => hpart, .inl hpart⟩
  | report hphase | signal hphase | finish hphase =>
      exact ⟨pieces, part, h.encoded, h.outgoing, nofun, h.cutOff⟩
  | @finishWrite command answers noise' link hphase hreturns =>
      have hpart : part = [] := h.part_eq (by simp [hphase, Phase.over])
      obtain ⟨bytes, result, hemits, hencodes⟩ :=
        emits_writeFrame snow build s.noise command.frame
      obtain ⟨rfl, houtgoing⟩ := hemits.of_underWay hreturns
      refine ⟨pieces ++ [bytes], [], ?_, ?_, fun _ => rfl, .inl rfl⟩
      · simpa using h.encoded.snoc hemits (hencodes _ rfl)
      · simp [houtgoing, h.outgoing, hpart]
  | @failWrite command answers failure link message hphase hfails _ =>
      obtain ⟨part, houtgoing, hcut⟩ := h.cut hordered hphase
      rw [hfails] at houtgoing
      exact ⟨pieces, part, h.encoded, houtgoing, nofun, .inr hcut⟩
  | cancelWrite hphase =>
      obtain ⟨part, houtgoing, hcut⟩ := h.cut hordered hphase
      refine ⟨pieces, part, h.encoded, ?_, nofun, .inr hcut⟩
      simp only [State.connection, hphase]
      exact houtgoing

theorem framed_of_reachable (h : (system snow build task noise).Reachable s) :
    ∃ pieces part, Framed snow build noise s pieces part := by
  refine h.invariant_of (P := Ordered)
    (Q := fun s => ∃ pieces part, Framed snow build noise s pieces part)
    (fun _ => ordered_of_reachable) ?_ ?_
  · rintro s rfl
    exact ⟨[], [], .nil, rfl, fun _ => rfl, .inl rfl⟩
  · rintro s actor t hordered ⟨pieces, part, hframed⟩ hstep
    exact hframed.step hordered hstep

end Framing

section Growth

variable {task : WriterTask} {noise : Option (TransportState Cipher)} {s t : State Cipher}
  {actor : Actor}

theorem connection_writing {command : WriterCommand} {answers : List Nat}
    (hphase : s.phase = .writing command answers) :
    s.connection snow build = (s.progress snow build command answers).2.outgoing := by
  simp only [State.connection, hphase]

theorem outgoing_prefix_connection : s.outgoing <+: s.connection snow build := by
  unfold State.connection
  split
  · exact (resumes_writeFrame s.noise _).appends (answering s.outgoing _)
  · exact List.prefix_rfl

theorem connection_step (hstep : Step snow build task s actor t) :
    s.connection snow build <+: t.connection snow build := by
  have hgrows : (∀ command answers, s.phase ≠ .writing command answers) →
      t.outgoing = s.outgoing →
      s.connection snow build <+: t.connection snow build := by
    intro hphase houtgoing
    rw [connection_eq hphase, ← houtgoing]
    exact outgoing_prefix_connection
  cases hstep with
  | submit | refuse | send | sendFails | hear | hearDropped | abandonSend | abandonWait
  | detach | close | notify => exact List.prefix_rfl
  | arm hphase | seeClosed hphase | shutdown hphase | receive hphase | disconnected hphase
  | startWrite hphase | refuseWrite hphase | report hphase | signal hphase | finish hphase =>
      exact hgrows (by simp [hphase]) rfl
  | @answer command answers taken link hphase =>
      rw [connection_writing hphase]
      exact (resumes_writeFrame s.noise command.frame).underWay s.outgoing answers [taken]
  | finishWrite hphase hresult | failWrite hphase hresult =>
      rw [connection_writing hphase, hresult]
      exact List.prefix_rfl
  | cancelWrite hphase => exact List.prefix_rfl

theorem connection_leads (h : (system snow build task noise).Leads s t) :
    s.connection snow build <+: t.connection snow build := by
  refine h.preserves (P := fun u => s.connection snow build <+: u.connection snow build) ?_
    List.prefix_rfl
  intro u actor v hu hstep
  exact hu.trans (connection_step hstep)

theorem over_step (h : s.phase.over = true) (hstep : Step snow build task s actor t) :
    t.phase.over = true ∧ t.outgoing = s.outgoing := by
  cases hstep with
  | submit | refuse | send | sendFails | hear | hearDropped | abandonSend | abandonWait
  | detach | close | notify => exact ⟨h, rfl⟩
  | arm hphase | seeClosed hphase | shutdown hphase | receive hphase | disconnected hphase
  | startWrite hphase | refuseWrite hphase | answer hphase | finishWrite hphase
  | failWrite hphase | cancelWrite hphase => simp [hphase, Phase.over] at h
  | report | signal | finish => exact ⟨rfl, rfl⟩

theorem connection_of_leads_over (h : s.phase.over = true)
    (hruns : (system snow build task noise).Leads s t) :
    t.connection snow build = s.connection snow build := by
  obtain ⟨hover, houtgoing⟩ := hruns.preserves
    (P := fun u => u.phase.over = true ∧ u.outgoing = s.outgoing)
    (fun u actor v hu hstep => by
      obtain ⟨hover, houtgoing⟩ := over_step hu.1 hstep
      exact ⟨hover, houtgoing.trans hu.2⟩)
    ⟨h, rfl⟩
  rw [connection_of_over hover, connection_of_over h, houtgoing]

end Growth

/-- What calls know of their commands. -/
structure Answered (s : State Cipher) : Prop where
  held : ∀ call frame, s.submissions call = some ⟨frame, .waiting⟩ →
    s.completions call = .unset → call ∈ (s.phase.held ++ s.queue).map WriterCommand.done
  sent : ∀ call, s.completions call = .sent (.ok ()) → call ∈ s.written.map WriterCommand.done
  told : ∀ call frame, s.submissions call = some ⟨frame, .told (.ok ())⟩ →
    call ∈ s.written.map WriterCommand.done
  accepted : ∀ command ∈ s.accepted, ∃ stage,
    s.submissions command.done = some ⟨command.frame, stage⟩ ∧ stage ≠ .sending
  ended : s.phase = .ended → s.queue = []

section Answers

variable {task : WriterTask} {noise : Option (TransportState Cipher)} {s t : State Cipher}
  {actor : Actor}

theorem Answered.move (h : Answered s) {call : Nat} {frame : Frame} {stage : Stage}
    (hcall : s.submissions call = none ∨ ∃ stage, s.submissions call = some ⟨frame, stage⟩)
    (hwaiting : stage ≠ .waiting) (hsending : stage = .sending → s.submissions call = none)
    (htold : stage = .told (.ok ()) → call ∈ s.written.map WriterCommand.done) :
    Answered { s with submissions := s.submission call frame stage } where
  held other frame' hother := by
    by_cases heq : other = call
    · subst heq
      simp only [State.submission, Function.update_self, Option.some.injEq,
        Submission.mk.injEq] at hother
      exact absurd hother.2 hwaiting
    · simp only [State.submission, Function.update_of_ne heq] at hother
      exact h.held other frame' hother
  sent := h.sent
  told other frame' hother := by
    by_cases heq : other = call
    · subst heq
      simp only [State.submission, Function.update_self, Option.some.injEq,
        Submission.mk.injEq] at hother
      exact htold hother.2
    · simp only [State.submission, Function.update_of_ne heq] at hother
      exact h.told other frame' hother
  accepted command hmem := by
    obtain ⟨stage', hstage, hne⟩ := h.accepted command hmem
    by_cases heq : command.done = call
    · subst heq
      rcases hcall with hfresh | ⟨stage'', hcall⟩
      · simp [hfresh] at hstage
      · have hframe : command.frame = frame := by
          rw [hstage] at hcall
          simp only [Option.some.injEq, Submission.mk.injEq] at hcall
          exact hcall.1
        refine ⟨stage, by simp [State.submission, hframe], ?_⟩
        intro hsend
        simp [hsending hsend] at hstage
    · exact ⟨stage', by simp only [State.submission, Function.update_of_ne heq, hstage], hne⟩
  ended := h.ended

theorem Answered.send (h : Answered s) {call : Nat} {frame : Frame}
    (hcall : s.submissions call = some ⟨frame, .sending⟩) (hlive : s.phase ≠ .ended) :
    Answered { s with
      submissions := s.submission call frame .waiting
      queue := s.queue ++ [⟨frame, call⟩], accepted := s.accepted ++ [⟨frame, call⟩] } where
  held other frame' hother hunset := by
    by_cases heq : other = call
    · simp [heq]
    · simp only [State.submission, Function.update_of_ne heq] at hother
      have hheld := h.held other frame' hother hunset
      simp only [List.map_append, List.mem_append] at hheld ⊢
      tauto
  sent := h.sent
  told other frame' hother := by
    by_cases heq : other = call
    · subst heq
      simp [State.submission] at hother
    · simp only [State.submission, Function.update_of_ne heq] at hother
      exact h.told other frame' hother
  accepted command hmem := by
    rcases List.mem_append.mp hmem with hmem | hmem
    · obtain ⟨stage, hstage, hne⟩ := h.accepted command hmem
      have heq : command.done ≠ call := by
        rintro rfl
        rw [hstage] at hcall
        simp only [Option.some.injEq, Submission.mk.injEq] at hcall
        exact hne hcall.2
      exact ⟨stage, by simp only [State.submission, Function.update_of_ne heq, hstage], hne⟩
    · obtain rfl := List.mem_singleton.mp hmem
      exact ⟨.waiting, by simp [State.submission], nofun⟩
  ended hphase := absurd hphase hlive

theorem held_of_completion {command : WriterCommand} {result : Except String Unit} {call : Nat}
    {frame : Frame} (h : Answered s) (hheld : s.phase.held = [command])
    (hcall : s.submissions call = some ⟨frame, .waiting⟩)
    (hunset : s.completion command.done result call = .unset) :
    call ∈ s.queue.map WriterCommand.done := by
  by_cases heq : call = command.done
  · simp [State.completion, heq] at hunset
  · simp only [State.completion, Function.update_of_ne heq] at hunset
    simpa [hheld, heq] using h.held call frame hcall hunset

theorem Answered.step (h : Answered s) (hstep : Step snow build task s actor t) :
    Answered t := by
  cases hstep with
  | submit hfresh => exact h.move (.inl hfresh) nofun (fun _ => hfresh) nofun
  | refuse hfresh => exact h.move (.inl hfresh) nofun nofun nofun
  | send hcall hlive => exact h.send hcall hlive
  | sendFails hcall | hearDropped hcall | abandonSend hcall | abandonWait hcall =>
      exact h.move (.inr ⟨_, hcall⟩) nofun nofun nofun
  | @hear call frame result hcall hsent =>
      refine h.move (.inr ⟨_, hcall⟩) nofun nofun ?_
      rintro ⟨⟩
      exact h.sent call hsent
  | detach | close | notify => exact ⟨h.held, h.sent, h.told, h.accepted, h.ended⟩
  | arm hphase | seeClosed hphase | shutdown hphase | disconnected hphase | startWrite hphase
  | refuseWrite hphase | answer hphase | signal hphase =>
      have hheld := h.held
      simp only [hphase, Phase.held] at hheld
      exact ⟨hheld, h.sent, h.told, h.accepted, nofun⟩
  | receive hphase hqueue =>
      have hheld := h.held
      simp only [hphase, hqueue, Phase.held, List.nil_append] at hheld
      exact ⟨hheld, h.sent, h.told, h.accepted, nofun⟩
  | failWrite hphase | cancelWrite hphase =>
      have hheld := h.held
      simp only [hphase, Phase.held] at hheld
      exact ⟨hheld, h.sent, h.told, h.accepted, nofun⟩
  | @finishWrite command answers noise link hphase hreturns =>
      refine ⟨?_, ?_, ?_, h.accepted, nofun⟩
      · intro call frame hcall hunset
        exact held_of_completion h (by rw [hphase, Phase.held]) hcall hunset
      · intro call hsent
        by_cases heq : call = command.done
        · simp [heq]
        · simp only [State.completion, Function.update_of_ne heq] at hsent
          simp [h.sent call hsent]
      · intro call frame htold
        have := h.told call frame htold
        simp only [List.map_append, List.mem_append]
        exact .inl this
  | @report command message hphase =>
      refine ⟨?_, ?_, h.told, h.accepted, nofun⟩
      · intro call frame hcall hunset
        exact held_of_completion h (by rw [hphase, Phase.held]) hcall hunset
      · intro call hsent
        by_cases heq : call = command.done
        · simp [State.completion, heq] at hsent
        · simp only [State.completion, Function.update_of_ne heq] at hsent
          exact h.sent call hsent
  | finish hphase =>
      refine ⟨?_, ?_, h.told, h.accepted, fun _ => rfl⟩
      · intro call frame hcall hunset
        simp only [State.droppedCompletions] at hunset
        split_ifs at hunset with hqueued
        have hheld := h.held call frame hcall hunset
        simp only [hphase, Phase.held, List.nil_append] at hheld
        exact absurd hheld hqueued
      · intro call hsent
        simp only [State.droppedCompletions] at hsent
        split_ifs at hsent
        exact h.sent call hsent

theorem answered_of_reachable (h : (system snow build task noise).Reachable s) :
    Answered s := by
  refine h.invariant ?_ fun _ _ _ => Answered.step
  rintro s rfl
  exact ⟨nofun, nofun, nofun, nofun, nofun⟩

theorem Answered.written (h : Answered s) (hordered : Ordered s) {call : Nat} {frame : Frame}
    (htold : s.submissions call = some ⟨frame, .told (.ok ())⟩) :
    ⟨frame, call⟩ ∈ s.written := by
  obtain ⟨command, hmem, rfl⟩ := List.mem_map.mp (h.told call frame htold)
  obtain ⟨stage, hstage, _⟩ := h.accepted command (hordered.written.subset hmem)
  rw [htold] at hstage
  simp only [Option.some.injEq, Submission.mk.injEq] at hstage
  rw [hstage.1]
  exact hmem

/-- Once the task has ended, a call that has not come back can do so. -/
theorem Answered.comes_back (h : Answered s) (hphase : s.phase = .ended) {call : Nat}
    (hpending : s.Pending call) :
    ∃ t frame result, Step snow build task s .caller t ∧
      t.submissions call = some ⟨frame, .told result⟩ := by
  obtain ⟨frame, hcall | hcall⟩ := hpending
  · exact ⟨_, frame, _, .sendFails hcall hphase, Function.update_self ..⟩
  cases hcompletion : s.completions call with
  | unset =>
      have hheld := h.held call frame hcall hcompletion
      simp [hphase, h.ended hphase, Phase.held] at hheld
  | sent result => exact ⟨_, frame, result, .hear hcall hcompletion, Function.update_self ..⟩
  | dropped => exact ⟨_, frame, _, .hearDropped hcall hcompletion, Function.update_self ..⟩

end Answers

/-- A shared writer keeps its connection and its promises in whatever state it comes to. -/
structure Sound (snow : Snow Handshake Cipher) (build : Build) (task : WriterTask)
    (noise : Option (TransportState Cipher)) (s : State Cipher) : Prop where
  framed : ∃ pieces part,
    Encoded snow build noise (s.written.map WriterCommand.frame) pieces s.noise ∧
    s.written <+: s.accepted ∧ s.connection snow build = pieces.flatten ++ part ∧
    (part = [] ∨ CutOff snow build s part ∧
      (s.phase.over = true ∨ ∃ command answers, s.phase = .writing command answers))
  grows : ∀ t, (system snow build task noise).Leads s t →
    s.connection snow build <+: t.connection snow build ∧
    (s.phase.over = true → t.connection snow build = s.connection snow build)
  success : ∀ call frame, s.submissions call = some ⟨frame, .told (.ok ())⟩ →
    ⟨frame, call⟩ ∈ s.written
  answered : s.phase = .ended → ∀ call, s.Pending call →
    ∃ t frame result, Step snow build task s .caller t ∧
      t.submissions call = some ⟨frame, .told result⟩

theorem sound_of_reachable {task : WriterTask} {noise : Option (TransportState Cipher)}
    {s : State Cipher} (h : (system snow build task noise).Reachable s) :
    Sound snow build task noise s := by
  have hordered := ordered_of_reachable h
  have hanswered := answered_of_reachable h
  obtain ⟨pieces, part, hframed⟩ := framed_of_reachable h
  refine ⟨?_, fun t hruns => ⟨connection_leads hruns, fun hover =>
    connection_of_leads_over hover hruns⟩, fun _ _ htold => hanswered.written hordered htold,
    fun hphase _ hpending => hanswered.comes_back hphase hpending⟩
  by_cases hwriting : ∃ command answers, s.phase = .writing command answers
  · obtain ⟨command, answers, hphase⟩ := hwriting
    obtain ⟨part', houtgoing, hcut⟩ := hframed.cut hordered hphase
    exact ⟨pieces, part', hframed.encoded, hordered.written,
      (connection_writing hphase).trans houtgoing, .inr ⟨hcut, .inr ⟨command, answers, hphase⟩⟩⟩
  · push Not at hwriting
    refine ⟨pieces, part, hframed.encoded, hordered.written,
      (connection_eq hwriting).trans hframed.outgoing, ?_⟩
    cases hover : s.phase.over with
    | false => exact .inl (hframed.part_eq hover)
    | true => exact hframed.cutOff.imp id fun hcut => ⟨hcut, .inl rfl⟩

/-- Both writer tasks, whatever is submitted, abandoned, closed or broken. -/
theorem writers_sound (snow : Snow Handshake Cipher) (build : Build)
    (noise : Option (TransportState Cipher)) :
    (∀ s, (system snow build DeviceTransport.writerTask noise).Reachable s →
      Sound snow build DeviceTransport.writerTask noise s) ∧
    (∀ s, (system snow build MuxWriter.writerTask noise).Reachable s →
      Sound snow build MuxWriter.writerTask noise s) :=
  ⟨fun _ => sound_of_reachable, fun _ => sound_of_reachable⟩

section Runs

def textFrame (call : Nat) : Frame := ⟨.ptyInput, UInt32.ofNat (call + 1), [104, 105]⟩

def textHeader (call : Nat) : Bytes := wireHeader 1 2 .ptyInput (UInt32.ofNat (call + 1)) 2

def textBytes (call : Nat) : Bytes := textHeader call ++ [104, 105]

theorem progress_textFrame {s : State Unit} (hnoise : s.noise = none) (call : Nat) :
    (∃ link, s.progress clearSnow currentBuild ⟨textFrame call, call⟩ [] =
      (.error (.io .broken), link)) ∧
    (∃ link, s.progress clearSnow currentBuild ⟨textFrame call, call⟩ [5] =
        (.error (.io .broken), link) ∧ link.outgoing = s.outgoing ++ (textBytes call).take 5) ∧
    ∃ link, s.progress clearSnow currentBuild ⟨textFrame call, call⟩ [18] = (.ok none, link) ∧
      link.outgoing = s.outgoing ++ textBytes call := by
  have hheader : frameHeader currentBuild .ptyInput (UInt32.ofNat (call + 1)) 2 =
      .ok (textHeader call) := frameHeader_eq_ok_iff_wireHeader.mpr ⟨by decide, rfl⟩
  have hprogress : ∀ answers, s.progress clearSnow currentBuild ⟨textFrame call, call⟩ answers =
      match underWay (writeParts (textHeader call) [104, 105]) s.outgoing answers with
      | (.ok _, link) => (.ok none, link)
      | (.error error, link) => (.error error, link) := by
    intro answers
    simp only [State.progress, underWay, writeFrame, writeRaw, hnoise, writeRawFrame, textFrame,
      List.length_cons, List.length_nil, hheader, attempt, outcome_bind, outcome_pure]
    split <;> simp_all
  have hlength : (textHeader call).length = 16 := length_wireHeader 1 2
  have hpos : 0 < (textHeader call).length := by omega
  have hfive : 5 < (textHeader call).length := by omega
  have hall : (textHeader call).length + [104, 105].length ≤ 18 := by simp [hlength]
  obtain ⟨link, hlink⟩ := @underWay_writeParts_nil String s.outgoing _ [104, 105] hpos
  obtain ⟨part, hpart, htaken⟩ :=
    @underWay_writeParts_of_lt String s.outgoing _ [104, 105] 5 (by decide) hfive
  obtain ⟨whole, hwhole, houtgoing⟩ :=
    @underWay_writeParts_of_le String s.outgoing _ [104, 105] 18 hpos hall
  refine ⟨⟨link, by rw [hprogress, hlink]⟩, ⟨part, by rw [hprogress, hpart], ?_⟩,
    ⟨whole, by rw [hprogress, hwhole], houtgoing⟩⟩
  rw [htaken, textBytes, List.take_append_of_le_length hfive.le]

section Writes

variable {s : State Unit} {call : Nat}

theorem leads_written (hnoise : s.noise = none)
    (hphase : s.phase = .writing ⟨textFrame call, call⟩ []) :
    (system clearSnow currentBuild DeviceTransport.writerTask none).Leads s { s with
      phase := .top, noise := none, outgoing := s.outgoing ++ textBytes call
      completions := s.completion call (.ok ())
      written := s.written ++ [⟨textFrame call, call⟩] } := by
  obtain ⟨⟨_, hwaits⟩, -, -⟩ := progress_textFrame hnoise call
  obtain ⟨-, -, link, hreturns, houtgoing⟩ :=
    @progress_textFrame { s with phase := .writing ⟨textFrame call, call⟩ [18] } hnoise call
  have hfinish := @Step.finishWrite _ _ clearSnow currentBuild DeviceTransport.writerTask
    { s with phase := .writing ⟨textFrame call, call⟩ [18] } _ _ none link rfl hreturns
  rw [houtgoing] at hfinish
  exact .head (.answer hphase hwaits) (.single hfinish)

theorem leads_cutOff (hnoise : s.noise = none)
    (hphase : s.phase = .writing ⟨textFrame call, call⟩ []) (hattached : s.attached = true)
    (hclosed : s.closed = false) :
    (system clearSnow currentBuild DeviceTransport.writerTask none).Leads s { s with
      phase := .failing ⟨textFrame call, call⟩ "device connection is closed"
      outgoing := s.outgoing ++ (textBytes call).take 5
      closed := true, notifying := false, notified := true } := by
  obtain ⟨⟨_, hwaits⟩, -, -⟩ := progress_textFrame hnoise call
  obtain ⟨-, ⟨link, hpart, houtgoing⟩, -⟩ := progress_textFrame hnoise call
  have hcancel := @Step.cancelWrite _ _ clearSnow currentBuild DeviceTransport.writerTask
    { s with
      phase := .writing ⟨textFrame call, call⟩ [5]
      closed := true, notifying := false, notified := true } _ _ rfl rfl
  have hconnection : (State.connection clearSnow currentBuild { s with
      phase := .writing ⟨textFrame call, call⟩ [5]
      closed := true, notifying := false, notified := true }) =
        s.outgoing ++ (textBytes call).take 5 :=
    (connection_writing rfl).trans ((congrArg (fun run => run.2.outgoing) hpart).trans houtgoing)
  rw [hconnection] at hcancel
  exact .head (.answer hphase hwaits) <| .head (.close hattached hclosed) <|
    .head (.notify rfl) (.single hcancel)

end Writes

/-- The first frame is written, of the second one five bytes, and the third one is dropped with
the queue after its call has been given up. -/
theorem exists_cutOff :
    ∃ s, (system clearSnow currentBuild DeviceTransport.writerTask none).Reachable s ∧
      s.phase = .ended ∧ s.written = [⟨textFrame 0, 0⟩] ∧
      s.outgoing = textBytes 0 ++ (textBytes 1).take 5 ∧
      s.submissions 0 = some ⟨textFrame 0, .told (.ok ())⟩ ∧
      s.submissions 1 = some ⟨textFrame 1, .told (.error "device connection is closed")⟩ ∧
      s.submissions 2 = some ⟨textFrame 2, .abandoned⟩ := by
  have hqueued : (system clearSnow currentBuild DeviceTransport.writerTask none).Leads
      (.initial none) _ :=
    .head (@Step.submit _ _ _ _ _ _ 0 (textFrame 0) rfl rfl rfl) <|
    .head (@Step.send _ _ _ _ _ _ 0 (textFrame 0) rfl nofun (by decide)) <|
    .head (@Step.submit _ _ _ _ _ _ 1 (textFrame 1) rfl rfl rfl) <|
    .head (@Step.send _ _ _ _ _ _ 1 (textFrame 1) rfl nofun (by decide)) <|
    .head (@Step.submit _ _ _ _ _ _ 2 (textFrame 2) rfl rfl rfl) <|
    .head (@Step.send _ _ _ _ _ _ 2 (textFrame 2) rfl nofun (by decide)) <|
    .head (@Step.abandonWait _ _ _ _ _ _ 2 (textFrame 2) rfl) <|
    .head (.arm rfl rfl) <| .head (.receive rfl rfl) <| .head (.startWrite rfl rfl) .refl
  have hwritten := (hqueued.trans (leads_written rfl rfl)).trans <|
    System.Leads.head (@Step.hear _ _ _ _ _ _ 0 (textFrame 0) _ rfl rfl) <|
    System.Leads.head (.arm rfl rfl) <| System.Leads.head (.receive rfl rfl) <|
    System.Leads.head (.startWrite rfl rfl) .refl
  have hended := (hwritten.trans (leads_cutOff rfl rfl rfl rfl)).trans <|
    System.Leads.head (.report rfl) <|
    System.Leads.head (@Step.hear _ _ _ _ _ _ 1 (textFrame 1) _ rfl rfl) <|
    System.Leads.head (.signal rfl) <| .single (.finish rfl)
  exact ⟨_, ⟨_, rfl, hended⟩, rfl, rfl, rfl, rfl, rfl, rfl⟩

theorem writers_sound_cutOff :
    ∃ s, Sound clearSnow currentBuild DeviceTransport.writerTask none s ∧
      s.phase = .ended ∧ s.written = [⟨textFrame 0, 0⟩] ∧
      s.outgoing = textBytes 0 ++ (textBytes 1).take 5 ∧
      s.submissions 0 = some ⟨textFrame 0, .told (.ok ())⟩ ∧
      s.submissions 1 = some ⟨textFrame 1, .told (.error "device connection is closed")⟩ ∧
      s.submissions 2 = some ⟨textFrame 2, .abandoned⟩ := by
  obtain ⟨s, hreachable, hs⟩ := exists_cutOff
  exact ⟨s, (writers_sound clearSnow currentBuild none).1 s hreachable, hs⟩

end Runs

end SideWire.SharedWriter
