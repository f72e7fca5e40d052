import SideWire.FrameTransport
import SideWire.WriterIntegrity

namespace SideWire.SharedWriter

open SideWire.TransitionSystem
open SideWire.ByteString
open SideWire.ByteLink
open SideWire.FrameCodec
open SideWire.RecordLayer
open SideWire.FrameTransport

variable {Handshake Cipher : Type} {snow : Snow Handshake Cipher} {build : Build}
variable {task : WriterTask} {noise : Option (TransportState Cipher)}
variable {s t : State Cipher} {actor : Actor}

section Refusal

/-- `frame_header` refuses the frame. -/
def Refused (frame : Frame) : Prop := maxPayload < frame.payload.length

def refusal (frame : Frame) : String := s!"payload too large: {frame.payload.length} bytes"

/-- A refused frame raises its error before anything is written, in the clear or not. -/
theorem writeFrame_of_refused {frame : Frame} (h : Refused frame)
    (noise : Option (TransportState Cipher)) :
    writeFrame snow build noise frame = fail (refusal frame) := by
  have hheader : frameHeader build frame.kind frame.streamId frame.payload.length =
      .error (refusal frame) := if_pos h
  cases noise with
  | none =>
      rw [writeFrame, writeRaw, writeRawFrame, hheader]
      rfl
  | some noise =>
      rw [writeFrame, writeRaw, hheader]
      rfl

theorem progress_of_refused {command : WriterCommand} (h : Refused command.frame)
    (s : State Cipher) (answers : List Nat) :
    s.progress snow build command answers =
      (.error (.raised (refusal command.frame)), answering s.outgoing answers) := by
  rw [State.progress, writeFrame_of_refused h]
  rfl

end Refusal

/-- Nothing has closed the connection, and the task has not broken off. -/
def State.Open (s : State Cipher) : Prop := s.closed = false ∧ s.phase.over = false

theorem open_of_step (hstep : Step snow build task s actor t) (h : t.Open) : s.Open := by
  refine ⟨?_, ?_⟩
  · have hclosed := h.1
    cases hstep with
    | close | signal => exact nomatch hclosed
    | submit | refuse | send | sendFails | hear | hearDropped | abandonSend | abandonWait
    | detach | notify | arm | seeClosed | shutdown | receive | disconnected | startWrite
    | refuseWrite | answer | finishWrite | failWrite | cancelWrite | report | finish =>
        exact hclosed
  · by_contra hover
    have hover := (over_step (Bool.not_eq_false _ ▸ hover) hstep).1
    exact nomatch h.2.symm.trans hover

theorem open_of_leads (hruns : (system snow build task noise).Leads s t) (h : t.Open) :
    s.Open := by
  by_contra hnot
  exact hruns.preserves (P := fun u => ¬ u.Open)
    (fun _ _ _ hu hstep hv => hu (open_of_step hstep hv)) hnot h

/-- As long as the connection is open no call has come to an error, and no refused frame
has been taken for written. -/
structure Unharmed (s : State Cipher) : Prop where
  written : ∀ command ∈ s.written, ¬ Refused command.frame
  completions : s.Open → ∀ call, s.completions call = .unset ∨ s.completions call = .sent (.ok ())
  submissions : s.Open → ∀ call frame message,
    s.submissions call ≠ some ⟨frame, .told (.error message)⟩

theorem Unharmed.move (h : Unharmed s) {call : Nat} {frame : Frame} {stage : Stage}
    (hstage : s.Open → ∀ message, stage ≠ .told (.error message)) :
    s.Open → ∀ other frame' message,
      s.submission call frame stage other ≠ some ⟨frame', .told (.error message)⟩ := by
  intro hopen other frame' message htold
  by_cases heq : other = call
  · subst heq
    rw [State.submission, Function.update_self] at htold
    have := congrArg Submission.stage (Option.some.inj htold)
    exact hstage hopen message this
  · rw [State.submission, Function.update_of_ne heq] at htold
    exact h.submissions hopen other frame' message htold

theorem Unharmed.step (h : Unharmed s) (hstep : Step snow build task s actor t) :
    Unharmed t := by
  have hback := open_of_step hstep
  cases hstep with
  | submit | send | abandonSend | abandonWait =>
      exact ⟨h.written, h.completions, h.move fun _ _ => nofun⟩
  | refuse _ _ hclosed =>
      exact ⟨h.written, h.completions,
        h.move fun hopen => by cases hopen.1.symm.trans hclosed⟩
  | sendFails _ hended =>
      exact ⟨h.written, h.completions, h.move fun hopen => by
        rw [State.Open, hended] at hopen
        cases hopen.2⟩
  | @hear call frame result hcall hsent =>
      refine ⟨h.written, h.completions, h.move ?_⟩
      rintro hs message ⟨⟩
      rcases h.completions hs call with hunset | hok
      · cases hsent.symm.trans hunset
      · cases hsent.symm.trans hok
  | @hearDropped call frame hcall hdropped =>
      refine ⟨h.written, h.completions, h.move ?_⟩
      intro hopen
      rcases h.completions hopen call with hunset | hok
      · cases hdropped.symm.trans hunset
      · cases hdropped.symm.trans hok
  | detach | close | notify | arm | seeClosed | shutdown | receive | disconnected
  | startWrite | refuseWrite | answer | failWrite | cancelWrite | signal =>
      exact ⟨h.written, fun hu => h.completions (hback hu), fun hu => h.submissions (hback hu)⟩
  | @finishWrite command answers noise link hphase hreturns =>
      refine ⟨?_, ?_, fun hu => h.submissions (hback hu)⟩
      · intro other hmem hrefused
        rcases List.mem_append.mp hmem with hmem | hmem
        · exact h.written other hmem hrefused
        · obtain rfl := List.mem_singleton.mp hmem
          rw [progress_of_refused hrefused] at hreturns
          cases hreturns
      · intro hu call
        by_cases heq : call = command.done
        · exact .inr (by simp [State.completion, heq])
        · simpa [State.completion, heq] using h.completions (hback hu) call
  | report | finish =>
      exact ⟨h.written, fun hu => (by cases hu.2), fun hu => (by cases hu.2)⟩

theorem unharmed_of_reachable (h : (system snow build task noise).Reachable s) :
    Unharmed s := by
  refine h.invariant ?_ fun _ _ _ => Unharmed.step
  rintro s rfl
  exact ⟨by simp [State.initial], fun _ _ => .inl rfl, fun _ _ _ _ => nofun⟩

theorem closed_of_signaled (h : (system snow build task noise).Reachable s) :
    s.phase = .signaled ∨ s.phase = .ended → s.closed = true := by
  refine h.invariant (P := fun u => u.phase = .signaled ∨ u.phase = .ended → u.closed = true)
    ?_ ?_
  · rintro s rfl (hphase | hphase) <;> exact nomatch hphase
  · intro u actor v hu hstep
    cases hstep with
    | submit | refuse | send | sendFails | hear | hearDropped | abandonSend | abandonWait
    | detach | notify => exact hu
    | close | signal => exact fun _ => rfl
    | arm | seeClosed | shutdown | receive | disconnected | startWrite | refuseWrite
    | answer | finishWrite | failWrite | cancelWrite | report =>
        rintro (hphase | hphase) <;> exact nomatch hphase
    | finish hphase => exact fun _ => hu (.inl hphase)

/-- A task that has broken off closes the connection, whatever the others do. -/
theorem closes_of_not_open (h : (system snow build task noise).Reachable s)
    (hnot : ¬ s.Open) :
    ∃ t, (system snow build task noise).LeadsBy (· = .writer) s t ∧ t.closed = true := by
  by_cases hclosed : s.closed = true
  · exact ⟨s, .refl, hclosed⟩
  have hover : s.phase.over = true := by
    by_contra hover
    exact hnot ⟨by simpa using hclosed, by simpa using hover⟩
  cases hphase : s.phase with
  | top | receiving | received | writing =>
      rw [hphase] at hover
      exact nomatch hover
  | failing command message =>
      exact ⟨_, .head rfl (.report hphase) (.head rfl (.signal rfl) .refl), rfl⟩
  | leaving => exact ⟨_, .head rfl (.signal hphase) .refl, rfl⟩
  | signaled => exact absurd (closed_of_signaled h (.inl hphase)) hclosed
  | ended => exact absurd (closed_of_signaled h (.inr hphase)) hclosed

/-- Once the submission of a refused frame has come back it has come back with an error,
none of its bytes is on the connection, and the connection is closed, or is about to be,
for all streams and for good. -/
theorem refused_ends_connection (snow : Snow Handshake Cipher) (build : Build)
    (task : WriterTask) (noise : Option (TransportState Cipher)) {s : State Cipher}
    (h : (system snow build task noise).Reachable s) {call : Nat} {frame : Frame}
    (hrefused : Refused frame) {result : Except String Unit}
    (htold : s.submissions call = some ⟨frame, .told result⟩) :
    (∃ message, result = .error message) ∧ (∀ command ∈ s.written, command.done ≠ call) ∧
      ∀ t, (system snow build task noise).Leads s t → ¬ t.Open ∧
        ∃ u, (system snow build task noise).LeadsBy (· = .writer) t u ∧ u.closed = true := by
  have hunharmed := unharmed_of_reachable h
  have hwritten : ∀ command ∈ s.written, command.done ≠ call := by
    rintro command hmem rfl
    obtain ⟨stage, hstage, _⟩ := (answered_of_reachable h).accepted command
      ((ordered_of_reachable h).written.subset hmem)
    rw [htold] at hstage
    have hframe : frame = command.frame :=
      congrArg Submission.frame (Option.some.inj hstage)
    exact hunharmed.written command hmem (hframe ▸ hrefused)
  cases result with
  | ok =>
      exact absurd rfl (hwritten _ ((sound_of_reachable h).success call frame htold))
  | error message =>
      refine ⟨⟨message, rfl⟩, hwritten, ?_⟩
      intro t hruns
      have hnot : ¬ t.Open := fun hopen =>
        hunharmed.submissions (open_of_leads hruns hopen) call frame message htold
      exact ⟨hnot, closes_of_not_open (h.leads hruns) hnot⟩

end SideWire.SharedWriter
