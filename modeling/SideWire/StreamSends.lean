import SideWire.CreditWait
import SideWire.SharedWriter
import SideWire.StreamIsolation

/-!
Calls of `send` on the streams of a `DeviceTransport`, with the tasks that they run beside: the
reader, the writer task and the owners of the streams. `send_raw` is `send` of a frame with the
id of the stream.
-/

namespace SideWire.StreamSends

open SideWire.TransitionSystem
open SideWire.FlowControl
open SideWire.FrameCodec
open SideWire.RecordLayer
open SideWire.CreditWait
open SideWire.StreamRoutes (DeviceTransport DeviceStream CancelReason)

inductive SendError
  | canceled (reason : CancelReason)
  | other (message : String)

/-- Where `ensure_active` is called: first of all, in each turn of `acquire_flow_credit`, after
it, and with the result of the write. -/
inductive Place
  | entry
  | turn (amount : Amount)
  | acquired
  | after (result : Except String Unit)

/-- Where a call of `send` stands. `ensure_active` looks at the cancellation, then at the
connection. In `sending`, `queued_write` has the frame. -/
inductive Stage
  | ensureActive (place : Place)
  | ensureOpen (place : Place)
  | matching
  | taking (amount : Amount)
  | sending
  | told (result : Except SendError Unit)
  | abandoned

def Stage.over : Stage → Bool
  | .told _ | .abandoned => true
  | _ => false

/-- Where `send` goes on once the stream has been found active. -/
def Place.next : Place → Stage
  | .entry => .matching
  | .turn amount => .taking amount
  | .acquired => .sending
  | .after (.ok ()) => .told (.ok ())
  | .after (.error message) => .told (.error (.other message))

structure Call where
  stream : Nat
  frame : Frame
  stage : Stage

/-- A call of `send` goes by the number that it has in the writer's hands. -/
structure State (Cipher : Type) where
  transport : StreamRoutes.State
  writer : SharedWriter.State Cipher
  calls : Nat → Option Call

variable {Handshake Cipher : Type}

def State.initial (noise : Option (TransportState Cipher)) : State Cipher :=
  ⟨.initial, .initial noise, fun _ => none⟩

inductive Action
  | begins (stream : Nat) (frame : Frame)
  | call (call : Nat)
  | direct (frame : Frame)
  | closes
  | other

namespace State

variable (s : State Cipher)

def setCall (call : Nat) (value : Call) : Nat → Option Call :=
  Function.update s.calls call (some value)

/-- A call of `send` borrows its stream: the owner does nothing else. -/
def Borrows (action : StreamRoutes.Action) : Prop :=
  ∃ call c, s.calls call = some c ∧ c.stage.over = false ∧ action.ofOwner c.stream

end State

/-- The steps of a call in which it neither takes credit nor has the frame written. -/
inductive Moves (st : DeviceStream) (closed : Bool) (frame : Frame) : Stage → Stage → Prop
  | canceled {place reason} (hcancel : st.cancel = some reason) :
      Moves st closed frame (.ensureActive place) (.told (.error (.canceled reason)))
  | active {place} (hcancel : st.cancel = none) :
      Moves st closed frame (.ensureActive place) (.ensureOpen place)
  | closed {place} (hclosed : closed = true) :
      Moves st closed frame (.ensureOpen place)
        (.told (.error (.other "device connection is closed")))
  | opened {place} (hopen : closed = false) :
      Moves st closed frame (.ensureOpen place) place.next
  | mismatched (hid : frame.streamId ≠ st.id) :
      Moves st closed frame .matching
        (.told (.error (.other
          s!"frame stream {frame.streamId} does not match routed stream {st.id}")))
  | matched (hid : frame.streamId = st.id) (hkind : frame.kind ≠ .fileChunk) :
      Moves st closed frame .matching .sending
  | unlimited (hid : frame.streamId = st.id) (hkind : frame.kind = .fileChunk)
      (hguard : guardAmount st.flow.isSome frame.payload.length = .ok none) :
      Moves st closed frame .matching (.ensureActive .acquired)
  | limited {amount} (hid : frame.streamId = st.id) (hkind : frame.kind = .fileChunk)
      (hguard : guardAmount st.flow.isSome frame.payload.length = .ok (some amount)) :
      Moves st closed frame .matching (.ensureActive (.turn amount))
  | tooMuch {message} (hid : frame.streamId = st.id) (hkind : frame.kind = .fileChunk)
      (hguard : guardAmount st.flow.isSome frame.payload.length = .error message) :
      Moves st closed frame .matching (.told (.error (.other message)))
  -- once it is woken, whatever for
  | starved {amount flow} (hflow : st.flow = some flow)
      (htake : flow.tryTake amount.bytes = none) :
      Moves st closed frame (.taking amount) (.ensureActive (.turn amount))

/-- Only `send` takes credit. -/
def Spends (s t : StreamRoutes.State) : Prop :=
  ∃ stream st st' flow flow', s.streams stream = some st ∧ t.streams stream = some st' ∧
    st.flow = some flow ∧ st'.flow = some flow' ∧ flow'.available < flow.available

section Model

variable (snow : Snow Handshake Cipher) (build : Build) (transport : DeviceTransport)

/-- A step that `queued_write` takes with a frame, under the number of its call. -/
def Submits (w : SharedWriter.State Cipher) (call : Nat) (frame : Frame)
    (w' : SharedWriter.State Cipher) : Prop :=
  SharedWriter.Step snow build SharedWriter.DeviceTransport.writerTask w .caller w' ∧
    ∃ stage, w'.submissions = w.submission call frame stage

inductive Step : State Cipher → Action → State Cipher → Prop
  -- `send`
  | begins {s : State Cipher} {call stream : Nat} {frame : Frame} {st : DeviceStream}
      (hst : s.transport.streams stream = some st) (howner : st.owner = .idle)
      (hfresh : s.calls call = none) (hunused : s.writer.submissions call = none) :
      Step s (.begins stream frame) { s with
        calls := s.setCall call ⟨stream, frame, .ensureActive .entry⟩ }
  | move {s : State Cipher} {call : Nat} {c : Call} {st : DeviceStream} {stage : Stage}
      (hcall : s.calls call = some c) (hst : s.transport.streams c.stream = some st)
      (hmove : Moves st s.transport.closed c.frame c.stage stage) :
      Step s (.call call) { s with calls := s.setCall call { c with stage := stage } }
  | take {s : State Cipher} {call : Nat} {c : Call} {st : DeviceStream} {amount : Amount}
      {flow rest : FlowCredit} (hcall : s.calls call = some c) (hstage : c.stage = .taking amount)
      (hst : s.transport.streams c.stream = some st) (hflow : st.flow = some flow)
      (htake : flow.tryTake amount.bytes = some rest) :
      Step s (.call call) { s with
        transport := { s.transport with
          streams := s.transport.setStream c.stream { st with flow := some rest } }
        calls := s.setCall call { c with stage := .ensureActive .acquired } }
  | submit {s : State Cipher} {call : Nat} {c : Call} {w : SharedWriter.State Cipher}
      (hcall : s.calls call = some c) (hstage : c.stage = .sending)
      (hsubmits : Submits snow build s.writer call c.frame w) :
      Step s (.call call) { s with writer := w }
  | hear {s : State Cipher} {call : Nat} {c : Call} {result : Except String Unit}
      (hcall : s.calls call = some c) (hstage : c.stage = .sending)
      (htold : s.writer.submissions call = some ⟨c.frame, .told result⟩) :
      Step s (.call call) { s with
        calls := s.setCall call { c with stage := .ensureActive (.after result) } }
  -- the future of a call is dropped, and with it that of its write
  | abandon {s : State Cipher} {call : Nat} {c : Call} (hcall : s.calls call = some c)
      (hover : c.stage.over = false) (hidle : ¬ s.writer.Pending call) :
      Step s (.call call) { s with calls := s.setCall call { c with stage := .abandoned } }
  -- `send_stream_cancel`, and frames that go straight to the `DeviceTransport`
  | direct {s : State Cipher} {call : Nat} {frame : Frame} {w : SharedWriter.State Cipher}
      (hcall : s.calls call = none) (hsubmits : Submits snow build s.writer call frame w) :
      Step s (.direct frame) { s with writer := w }
  -- `signal_closed`, of `close` or the reader
  | closes {s : State Cipher} {action : StreamRoutes.Action} {t : StreamRoutes.State}
      {w : SharedWriter.State Cipher}
      (hstep : StreamRoutes.Step transport s.transport action t)
      (hcloser : action = .reader ∨ t.closing = s.transport.closing + 1)
      (hopen : s.transport.closed = false) (hclosed : t.closed = true)
      (hwriter : SharedWriter.Step snow build SharedWriter.DeviceTransport.writerTask s.writer
        .closer w) (hsignaled : w.closed = true) :
      Step s .closes { s with transport := t, writer := w }
  -- the end of the writer task
  | writerEnds {s : State Cipher} {w : SharedWriter.State Cipher}
      (hstep : SharedWriter.Step snow build SharedWriter.DeviceTransport.writerTask s.writer
        .writer w) (hopen : s.writer.closed = false) (hclosed : w.closed = true) :
      Step s .other { s with
        transport := { s.transport with closed := true }, writer := w }
  -- all else
  | writer {s : State Cipher} {actor : SharedWriter.Actor} {w : SharedWriter.State Cipher}
      (hstep : SharedWriter.Step snow build SharedWriter.DeviceTransport.writerTask s.writer
        actor w) (hactor : actor ≠ .caller) (hsame : w.closed = s.writer.closed) :
      Step s .other { s with writer := w }
  | transport {s : State Cipher} {action : StreamRoutes.Action} {t : StreamRoutes.State}
      (hstep : StreamRoutes.Step transport s.transport action t)
      (hfree : ¬ s.Borrows action) (hkeeps : ¬ Spends s.transport t)
      (hsame : t.closed = s.transport.closed) :
      Step s .other { s with transport := t }

def system (noise : Option (TransportState Cipher)) : System (State Cipher) Action where
  init := fun s => s = .initial noise
  step := Step snow build transport

end Model

section Streams

variable {transport : DeviceTransport} {s t : StreamRoutes.State} {action : StreamRoutes.Action}
  {stream other : Nat} {st st' value : DeviceStream}

theorem limited_of_set {old : DeviceStream} (hold : s.streams stream = some old)
    (hst : s.streams other = some st) (hst' : s.setStream stream value other = some st')
    (hvalue : value.flow.isSome = old.flow.isSome) :
    st'.flow.isSome = st.flow.isSome := by
  change Function.update s.streams stream (some value) other = some st' at hst'
  by_cases heq : other = stream
  · rw [heq, Function.update_self] at hst'
    rw [heq, hold] at hst
    rwa [← Option.some.inj hst', ← Option.some.inj hst]
  · rw [Function.update_of_ne heq, hst] at hst'
    rw [Option.some.inj hst']

theorem limited_of_step (hstep : StreamRoutes.Step transport s action t)
    (hst : s.streams other = some st) (hst' : t.streams other = some st') :
    st'.flow.isSome = st.flow.isSome := by
  cases hstep with
  | enter | draw | drawZero | refuse | collide | close | closeRoutes | writerEnds | arm
  | seeClosed | shutdown | readFails | rejectUpdate | lookUpdate | strayUpdate | rejectCredit
  | lookCancel | strayCancel | look | stray | overflow | orphan | removeFull | removeOrphan
  | signal | clear => rw [Option.some.inj (hst.symm.trans hst')]
  | @register id stream hdrawn hopen hfree hfresh =>
      have hne : other ≠ stream := by
        rintro rfl
        exact nomatch hfresh.symm.trans hst
      have hsame : s.streams other = some st' := (Function.update_of_ne hne _ _).symm.trans hst'
      rw [Option.some.inj (hst.symm.trans hsame)]
  | recv hold | pollClosed hold | pollPending hold | park hold | abandon hold | tryRecv hold
  | tryEmpty hold | tryDisconnected hold | pop hold | canceled hold | recvClosed hold
  | tryRecvClosed hold | drop hold | dropQueue hold => exact limited_of_set hold hst hst' rfl
  | cancel _ hold | deliver _ hold => exact limited_of_set hold hst hst' rfl
  | takeCredit hold hflow | credit _ hold hflow =>
      exact limited_of_set hold hst hst' (by rw [hflow]; rfl)
  | @read frame hreader =>
      have harrived := (StreamRoutes.arrive_of_eq hst).symm.trans hst'
      rw [← Option.some.inj harrived]
      split_ifs <;> rfl

end Streams

section Writer

variable {snow : Snow Handshake Cipher} {build : Build} {task : SharedWriter.WriterTask}
  {w w' : SharedWriter.State Cipher} {actor : SharedWriter.Actor}

theorem accepted_of_step
    (hstep : SharedWriter.Step snow build task w actor w') :
    w'.accepted = w.accepted ∨ ∃ call frame,
      w.submissions call = some ⟨frame, .sending⟩ ∧
        w'.accepted = w.accepted ++ [⟨frame, call⟩] := by
  cases hstep with
  | send hcall => exact .inr ⟨_, _, hcall, rfl⟩
  | submit | refuse | sendFails | hear | hearDropped | abandonSend | abandonWait | detach | close
  | notify | arm | seeClosed | shutdown | receive | disconnected | startWrite | refuseWrite
  | answer | finishWrite | failWrite | cancelWrite | report | signal | finish => exact .inl rfl

theorem submissions_of_step
    (hstep : SharedWriter.Step snow build task w actor w') (hactor : actor ≠ .caller) :
    w'.submissions = w.submissions := by
  cases hstep with
  | submit | refuse | send | sendFails | hear | hearDropped | abandonSend | abandonWait
  | detach => exact absurd rfl hactor
  | close | notify | arm | seeClosed | shutdown | receive | disconnected | startWrite
  | refuseWrite | answer | finishWrite | failWrite | cancelWrite | report | signal | finish => rfl

end Writer

section Steps

variable {snow : Snow Handshake Cipher} {build : Build} {transport : DeviceTransport}
  {noise : Option (TransportState Cipher)} {s t : State Cipher} {a : Action}

theorem opener_step {t : StreamRoutes.State}
    (hstep : StreamRoutes.Step transport s.transport .opener t) :
    Step snow build transport s .other { s with transport := t } := by
  have hkept : ∀ stream st, s.transport.streams stream = some st → t.streams stream = some st := by
    intro stream st hst
    cases hstep with
    | enter | draw | drawZero | refuse | collide => exact hst
    | @register id other hdrawn hopen hfree hfresh =>
        have hne : stream ≠ other := by
          rintro rfl
          exact nomatch hfresh.symm.trans hst
        exact (Function.update_of_ne hne _ _).trans hst
  refine .transport hstep ?_ ?_ ?_
  · rintro ⟨_, _, _, _, hopener⟩
    exact hopener
  · rintro ⟨stream, st, st', flow, flow', hst, hst', hflow, hflow', hless⟩
    obtain rfl := Option.some.inj ((hkept stream st hst).symm.trans hst')
    obtain rfl := Option.some.inj (hflow.symm.trans hflow')
    exact Nat.lt_irrefl _ hless
  · cases hstep <;> rfl

theorem leads_of_moves {call : Nat} {c : Call} {st : DeviceStream} {stage : Stage}
    (hcall : s.calls call = some c) (hst : s.transport.streams c.stream = some st)
    (hmoves : Relation.ReflTransGen (Moves st s.transport.closed c.frame) c.stage stage) :
    (system snow build transport noise).LeadsBy (· = .call call) s
      { s with calls := s.setCall call { c with stage := stage } } := by
  induction hmoves with
  | refl =>
      refine .of_eq (congrArg (State.mk s.transport s.writer) ?_)
      exact (Function.update_eq_self_iff.mpr hcall.symm).symm
  | @tail middle stage _ hmove ih =>
      have hmiddle : s.setCall call { c with stage := middle } call =
          some { c with stage := middle } := Function.update_self ..
      let moved : State Cipher := { s with calls := s.setCall call { c with stage := middle } }
      have hnext : Step snow build transport moved (.call call) _ := .move hmiddle hst hmove
      have hidem : moved.setCall call { c with stage := stage } =
          s.setCall call { c with stage := stage } := Function.update_idem ..
      rw [hidem] at hnext
      exact ih.tail hnext rfl

theorem writer_of_step (hstep : Step snow build transport s a t) :
    t.writer = s.writer ∨ ∃ actor,
      SharedWriter.Step snow build SharedWriter.DeviceTransport.writerTask s.writer actor
        t.writer := by
  cases hstep with
  | begins | move | take | hear | abandon | transport => exact .inl rfl
  | submit _ _ hsubmits | direct _ hsubmits => exact .inr ⟨_, hsubmits.1⟩
  | closes _ _ _ _ hwriter => exact .inr ⟨_, hwriter⟩
  | writerEnds hstep | writer hstep => exact .inr ⟨_, hstep⟩

theorem leads_writer (h : (system snow build transport noise).Leads s t) :
    (SharedWriter.system snow build SharedWriter.DeviceTransport.writerTask noise).Leads
      s.writer t.writer := by
  induction h with
  | refl => exact .refl
  | tail _ hnext ih =>
      obtain ⟨a, hstep⟩ := hnext
      rcases writer_of_step hstep with hsame | ⟨actor, hstep⟩
      · exact hsame ▸ ih
      · exact ih.tail hstep

theorem reachable_writer (h : (system snow build transport noise).Reachable s) :
    (SharedWriter.system snow build SharedWriter.DeviceTransport.writerTask noise).Reachable
      s.writer := by
  obtain ⟨_, rfl, hruns⟩ := h
  exact ⟨_, rfl, leads_writer hruns⟩

/-- The two tasks and the calls of `send` see one flag. -/
theorem closed_of_step (h : s.writer.closed = s.transport.closed)
    (hstep : Step snow build transport s a t) : t.writer.closed = t.transport.closed := by
  have hsubmitted : ∀ {call frame w}, Submits snow build s.writer call frame w →
      w.closed = s.writer.closed := by
    rintro call frame w ⟨hstep, -⟩
    cases hstep <;> rfl
  cases hstep with
  | begins | move | take | hear | abandon => exact h
  | submit _ _ hsubmits | direct _ hsubmits => exact (hsubmitted hsubmits).trans h
  | closes _ _ _ hclosed _ hsignaled => exact hsignaled.trans hclosed.symm
  | writerEnds _ _ hclosed => exact hclosed
  | writer _ _ hsame => exact hsame.trans h
  | transport _ _ _ hsame => exact h.trans hsame.symm

theorem closed_of_reachable (h : (system snow build transport noise).Reachable s) :
    s.writer.closed = s.transport.closed := by
  refine h.invariant (P := fun u => u.writer.closed = u.transport.closed) ?_
    fun _ _ _ => closed_of_step
  rintro s rfl
  rfl

variable (transport) in
theorem exists_writer {w : SharedWriter.State Cipher}
    (hstep : SharedWriter.Step snow build SharedWriter.DeviceTransport.writerTask s.writer
      .writer w) : ∃ t, Step snow build transport s .other t ∧ t.writer = w := by
  by_cases hsame : w.closed = s.writer.closed
  · exact ⟨_, .writer hstep nofun hsame, rfl⟩
  have hsignal : s.writer.closed = false ∧ w.closed = true := by
    cases hstep with
    | signal =>
        refine ⟨?_, rfl⟩
        by_contra hclosed
        exact hsame (Bool.not_eq_false _ ▸ hclosed).symm
    | arm | seeClosed | shutdown | receive | disconnected | startWrite | refuseWrite | answer
    | finishWrite | failWrite | cancelWrite | report | finish => exact absurd rfl hsame
  exact ⟨_, .writerEnds hstep hsignal.1 hsignal.2, rfl⟩

variable (transport) in
theorem leads_other {w w' : SharedWriter.State Cipher}
    (h : (SharedWriter.system snow build SharedWriter.DeviceTransport.writerTask noise).LeadsBy
      (· = .writer) w w') (hw : s.writer = w) :
    ∃ t, (system snow build transport noise).LeadsBy (· = .other) s t ∧ t.writer = w' := by
  induction h with
  | refl => exact ⟨s, .refl, hw⟩
  | tail _ hnext ih =>
      obtain ⟨t, hruns, ht⟩ := ih
      obtain ⟨_, rfl, hstep⟩ := hnext
      obtain ⟨u, hstep, hu⟩ := exists_writer transport (ht ▸ hstep)
      exact ⟨u, hruns.tail hstep rfl, hu⟩

end Steps

end SideWire.StreamSends
