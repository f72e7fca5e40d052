import SideWire.Base.TransitionSystem
import SideWire.FrameCodec

/-!
The two loops of `handle_pty`, with what `serve` does to the stream of a session.
-/

namespace SideWire.PtySession

open SideWire.TransitionSystem
open SideWire.ByteString
open SideWire.FrameCodec

def streamRouteCapacity : Nat := 16

structure PtyResize where
  cols : UInt16
  rows : UInt16
  deriving DecidableEq

structure PtyCompleteRequest where
  line : String
  cursor : UInt32
  deriving DecidableEq

structure PtyCompleteResult where
  line : String
  cursor : UInt32
  candidates : List String
  candidateCount : UInt32
  deriving DecidableEq

/-- The stream and the shell of a session, and how its messages are encoded. A child
that has just been spawned has an id. -/
structure Pty where
  streamId : UInt32
  pid : Nat
  pid_pos : 0 < pid
  decodeResize : Bytes → Except String PtyResize
  decodeComplete : Bytes → Except String PtyCompleteRequest
  encodeResult : PtyCompleteResult → Except String Bytes

inductive Signal
  | hangup
  | kill
  deriving DecidableEq

/-- The signals sent to a process group. -/
def terminatePtyGroup (pid : Nat) : List (Nat × Signal) :=
  if pid = 0 then [] else [(pid, .hangup), (pid, .kill)]

/-- Why `input_loop` returns an error on its own: the system refuses a write to the PTY,
a resize payload is malformed or the system refuses the size, a completion payload is
malformed, the completion fails, its result has no encoding, or cannot be sent. -/
inductive InputFailure
  | write
  | resizePayload (message : String)
  | resizeIoctl
  | completePayload (message : String)
  | completion (message : String)
  | resultEncoding (message : String)
  | send
  deriving DecidableEq

inductive PtyError
  | closed (stream : UInt32)
  | unexpectedStream (other stream : UInt32)
  | unexpectedFrame (kind : FrameKind)
  | failed (cause : InputFailure)
  | outputRead
  | outputWrite
  deriving DecidableEq

/-- Where `input_loop` stands. -/
inductive InputLoop
  | starting
  | waiting
  | writing (payload : Bytes)
  | completing (request : PtyCompleteRequest)
  | answering (payload : Bytes)
  | ended (result : Except PtyError Unit)

def InputLoop.over : InputLoop → Bool
  | .ended _ => true
  | _ => false

/-- Where `output_loop` stands. -/
inductive OutputLoop
  | starting
  | reading
  | writing (chunk : Bytes)
  | ended (result : Except PtyError Unit)

def OutputLoop.over : OutputLoop → Bool
  | .ended _ => true
  | _ => false

/-- Where `serve` stands. It has still to take away the route of a canceled stream in
`unrouting`, and to close the writer in `closing`. -/
inductive Dispatcher
  | serving
  | unrouting
  | closing
  | ended
  deriving DecidableEq

/-- `routed` says that the stream is in `routes`, `canceled` that it is in the set of the
writer, `canceling` that a spawned `send_cancel` has yet to run. `wasCanceled` remembers
every cancellation. -/
structure State where
  dispatcher : Dispatcher
  inbox : List Frame
  routed : Bool
  canceling : Bool
  canceled : Bool
  wasCanceled : Bool
  failed : Bool
  done : Bool
  signals : List (Nat × Signal)
  input : InputLoop
  output : OutputLoop

def State.initial : State where
  dispatcher := .serving
  inbox := []
  routed := true
  canceling := false
  canceled := false
  wasCanceled := false
  failed := false
  done := false
  signals := []
  input := .starting
  output := .starting

/-- The frames a client sends on an open session. -/
def isPtyRequest : FrameKind → Bool
  | .ptyInput | .ptyResize | .ptyComplete | .ptyClose => true
  | _ => false

/-- `serve` looks for a route of the frame. -/
def isRouted (frame : Frame) : Bool :=
  frame.kind != .streamWindowUpdate && frame.kind != .streamCancel

inductive Action
  | dispatcher
  | writer
  | input
  | inputFails (cause : InputFailure)
  | output

inductive Step (pty : Pty) : State → Action → State → Prop
  -- `serve`
  | route {s : State} {frame : Frame} (hserving : s.dispatcher = .serving)
      (hid : frame.streamId = pty.streamId)
      (hkind : isRouted frame = true) (hrouted : s.routed = true)
      (hroom : s.inbox.length < streamRouteCapacity) :
      Step pty s .dispatcher { s with inbox := s.inbox ++ [frame] }
  | overflow {s : State} {frame : Frame} (hserving : s.dispatcher = .serving)
      (hid : frame.streamId = pty.streamId) (hkind : isRouted frame = true)
      (hrouted : s.routed = true) (hfull : streamRouteCapacity ≤ s.inbox.length) :
      Step pty s .dispatcher { s with routed := false, canceling := true }
  -- an unsupported request, answered and finished by `serve` itself
  | stray {s : State} {frame : Frame} (hserving : s.dispatcher = .serving)
      (hid : frame.streamId = pty.streamId)
      (hkind : isPtyRequest frame.kind = true) (hrouted : s.routed = false) :
      Step pty s .dispatcher { s with canceled := false }
  | cancel {s} (hserving : s.dispatcher = .serving) :
      Step pty s .dispatcher { s with
        dispatcher := .unrouting, canceled := true, wasCanceled := true }
  | unroute {s} (hunrouting : s.dispatcher = .unrouting) :
      Step pty s .dispatcher { s with dispatcher := .serving, routed := false }
  | sendCancel {s} (hcanceling : s.canceling = true) :
      Step pty s .dispatcher { s with
        canceling := false, canceled := true, wasCanceled := true }
  | hangUp {s} (hserving : s.dispatcher = .serving) :
      Step pty s .dispatcher { s with
        dispatcher := .closing, routed := false
        canceled := s.canceled || s.routed, wasCanceled := s.wasCanceled || s.routed }
  | close {s} (hclosing : s.dispatcher = .closing) :
      Step pty s .dispatcher { s with dispatcher := .ended, failed := true }
  | writerFails {s} : Step pty s .writer { s with failed := true }
  -- both loops start once the answer to the request has been sent
  | start {s} (hinput : s.input = .starting) (houtput : s.output = .starting) :
      Step pty s .input { s with input := .waiting, output := .reading }
  -- `input_loop`
  | seeDone {s} (hinput : s.input = .waiting) (hdone : s.done = true) :
      Step pty s .input { s with input := .ended (.ok ()) }
  | seeClosed {s} (hinput : s.input = .waiting) (hinbox : s.inbox = [])
      (hrouted : s.routed = false) :
      Step pty s .input { s with
        signals := s.signals ++ terminatePtyGroup pty.pid
        input := .ended (.error (.closed pty.streamId)) }
  | takeForeign {s frame rest} (hinput : s.input = .waiting) (hinbox : s.inbox = frame :: rest)
      (hid : frame.streamId ≠ pty.streamId) :
      Step pty s .input { s with
        inbox := rest, signals := s.signals ++ terminatePtyGroup pty.pid
        input := .ended (.error (.unexpectedStream frame.streamId pty.streamId)) }
  | takeInput {s frame rest} (hinput : s.input = .waiting) (hinbox : s.inbox = frame :: rest)
      (hid : frame.streamId = pty.streamId) (hkind : frame.kind = .ptyInput) :
      Step pty s .input { s with inbox := rest, input := .writing frame.payload }
  | resize {s frame rest size} (hinput : s.input = .waiting)
      (hinbox : s.inbox = frame :: rest) (hid : frame.streamId = pty.streamId)
      (hkind : frame.kind = .ptyResize) (hdecode : pty.decodeResize frame.payload = .ok size) :
      Step pty s .input { s with inbox := rest }
  | resizeRefused {s frame rest size} (hinput : s.input = .waiting)
      (hinbox : s.inbox = frame :: rest) (hid : frame.streamId = pty.streamId)
      (hkind : frame.kind = .ptyResize) (hdecode : pty.decodeResize frame.payload = .ok size) :
      Step pty s (.inputFails .resizeIoctl) { s with
        inbox := rest, input := .ended (.error (.failed .resizeIoctl)) }
  | resizeMalformed {s frame rest message} (hinput : s.input = .waiting)
      (hinbox : s.inbox = frame :: rest) (hid : frame.streamId = pty.streamId)
      (hkind : frame.kind = .ptyResize)
      (hdecode : pty.decodeResize frame.payload = .error message) :
      Step pty s (.inputFails (.resizePayload message)) { s with
        inbox := rest, input := .ended (.error (.failed (.resizePayload message))) }
  | takeComplete {s frame rest request} (hinput : s.input = .waiting)
      (hinbox : s.inbox = frame :: rest) (hid : frame.streamId = pty.streamId)
      (hkind : frame.kind = .ptyComplete)
      (hdecode : pty.decodeComplete frame.payload = .ok request) :
      Step pty s .input { s with inbox := rest, input := .completing request }
  | completeMalformed {s frame rest message} (hinput : s.input = .waiting)
      (hinbox : s.inbox = frame :: rest) (hid : frame.streamId = pty.streamId)
      (hkind : frame.kind = .ptyComplete)
      (hdecode : pty.decodeComplete frame.payload = .error message) :
      Step pty s (.inputFails (.completePayload message)) { s with
        inbox := rest, input := .ended (.error (.failed (.completePayload message))) }
  | takeClose {s frame rest} (hinput : s.input = .waiting) (hinbox : s.inbox = frame :: rest)
      (hid : frame.streamId = pty.streamId) (hkind : frame.kind = .ptyClose) :
      Step pty s .input { s with
        inbox := rest, signals := s.signals ++ terminatePtyGroup pty.pid
        input := .ended (.ok ()) }
  | takeUnexpected {s frame rest} (hinput : s.input = .waiting)
      (hinbox : s.inbox = frame :: rest) (hid : frame.streamId = pty.streamId)
      (hkind : isPtyRequest frame.kind = false) :
      Step pty s .input { s with
        inbox := rest, signals := s.signals ++ terminatePtyGroup pty.pid
        input := .ended (.error (.unexpectedFrame frame.kind)) }
  | written {s payload} (hinput : s.input = .writing payload) :
      Step pty s .input { s with input := .waiting }
  | writeFails {s payload} (hinput : s.input = .writing payload) :
      Step pty s (.inputFails .write) { s with input := .ended (.error (.failed .write)) }
  | completed {s request result payload} (hinput : s.input = .completing request)
      (hencode : pty.encodeResult result = .ok payload) :
      Step pty s .input { s with input := .answering payload }
  | resultUnencodable {s request result message} (hinput : s.input = .completing request)
      (hencode : pty.encodeResult result = .error message) :
      Step pty s (.inputFails (.resultEncoding message)) { s with
        input := .ended (.error (.failed (.resultEncoding message))) }
  | completionFails {s request message} (hinput : s.input = .completing request) :
      Step pty s (.inputFails (.completion message)) { s with
        input := .ended (.error (.failed (.completion message))) }
  | answered {s payload} (hinput : s.input = .answering payload) (hactive : s.canceled = false) :
      Step pty s .input { s with input := .waiting }
  | answerFails {s payload} (hinput : s.input = .answering payload)
      (hinactive : s.canceled = true ∨ s.failed = true) :
      Step pty s (.inputFails .send) { s with input := .ended (.error (.failed .send)) }
  -- `output_loop`
  | readChunk {s chunk} (houtput : s.output = .reading) :
      Step pty s .output { s with output := .writing chunk }
  | readEnds {s} (houtput : s.output = .reading) :
      Step pty s .output { s with done := true, output := .ended (.ok ()) }
  | readFails {s} (houtput : s.output = .reading) :
      Step pty s .output { s with done := true, output := .ended (.error .outputRead) }
  | wrote {s chunk} (houtput : s.output = .writing chunk) (hactive : s.canceled = false) :
      Step pty s .output { s with output := .reading }
  | outputFails {s chunk} (houtput : s.output = .writing chunk)
      (hinactive : s.canceled = true ∨ s.failed = true) :
      Step pty s .output { s with
        signals := s.signals ++ terminatePtyGroup pty.pid
        output := .ended (.error .outputWrite) }

def system (pty : Pty) : System State Action where
  init := fun s => s = .initial
  step := Step pty

/-- The process group of the shell has been told to terminate. -/
def State.Terminated (pty : Pty) (s : State) : Prop := (pty.pid, Signal.kill) ∈ s.signals

theorem kill_mem_terminatePtyGroup (pty : Pty) :
    (pty.pid, Signal.kill) ∈ terminatePtyGroup pty.pid := by
  have hpid : pty.pid ≠ 0 := pty.pid_pos.ne'
  simp [terminatePtyGroup, hpid]

/-- A loop that goes on while the other one is over has its reason to end. -/
structure Explained (pty : Pty) (s : State) : Prop where
  input : s.input.over = true → s.output.over = false → s.Terminated pty ∨ s.done = true
  output : s.output.over = true → s.input.over = false →
    s.done = true ∨ s.wasCanceled = true ∨ s.failed = true
  unrouted : s.wasCanceled = true → s.routed = false ∨ s.dispatcher = .unrouting

/-- What holds along every run: as long as both loops go on none has been told to end,
and a cancellation of the stream is remembered. -/
structure Inv (s : State) : Prop where
  calm : s.input.over = false → s.output.over = false → s.signals = [] ∧ s.done = false
  recorded : s.canceled = true → s.wasCanceled = true
  overflowed : s.canceling = true → s.routed = false
  unrouted : s.wasCanceled = true → s.routed = false ∨ s.dispatcher = .unrouting
  outputEnded : s.output.over = true →
    s.done = true ∨ s.wasCanceled = true ∨ s.failed = true

theorem Inv.initial : Inv .initial where
  calm _ _ := ⟨rfl, rfl⟩
  recorded h := h
  overflowed h := nomatch h
  unrouted h := nomatch h
  outputEnded h := nomatch h

theorem Inv.inputStep {s : State} (h : Inv s) (inbox : List Frame)
    (signals : List (Nat × Signal)) (input : InputLoop)
    (hcalm : input.over = false → s.input.over = false ∧ signals = s.signals) :
    Inv { s with inbox := inbox, signals := signals, input := input } where
  calm hinput houtput := by
    obtain ⟨hlive, hsignals⟩ := hcalm hinput
    rw [hsignals]
    exact h.calm hlive houtput
  recorded := h.recorded
  overflowed := h.overflowed
  unrouted := h.unrouted
  outputEnded := h.outputEnded

theorem Inv.step {pty : Pty} {s t : State} {a : Action} (h : Inv s)
    (hstep : Step pty s a t) : Inv t := by
  cases hstep with
  | route => exact ⟨h.calm, h.recorded, h.overflowed, h.unrouted, h.outputEnded⟩
  | overflow =>
      exact ⟨h.calm, h.recorded, fun _ => rfl, fun _ => .inl rfl, h.outputEnded⟩
  | stray =>
      exact ⟨h.calm, fun hcanceled => (nomatch hcanceled), h.overflowed, h.unrouted,
        h.outputEnded⟩
  | cancel =>
      exact ⟨h.calm, fun _ => rfl, h.overflowed, fun _ => .inr rfl,
        fun _ => .inr (.inl rfl)⟩
  | unroute =>
      exact ⟨h.calm, h.recorded, fun _ => rfl, fun _ => .inl rfl, h.outputEnded⟩
  | sendCancel hcanceling =>
      exact ⟨h.calm, fun _ => rfl, fun hfalse => (nomatch hfalse),
        fun _ => .inl (h.overflowed hcanceling), fun _ => .inr (.inl rfl)⟩
  | hangUp =>
      refine ⟨h.calm, ?_, fun _ => rfl, fun _ => .inl rfl, ?_⟩
      · intro hcanceled
        rcases Bool.or_eq_true_iff.mp hcanceled with hcanceled | hrouted
        · simp [h.recorded hcanceled]
        · simp [hrouted]
      · intro hover
        rcases h.outputEnded hover with hdone | hcanceled | hfailed
        · exact .inl hdone
        · exact .inr (.inl (by simp [hcanceled]))
        · exact .inr (.inr hfailed)
  | close hclosing =>
      refine ⟨h.calm, h.recorded, h.overflowed, ?_, fun _ => .inr (.inr rfl)⟩
      intro hcanceled
      rcases h.unrouted hcanceled with hrouted | hunrouting
      · exact .inl hrouted
      · exact nomatch hclosing.symm.trans hunrouting
  | writerFails =>
      exact ⟨h.calm, h.recorded, h.overflowed, h.unrouted, fun _ => .inr (.inr rfl)⟩
  | start hinput houtput =>
      refine ⟨fun _ _ => h.calm (by rw [hinput]; rfl) (by rw [houtput]; rfl), h.recorded,
        h.overflowed, h.unrouted, fun hover => nomatch hover⟩
  | seeDone | seeClosed | takeForeign | takeClose | takeUnexpected | resizeRefused
  | resizeMalformed | completeMalformed | writeFails | resultUnencodable | completionFails
  | answerFails =>
      exact h.inputStep _ _ _ fun hlive => nomatch hlive
  | takeInput hinput | resize hinput | takeComplete hinput | written hinput
  | completed hinput | answered hinput =>
      exact h.inputStep _ _ _ fun _ => ⟨by rw [hinput]; rfl, rfl⟩
  | readChunk houtput | wrote houtput =>
      exact ⟨fun hinput _ => h.calm hinput (by rw [houtput]; rfl), h.recorded, h.overflowed,
        h.unrouted, fun hover => nomatch hover⟩
  | readEnds | readFails =>
      exact ⟨fun _ hlive => (nomatch hlive), h.recorded, h.overflowed, h.unrouted,
        fun _ => .inl rfl⟩
  | outputFails _ hinactive =>
      refine ⟨fun _ hlive => (nomatch hlive), h.recorded, h.overflowed, h.unrouted, ?_⟩
      intro _
      rcases hinactive with hcanceled | hfailed
      · exact .inr (.inl (h.recorded hcanceled))
      · exact .inr (.inr hfailed)

/-- A step that is no failure of `input_loop` under a running `output_loop`. -/
def Orderly (s : State) (a : Action) : Prop :=
  ∀ cause, a = .inputFails cause → s.output.over = true

/-- The reason of `output_loop` to end is in place. -/
def Stopped (pty : Pty) (s : State) : Prop :=
  s.input.over = true → s.output.over = false → s.Terminated pty ∨ s.done = true

theorem Stopped.step {pty : Pty} {s t : State} {a : Action} (h : Stopped pty s)
    (hok : Orderly s a) (hstep : Step pty s a t) : Stopped pty t := by
  cases hstep with
  | route | overflow | stray | cancel | unroute | sendCancel | hangUp | close
  | writerFails => exact h
  | start | takeInput | takeComplete | written | completed | answered =>
      exact fun hover => nomatch hover
  | resize hinput =>
      intro hover
      rw [hinput] at hover
      exact nomatch hover
  | seeDone _ hdone => exact fun _ _ => .inr hdone
  | seeClosed | takeForeign | takeClose | takeUnexpected =>
      exact fun _ _ => .inl (List.mem_append_right _ (kill_mem_terminatePtyGroup pty))
  | resizeRefused | resizeMalformed | completeMalformed | writeFails | resultUnencodable
  | completionFails | answerFails =>
      intro _ hlive
      rw [hok _ rfl] at hlive
      exact nomatch hlive
  | readChunk houtput | wrote houtput =>
      exact fun hover _ => h hover (by rw [houtput]; rfl)
  | readEnds | readFails | outputFails => exact fun _ hlive => nomatch hlive

/-- A failure of `input_loop` under a running `output_loop` leaves a shell alone. -/
theorem Step.not_explained {pty : Pty} {s t : State} {cause : InputFailure} (h : Inv s)
    (hlive : s.output.over = false) (hstep : Step pty s (.inputFails cause) t) :
    ¬ Explained pty t := by
  have hends : s.input.over = false ∧ t.input.over = true ∧ t.output = s.output ∧
      t.signals = s.signals ∧ t.done = s.done := by
    cases hstep with
    | resizeRefused hinput | resizeMalformed hinput | completeMalformed hinput
    | writeFails hinput | resultUnencodable hinput | completionFails hinput
    | answerFails hinput =>
        exact ⟨by rw [hinput]; rfl, rfl, rfl, rfl, rfl⟩
  obtain ⟨hinput, hover, houtput, hsignals, hdone⟩ := hends
  obtain ⟨hquiet, hundone⟩ := h.calm hinput hlive
  intro hexplained
  rcases hexplained.input hover (by rw [houtput]; exact hlive) with hterminated | htold
  · rw [State.Terminated, hsignals, hquiet] at hterminated
    exact nomatch hterminated
  · rw [hdone, hundone] at htold
    exact nomatch htold

/-- A session never dies by half, along a run in which `input_loop` does not fail on its
own while `output_loop` goes on, and along no other run. -/
theorem explained_iff_orderly (pty : Pty) {trace : List (State × Action)} {t : State}
    (hrun : (system pty).Run .initial trace t) :
    (∀ u ∈ System.visited trace t, Explained pty u) ↔ ∀ p ∈ trace, Orderly p.1 p.2 := by
  constructor
  · rintro hexplained ⟨s, a⟩ hmem cause rfl
    obtain ⟨v, hstep, hv⟩ := hrun.step_visited hmem
    have hs : s ∈ System.visited trace t :=
      List.mem_append_left _ (List.mem_map.mpr ⟨_, hmem, rfl⟩)
    have hinv : Inv s := hrun.visited_of_steps (P := Inv) (fun _ _ => True)
      (fun _ _ _ h _ hnext => h.step hnext) .initial (fun _ _ => trivial) s hs
    by_contra hlive
    exact Step.not_explained hinv (Bool.eq_false_iff.mpr hlive) hstep (hexplained v hv)
  · intro horderly u hu
    obtain ⟨hinv, hstopped⟩ := hrun.visited_of_steps
      (P := fun s => Inv s ∧ Stopped pty s) Orderly
      (fun _ _ _ h hok hnext => ⟨h.1.step hnext, h.2.step hok hnext⟩)
      ⟨.initial, fun hover => nomatch hover⟩ horderly u hu
    exact ⟨hstopped, fun hover _ => hinv.outputEnded hover, hinv.unrouted⟩

/-- A session in which a client asks what `ls /nope/` may be completed to. -/
def shell : Pty where
  streamId := 1
  pid := 4711
  pid_pos := by decide
  decodeResize _ := .error "malformed"
  decodeComplete _ := .ok ⟨"ls /nope/", 9⟩
  encodeResult _ := .ok []

def completeFrame : Frame :=
  ⟨.ptyComplete, 1, [9, 0x6c, 0x73, 0x20, 0x2f, 0x6e, 0x6f, 0x70, 0x65, 0x2f, 9]⟩

def closeFrame : Frame := ⟨.ptyClose, 1, []⟩

def unreadable : InputFailure := .completion "read completion directory /nope/"

/-- The session with both loops running. -/
def active (inbox : List Frame) (input : InputLoop) : State :=
  { State.initial with inbox := inbox, input := input, output := .reading }

def closeTrace : List (State × Action) :=
  [(.initial, .input), (active [] .waiting, .dispatcher), (active [closeFrame] .waiting, .input)]

theorem explained_iff_orderly_close :
    (∀ u ∈ System.visited closeTrace
        { active [] (.ended (.ok ())) with signals := terminatePtyGroup 4711 },
      Explained shell u) ↔ ∀ p ∈ closeTrace, Orderly p.1 p.2 :=
  explained_iff_orderly shell
    (.cons (.start rfl rfl) (.cons (.route rfl rfl rfl rfl (by decide))
      (.cons (.takeClose rfl rfl rfl rfl) (.nil _))))

/-- The directory cannot be read, and the shell goes on without a reader of its input. -/
theorem unreadable_not_explained :
    ∃ trace t, (system shell).Run .initial trace t ∧
      ∃ u ∈ System.visited trace t, ¬ Explained shell u := by
  refine ⟨[(.initial, .input), (active [] .waiting, .dispatcher),
    (active [completeFrame] .waiting, .input),
    (active [] (.completing ⟨"ls /nope/", 9⟩), .inputFails unreadable)],
    active [] (.ended (.error (.failed unreadable))), ?_, _,
    List.mem_append_right _ (List.mem_singleton_self _), ?_⟩
  · exact .cons (.start rfl rfl) (.cons (.route rfl rfl rfl rfl (by decide))
      (.cons (.takeComplete rfl rfl rfl rfl rfl) (.cons (.completionFails rfl) (.nil _))))
  · intro hexplained
    rcases hexplained.input rfl rfl with hterminated | hdone
    · exact nomatch hterminated
    · exact nomatch hdone

end SideWire.PtySession
