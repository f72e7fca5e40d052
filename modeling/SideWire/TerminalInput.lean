import SideWire.Base.Transcript
import SideWire.Base.TransitionSystem
import SideWire.PtySession

/-!
The raw terminal of a PTY client: `input_loop` of `run_pty_client`, beside the threads that
read the console and the connection it writes to.
-/

namespace SideWire.TerminalInput

open SideWire.ByteString
open SideWire.FrameCodec
open SideWire.PtySession (PtyResize)
open SideWire.Transcript
open SideWire.TransitionSystem

inductive ConsoleEvent
  | input (bytes : Bytes)
  | resize (size : PtyResize)
  | complete
  | error (message : String)
  | eof

def rawBatchBytes : Nat := 4 * 1024

def streamId : UInt32 := 0x50545901

def ptyFrame (kind : FrameKind) (payload : Bytes) : Frame := ⟨kind, streamId, payload⟩

/-- Where the loop stands: before `pending.take()` or in `recv`, before the `match` on an event,
in the loop that fills a batch, in a write, in the write of the last frame with what is
returned after it, at its end. -/
inductive Stage
  | waiting
  | handling (event : ConsoleEvent)
  | batching (bytes : Bytes)
  | writing (frame : Frame)
  | closing (result : Except String Unit)
  | ended (result : Except String Unit)

def Stage.Running : Stage → Prop
  | .ended _ => False
  | _ => True

/-- `arrived` keeps all events that were ever put into the channel, `sent` all frames that the
connection took. -/
structure State where
  arrived : List ConsoleEvent
  queue : List ConsoleEvent
  stopped : Bool
  pending : Option ConsoleEvent
  stage : Stage
  sent : List Frame

def State.initial : State := ⟨[], [], false, none, .waiting, []⟩

inductive Action
  | reads (event : ConsoleEvent)
  | stops
  | loops
  | writes
  | fails (message : String)
  | exits

/-- The steps of the loop itself, and the writes that succeed. -/
def Action.Own : Action → Prop
  | .loops | .writes => True
  | _ => False

variable (encodeResize : PtyResize → Except String Bytes)

inductive Step : State → Action → State → Prop
  -- `spawn_console_reader`
  | read {s : State} {event : ConsoleEvent} (hopen : s.stopped = false) :
      Step s (.reads event) { s with
        arrived := s.arrived ++ [event], queue := s.queue ++ [event] }
  | stop {s : State} : Step s .stops { s with stopped := true }
  -- `pending.take()` and `event_rx.recv()`
  | take {s : State} {event : ConsoleEvent} (hstage : s.stage = .waiting)
      (hpending : s.pending = some event) :
      Step s .loops { s with pending := none, stage := .handling event }
  | recv {s : State} {event : ConsoleEvent} {queue : List ConsoleEvent}
      (hstage : s.stage = .waiting) (hpending : s.pending = none)
      (hqueue : s.queue = event :: queue) :
      Step s .loops { s with queue := queue, stage := .handling event }
  | recvNone {s : State} (hstage : s.stage = .waiting) (hpending : s.pending = none)
      (hqueue : s.queue = []) (hstopped : s.stopped = true) :
      Step s .loops { s with stage := .ended (.error "terminal input reader stopped") }
  -- `match event`
  | input {s : State} {bytes : Bytes} (hstage : s.stage = .handling (.input bytes)) :
      Step s .loops { s with stage := .batching bytes }
  | resize {s : State} {size : PtyResize} {payload : Bytes}
      (hstage : s.stage = .handling (.resize size)) (hencode : encodeResize size = .ok payload) :
      Step s .loops { s with stage := .writing (ptyFrame .ptyResize payload) }
  | rejectResize {s : State} {size : PtyResize} {message : String}
      (hstage : s.stage = .handling (.resize size))
      (hencode : encodeResize size = .error message) :
      Step s .loops { s with stage := .ended (.error message) }
  | complete {s : State} (hstage : s.stage = .handling .complete) :
      Step s .loops { s with stage := .waiting }
  | error {s : State} {message : String} (hstage : s.stage = .handling (.error message)) :
      Step s .loops { s with stage := .closing (.error message) }
  | eof {s : State} (hstage : s.stage = .handling .eof) :
      Step s .loops { s with stage := .closing (.ok ()) }
  -- `while bytes.len() < RAW_BATCH_BYTES`
  | more {s : State} {bytes more : Bytes} {queue : List ConsoleEvent}
      (hstage : s.stage = .batching bytes) (hshort : bytes.length < rawBatchBytes)
      (hqueue : s.queue = .input more :: queue) :
      Step s .loops { s with queue := queue, stage := .batching (bytes ++ more) }
  | other {s : State} {bytes : Bytes} {event : ConsoleEvent} {queue : List ConsoleEvent}
      (hstage : s.stage = .batching bytes) (hshort : bytes.length < rawBatchBytes)
      (hqueue : s.queue = event :: queue) (hother : ∀ more, event ≠ .input more) :
      Step s .loops { s with
        queue := queue, pending := some event, stage := .writing (ptyFrame .ptyInput bytes) }
  | drained {s : State} {bytes : Bytes} (hstage : s.stage = .batching bytes)
      (hshort : bytes.length < rawBatchBytes) (hqueue : s.queue = []) :
      Step s .loops { s with stage := .writing (ptyFrame .ptyInput bytes) }
  | full {s : State} {bytes : Bytes} (hstage : s.stage = .batching bytes)
      (hfull : ¬ bytes.length < rawBatchBytes) :
      Step s .loops { s with stage := .writing (ptyFrame .ptyInput bytes) }
  -- `write_raw_frame` and `write_frame`
  | refuse {s : State} {frame : Frame} {message : String} (hstage : s.stage = .writing frame)
      (hheader : frameHeader currentBuild frame.kind frame.streamId frame.payload.length =
        .error message) :
      Step s .loops { s with stage := .ended (.error message) }
  | write {s : State} {frame : Frame} {header : Bytes} (hstage : s.stage = .writing frame)
      (hheader : frameHeader currentBuild frame.kind frame.streamId frame.payload.length =
        .ok header) :
      Step s .writes { s with stage := .waiting, sent := s.sent ++ [frame] }
  | writeFails {s : State} {frame : Frame} {message : String}
      (hstage : s.stage = .writing frame) :
      Step s (.fails message) { s with stage := .ended (.error message) }
  | close {s : State} {result : Except String Unit} (hstage : s.stage = .closing result) :
      Step s .writes { s with
        stage := .ended result, sent := s.sent ++ [ptyFrame .ptyClose []] }
  | closeFails {s : State} {result : Except String Unit} {message : String}
      (hstage : s.stage = .closing result) :
      Step s (.fails message) { s with
        stage := .ended (result.bind fun _ => .error message) }
  -- `select!`, when `output_loop` is first to return
  | exit {s : State} {result : Except String Unit} (hrunning : s.stage.Running) :
      Step s .exits { s with stage := .ended result }

def inputLoop : System State Action where
  init s := s = .initial
  step := Step encodeResize

/-! What the events ask for and what the frames bring, one byte or one order at a time. -/

/-- A resize is told by its payload. -/
inductive Item
  | byte (value : UInt8)
  | resize (payload : Except String Bytes)
  | close

def Item.byte? : Item → Option UInt8
  | .byte value => some value
  | _ => none

def eventItems : ConsoleEvent → List Item
  | .input bytes => bytes.map .byte
  | .resize size => [.resize (encodeResize size)]
  | .complete => []
  | .error _ | .eof => [.close]

def frameItems (frame : Frame) : List Item :=
  match frame.kind with
  | .ptyInput => frame.payload.map .byte
  | .ptyResize => [.resize (.ok frame.payload)]
  | .ptyClose => [.close]
  | _ => []

def ConsoleEvent.bytes : ConsoleEvent → Bytes
  | .input bytes => bytes
  | _ => []

/-- What the loop has taken from the channel and not yet sent. -/
def Stage.items : Stage → List Item
  | .waiting | .ended _ => []
  | .handling event => eventItems encodeResize event
  | .batching bytes => bytes.map .byte
  | .writing frame => frameItems frame
  | .closing _ => [.close]

/-- The loop has come to the events `taken`: all of them are sent or held, unless it has ended,
and the others wait in their order. -/
structure Relays (s : State) (taken : List ConsoleEvent) : Prop where
  arrived : s.arrived = taken ++ (s.pending.toList ++ s.queue)
  behind : s.sent.flatMap frameItems <+: taken.flatMap (eventItems encodeResize)
  held : s.stage.Running → s.sent.flatMap frameItems ++ s.stage.items encodeResize =
    taken.flatMap (eventItems encodeResize)

/-- A frame that leaves the loop running. -/
def Ordinary (frame : Frame) : Prop :=
  frame.streamId = streamId ∧ (frame.kind = .ptyInput ∨ frame.kind = .ptyResize)

/-- The frame that closes the terminal is the last one. -/
def ClosesLast (s : State) : Prop :=
  (∀ frame ∈ s.sent, Ordinary frame) ∨
    ∃ front, s.sent = front ++ [ptyFrame .ptyClose []] ∧ (∀ frame ∈ front, Ordinary frame) ∧
      ¬ s.stage.Running

/-- Stages in which an event that was put aside would be overwritten. -/
def Stage.Taking : Stage → Prop
  | .handling _ | .batching _ => True
  | _ => False

structure Inv (s : State) : Prop where
  relays : ∃ taken, Relays encodeResize s taken
  single : s.stage.Taking → s.pending = none
  writing : ∀ frame, s.stage = .writing frame → Ordinary frame
  closesLast : ClosesLast s

section Steps

variable {encodeResize} {s t : State} {a : Action} {taken : List ConsoleEvent} {stage : Stage}

theorem Relays.of_held (harrived : s.arrived = taken ++ (s.pending.toList ++ s.queue))
    (hheld : s.sent.flatMap frameItems ++ s.stage.items encodeResize =
      taken.flatMap (eventItems encodeResize)) : Relays encodeResize s taken where
  arrived := harrived
  behind := ⟨_, hheld⟩
  held _ := hheld

theorem Relays.turn (h : Relays encodeResize s taken) (hrunning : s.stage.Running)
    (hitems : stage.items encodeResize = s.stage.items encodeResize) :
    Relays encodeResize { s with stage := stage } taken where
  arrived := h.arrived
  behind := h.behind
  held _ := by
    rw [hitems]
    exact h.held hrunning

theorem Relays.ends (h : Relays encodeResize s taken) (result : Except String Unit) :
    Relays encodeResize { s with stage := .ended result } taken where
  arrived := h.arrived
  behind := h.behind
  held hrunning := hrunning.elim

theorem ClosesLast.ordinary (h : ClosesLast s) (hrunning : s.stage.Running) :
    ∀ frame ∈ s.sent, Ordinary frame := by
  rcases h with hordinary | ⟨front, hsent, hfront, hended⟩
  · exact hordinary
  · exact absurd hrunning hended

theorem Relays.takes (h : Relays encodeResize s taken) (event : ConsoleEvent)
    (rest : List ConsoleEvent)
    (hrunning : s.stage.Running) (hwaiting : t.pending.toList ++ t.queue = rest)
    (hnext : s.pending.toList ++ s.queue = event :: rest) (harrived : t.arrived = s.arrived)
    (hsent : t.sent = s.sent)
    (hitems : t.stage.items encodeResize =
      s.stage.items encodeResize ++ eventItems encodeResize event) :
    Relays encodeResize t (taken ++ [event]) := by
  apply Relays.of_held
  · rw [harrived, h.arrived, hnext, hwaiting, List.append_assoc, List.singleton_append]
  · rw [hsent, hitems, ← List.append_assoc, h.held hrunning, List.flatMap_append,
      List.flatMap_singleton]

theorem items_ptyFrame_input (bytes : Bytes) :
    frameItems (ptyFrame .ptyInput bytes) = bytes.map .byte := rfl

theorem Relays.step (h : Relays encodeResize s taken) (hsingle : s.stage.Taking → s.pending = none)
    (hstep : Step encodeResize s a t) : ∃ taken, Relays encodeResize t taken := by
  cases hstep with
  | read hopen =>
      refine ⟨taken, ?_, h.behind, h.held⟩
      rw [h.arrived]
      simp
  | stop => exact ⟨taken, h.arrived, h.behind, h.held⟩
  | @take event hstage hpending =>
      refine ⟨_, h.takes event s.queue ?_ ?_ ?_ ?_ ?_ ?_⟩ <;>
        simp [hstage, hpending, Stage.items, Stage.Running]
  | @recv event queue hstage hpending hqueue =>
      refine ⟨_, h.takes event queue ?_ ?_ ?_ ?_ ?_ ?_⟩ <;>
        simp [hstage, hpending, hqueue, Stage.items, Stage.Running]
  | recvNone hstage hpending hqueue hstopped => exact ⟨taken, h.ends _⟩
  | input hstage | complete hstage | error hstage | eof hstage =>
      exact ⟨taken, h.turn (by simp [hstage, Stage.Running])
        (by simp [hstage, Stage.items, eventItems])⟩
  | resize hstage hencode =>
      exact ⟨taken, h.turn (by simp [hstage, Stage.Running])
        (by simp [hstage, hencode, Stage.items, eventItems, frameItems, ptyFrame])⟩
  | rejectResize hstage hencode => exact ⟨taken, h.ends _⟩
  | @more bytes more queue hstage hshort hqueue =>
      have hpending := hsingle (by simp [hstage, Stage.Taking])
      refine ⟨_, h.takes (.input more) queue ?_ ?_ ?_ ?_ ?_ ?_⟩ <;>
        simp [hstage, hpending, hqueue, Stage.items, eventItems, Stage.Running]
  | @other bytes event queue hstage hshort hqueue hother =>
      have hpending := hsingle (by simp [hstage, Stage.Taking])
      refine ⟨taken, Relays.of_held ?_ ?_⟩
      · have harrived := h.arrived
        simpa [hpending, hqueue] using harrived
      · have hheld := h.held (by simp [hstage, Stage.Running])
        simpa [hstage, Stage.items, items_ptyFrame_input] using hheld
  | drained hstage | full hstage =>
      exact ⟨taken, h.turn (by simp [hstage, Stage.Running])
        (by simp [hstage, Stage.items, items_ptyFrame_input])⟩
  | refuse hstage hheader => exact ⟨taken, h.ends _⟩
  | write hstage hheader =>
      refine ⟨taken, Relays.of_held h.arrived ?_⟩
      have hheld := h.held (by simp [hstage, Stage.Running])
      simpa [hstage, Stage.items] using hheld
  | writeFails hstage => exact ⟨taken, h.ends _⟩
  | close hstage =>
      refine ⟨taken, Relays.of_held h.arrived ?_⟩
      have hheld := h.held (by simp [hstage, Stage.Running])
      simpa [hstage, Stage.items, frameItems, ptyFrame] using hheld
  | closeFails hstage => exact ⟨taken, h.ends _⟩
  | exit hrunning => exact ⟨taken, h.ends _⟩

theorem ClosesLast.step (h : ClosesLast s)
    (hwriting : ∀ frame, s.stage = .writing frame → Ordinary frame)
    (hstep : Step encodeResize s a t) : ClosesLast t := by
  cases hstep with
  | read | stop => exact h
  | @write frame header hstage hheader =>
      left
      have hordinary := h.ordinary (by simp [hstage, Stage.Running])
      exact List.forall_mem_append.mpr
        ⟨hordinary, List.forall_mem_singleton.mpr (hwriting frame hstage)⟩
  | close hstage =>
      right
      exact ⟨s.sent, rfl, h.ordinary (by simp [hstage, Stage.Running]), id⟩
  | exit hrunning => exact .inl (h.ordinary hrunning)
  | take hstage | recv hstage | recvNone hstage | input hstage | resize hstage
  | rejectResize hstage | complete hstage | error hstage | eof hstage | more hstage
  | other hstage | drained hstage | full hstage | refuse hstage | writeFails hstage
  | closeFails hstage => exact .inl (h.ordinary (by simp [hstage, Stage.Running]))

theorem Inv.step (h : Inv encodeResize s) (hstep : Step encodeResize s a t) :
    Inv encodeResize t where
  relays := by
    obtain ⟨taken, htaken⟩ := h.relays
    exact htaken.step h.single hstep
  single := by
    cases hstep with
    | read | stop => exact h.single
    | take | recv => simp_all
    | input hstage | more hstage => exact fun _ => h.single (by simp [hstage, Stage.Taking])
    | _ => exact False.elim
  writing := by
    cases hstep with
    | read | stop => exact h.writing
    | resize | other | drained | full =>
        rintro frame hframe
        obtain rfl := Stage.writing.inj hframe
        simp [Ordinary, ptyFrame]
    | _ => exact nofun
  closesLast := h.closesLast.step h.writing hstep

theorem Inv.initial : Inv encodeResize .initial where
  relays := ⟨[], rfl, List.prefix_rfl, fun _ => rfl⟩
  single _ := rfl
  writing := nofun
  closesLast := .inl nofun

theorem Inv.of_reachable (h : (inputLoop encodeResize).Reachable s) : Inv encodeResize s :=
  h.invariant (fun _ hs => hs ▸ .initial) fun _ _ _ hs hstep => hs.step hstep

end Steps

/-- The loop waits for the next event. -/
def State.Idle (s : State) : Prop := s.stage = .waiting ∧ s.pending = none ∧ s.queue = []

def ConsoleEvent.Closes : ConsoleEvent → Prop
  | .error _ | .eof => True
  | _ => False

/-- The terminal is closed behind everything that came before the event that closes it. -/
def State.Closed (s : State) : Prop :=
  ∃ before event after front, s.arrived = before ++ event :: after ∧ event.Closes ∧
    (∀ earlier ∈ before, ¬ earlier.Closes) ∧ s.sent = front ++ [ptyFrame .ptyClose []] ∧
    front.flatMap frameItems = before.flatMap (eventItems encodeResize)

/-- Two resizes and the input between them, as events and as frames. -/
structure Carries (frames : Stretch Frame) (events : Stretch ConsoleEvent) : Prop where
  place : frames.before.flatMap frameItems = events.before.flatMap (eventItems encodeResize)
  first : ∃ size, events.first = .resize size ∧
    (encodeResize size).map (ptyFrame .ptyResize) = .ok frames.first
  second : ∃ size, events.second = .resize size ∧
    (encodeResize size).map (ptyFrame .ptyResize) = .ok frames.second
  inputs : ∀ frame ∈ frames.between, frame.kind = .ptyInput
  consecutive : ∀ event ∈ events.between, ∀ size, event ≠ .resize size
  typed : frames.between.flatMap Frame.payload = events.between.flatMap ConsoleEvent.bytes

section Reading

variable {encodeResize} {s t : State} {a : Action}

theorem relayed (h : (inputLoop encodeResize).Reachable s) :
    s.sent.flatMap frameItems <+: s.arrived.flatMap (eventItems encodeResize) := by
  obtain ⟨taken, htaken⟩ := (Inv.of_reachable h).relays
  rw [htaken.arrived, List.flatMap_append]
  exact htaken.behind.trans (List.prefix_append _ _)

theorem delivered (h : (inputLoop encodeResize).Reachable s) (hidle : s.Idle) :
    s.sent.flatMap frameItems = s.arrived.flatMap (eventItems encodeResize) := by
  obtain ⟨taken, htaken⟩ := (Inv.of_reachable h).relays
  obtain ⟨hstage, hpending, hqueue⟩ := hidle
  have hheld := htaken.held (by simp [hstage, Stage.Running])
  have harrived := htaken.arrived
  simp only [hstage, Stage.items, List.append_nil] at hheld
  simp only [hpending, hqueue, Option.toList_none, List.append_nil] at harrived
  rw [hheld, harrived]

theorem eq_of_ordinary {frame : Frame} (h : Ordinary frame) :
    frame = ptyFrame .ptyInput frame.payload ∨ frame = ptyFrame .ptyResize frame.payload := by
  obtain ⟨kind, stream, payload⟩ := frame
  obtain ⟨rfl, rfl | rfl⟩ := h
  · exact .inl rfl
  · exact .inr rfl

theorem resize_notMem_of_input {frame : Frame} (h : frame.kind = .ptyInput)
    (payload : Except String Bytes) : .resize payload ∉ frameItems frame := by
  simp [frameItems, h]

theorem close_notMem_of_ordinary {frame : Frame} (h : Ordinary frame) :
    .close ∉ frameItems frame := by
  rcases eq_of_ordinary h with heq | heq <;> rw [heq] <;> simp [frameItems, ptyFrame]

theorem event_of_resize {event : ConsoleEvent} {payload : Except String Bytes}
    (h : .resize payload ∈ eventItems encodeResize event) :
    ∃ size, event = .resize size ∧ encodeResize size = payload := by
  cases event <;> simp_all [eventItems]

theorem event_of_close {event : ConsoleEvent} :
    .close ∈ eventItems encodeResize event ↔ event.Closes := by
  cases event <;> simp [eventItems, ConsoleEvent.Closes]

theorem bytes_of_events (events : List ConsoleEvent) :
    (events.flatMap (eventItems encodeResize)).filterMap Item.byte? =
      events.flatMap ConsoleEvent.bytes := by
  rw [List.filterMap_flatMap]
  congr 1
  funext event
  cases event <;> simp [eventItems, Item.byte?, ConsoleEvent.bytes, Function.comp_def]

theorem bytes_of_inputs {frames : List Frame} (h : ∀ frame ∈ frames, frame.kind = .ptyInput) :
    (frames.flatMap frameItems).filterMap Item.byte? = frames.flatMap Frame.payload := by
  rw [List.filterMap_flatMap]
  apply List.flatMap_congr
  intro frame hframe
  simp [frameItems, h frame hframe, Item.byte?, Function.comp_def]

theorem alone_eventItems_resize (payload : Except String Bytes) :
    Alone (eventItems encodeResize) (.resize payload) := by
  intro event hmem
  cases event <;> simp_all [eventItems]

theorem alone_eventItems_close : Alone (eventItems encodeResize) .close := by
  intro event hmem
  cases event <;> simp_all [eventItems]

theorem alone_frameItems_resize (payload : Except String Bytes) :
    Alone frameItems (.resize payload) := by
  intro frame hmem
  unfold frameItems at hmem ⊢
  split at hmem <;> simp_all

theorem resize_of_items {frame : Frame} {event : ConsoleEvent} (hstream : frame.streamId = streamId)
    (hkind : frame.kind = .ptyResize)
    (h : frameItems frame = eventItems encodeResize event) :
    ∃ size, event = .resize size ∧
      (encodeResize size).map (ptyFrame .ptyResize) = .ok frame := by
  obtain ⟨kind, stream, payload⟩ := frame
  obtain rfl : kind = .ptyResize := hkind
  obtain rfl : stream = streamId := hstream
  have hmem : .resize (.ok payload) ∈ eventItems encodeResize event := by
    rw [← h]
    simp [frameItems]
  obtain ⟨size, rfl, hencode⟩ := event_of_resize hmem
  exact ⟨size, rfl, by rw [hencode]; rfl⟩

theorem Carries.of_items {frames : Stretch Frame} {events : Stretch ConsoleEvent}
    (hstream : ∀ frame ∈ frames.whole, frame.streamId = streamId)
    (hfirst : frames.first.kind = .ptyResize) (hsecond : frames.second.kind = .ptyResize)
    (hinputs : ∀ frame ∈ frames.between, frame.kind = .ptyInput)
    (hplace : frames.before.flatMap frameItems = events.before.flatMap (eventItems encodeResize))
    (hfirstItems : frameItems frames.first = eventItems encodeResize events.first)
    (hbetween : frames.between.flatMap frameItems =
      events.between.flatMap (eventItems encodeResize))
    (hsecondItems : frameItems frames.second = eventItems encodeResize events.second) :
    Carries encodeResize frames events where
  place := hplace
  first := resize_of_items (hstream _ (by simp [Stretch.whole])) hfirst hfirstItems
  second := resize_of_items (hstream _ (by simp [Stretch.whole])) hsecond hsecondItems
  inputs := hinputs
  consecutive := by
    rintro event hevent size rfl
    have hmem : .resize (encodeResize size) ∈
        events.between.flatMap (eventItems encodeResize) :=
      List.mem_flatMap.mpr ⟨_, hevent, by simp [eventItems]⟩
    rw [← hbetween] at hmem
    obtain ⟨frame, hframe, hitem⟩ := List.mem_flatMap.mp hmem
    exact resize_notMem_of_input (hinputs frame hframe) _ hitem
  typed := by rw [← bytes_of_inputs hinputs, hbetween, bytes_of_events]

theorem streamId_of_sent (h : ClosesLast s) : ∀ frame ∈ s.sent, frame.streamId = streamId := by
  rcases h with hordinary | ⟨front, hsent, hfront, -⟩
  · exact fun frame hframe => (hordinary frame hframe).1
  · rw [hsent]
    exact List.forall_mem_append.mpr
      ⟨fun frame hframe => (hfront frame hframe).1, List.forall_mem_singleton.mpr rfl⟩

/-- Between two resizes nothing is sent but what was typed there. -/
theorem events_of_frames (h : (inputLoop encodeResize).Reachable s) {frames : Stretch Frame}
    (hsent : s.sent = frames.whole) (hfirst : frames.first.kind = .ptyResize)
    (hsecond : frames.second.kind = .ptyResize)
    (hinputs : ∀ frame ∈ frames.between, frame.kind = .ptyInput) :
    ∃ events : Stretch ConsoleEvent, s.arrived = events.whole ∧
      Carries encodeResize frames events := by
  have hrelayed := relayed h
  rw [hsent] at hrelayed
  have hfirst' : frameItems frames.first = [.resize (.ok frames.first.payload)] := by
    simp [frameItems, hfirst]
  have hsecond' : frameItems frames.second = [.resize (.ok frames.second.payload)] := by
    simp [frameItems, hsecond]
  obtain ⟨events, harrived, hbefore, hfirst'', hbetween, hsecond''⟩ :=
    exists_stretch hrelayed hfirst' hsecond' (alone_eventItems_resize _)
      (alone_eventItems_resize _)
  refine ⟨events, harrived, Carries.of_items ?_ hfirst hsecond hinputs hbefore.symm
    (hfirst'.trans hfirst''.symm) hbetween.symm (hsecond'.trans hsecond''.symm)⟩
  rw [← hsent]
  exact streamId_of_sent (Inv.of_reachable h).closesLast

/-- Once the loop waits, what was typed between two resizes is sent between theirs. -/
theorem frames_of_events (h : (inputLoop encodeResize).Reachable s) (hidle : s.Idle)
    {events : Stretch ConsoleEvent} {size size' : PtyResize} (harrived : s.arrived = events.whole)
    (hfirst : events.first = .resize size) (hsecond : events.second = .resize size')
    (hconsecutive : ∀ event ∈ events.between, ∀ size, event ≠ .resize size) :
    ∃ frames : Stretch Frame, s.sent = frames.whole ∧ Carries encodeResize frames events := by
  have hdelivered : events.whole.flatMap (eventItems encodeResize) <+:
      s.sent.flatMap frameItems := by
    rw [← harrived, delivered h hidle]
  have hfirst' : eventItems encodeResize events.first = [.resize (encodeResize size)] := by
    simp [eventItems, hfirst]
  have hsecond' : eventItems encodeResize events.second = [.resize (encodeResize size')] := by
    simp [eventItems, hsecond]
  obtain ⟨frames, hsent, hbefore, hfirst'', hbetween, hsecond''⟩ :=
    exists_stretch hdelivered hfirst' hsecond' (alone_frameItems_resize _)
      (alone_frameItems_resize _)
  have hordinary : ∀ frame ∈ frames.whole, Ordinary frame := by
    rw [← hsent]
    exact (Inv.of_reachable h).closesLast.ordinary (by simp [hidle.1, Stage.Running])
  have hresize {frame : Frame} {payload : Except String Bytes} (hmem : frame ∈ frames.whole)
      (hitems : frameItems frame = [.resize payload]) : frame.kind = .ptyResize := by
    rcases (hordinary frame hmem).2 with hinput | hresize
    · exact absurd (by simp [hitems]) (resize_notMem_of_input hinput payload)
    · exact hresize
  have hinputs : ∀ frame ∈ frames.between, frame.kind = .ptyInput := by
    intro frame hframe
    rcases (hordinary frame (by simp [Stretch.whole, hframe])).2 with hinput | hresize
    · exact hinput
    · have hmem : .resize (.ok frame.payload) ∈ frames.between.flatMap frameItems :=
        List.mem_flatMap.mpr ⟨frame, hframe, by simp [frameItems, hresize]⟩
      rw [hbetween] at hmem
      obtain ⟨event, hevent, hitem⟩ := List.mem_flatMap.mp hmem
      obtain ⟨size, rfl, -⟩ := event_of_resize hitem
      exact absurd rfl (hconsecutive _ hevent size)
  exact ⟨frames, hsent, Carries.of_items (fun frame hframe => (hordinary frame hframe).1)
    (hresize (by simp [Stretch.whole]) hfirst'') (hresize (by simp [Stretch.whole]) hsecond'')
    hinputs hbefore (hfirst''.trans hfirst'.symm) hbetween (hsecond''.trans hsecond'.symm)⟩

theorem closed_of_sent (h : (inputLoop encodeResize).Reachable s)
    (hclose : ∃ frame ∈ s.sent, frame.kind = .ptyClose) : s.Closed encodeResize := by
  obtain ⟨frame, hframe, hkind⟩ := hclose
  rcases (Inv.of_reachable h).closesLast with hordinary | ⟨front, hsent, hfront, -⟩
  · rcases eq_of_ordinary (hordinary frame hframe) with heq | heq <;>
      exact nomatch hkind.symm.trans (congrArg Frame.kind heq)
  · have hrelayed := relayed h
    rw [hsent] at hrelayed
    obtain ⟨before, event, after, harrived, hbefore, hevent, -⟩ :=
      exists_split hrelayed rfl alone_eventItems_close
    have hcloses : .close ∈ eventItems encodeResize event := by simp [hevent]
    refine ⟨before, event, after, front, harrived, event_of_close.mp hcloses, ?_, hsent,
      hbefore.symm⟩
    intro earlier hearlier hcloses
    have hmem : .close ∈ before.flatMap (eventItems encodeResize) :=
      List.mem_flatMap.mpr ⟨earlier, hearlier, event_of_close.mpr hcloses⟩
    rw [hbefore] at hmem
    obtain ⟨frame, hframe, hitem⟩ := List.mem_flatMap.mp hmem
    exact close_notMem_of_ordinary (hfront frame hframe) hitem

end Reading

/-- An event whose frames the codec takes, whatever input is batched before it. The readers of
the console hand over no more than 1024 bytes at a time. -/
def Sendable : ConsoleEvent → Prop
  | .input bytes => rawBatchBytes + bytes.length ≤ maxPayload
  | .resize size => ∃ payload, encodeResize size = .ok payload ∧ payload.length ≤ maxPayload
  | _ => True

/-- What the loop holds can be sent. -/
def Stage.Fits : Stage → Prop
  | .handling event => Sendable encodeResize event
  | .batching bytes => bytes.length ≤ maxPayload
  | .writing frame => frame.payload.length ≤ maxPayload
  | _ => True

/-- The steps that the loop still has to take for what it holds. -/
def Stage.left : Stage → Nat
  | .handling _ => 3
  | .batching _ => 2
  | .writing _ | .closing _ => 1
  | _ => 0

/-- What is left to do with the events that are there. -/
def State.work (s : State) : Nat := 4 * (s.pending.toList ++ s.queue).length + s.stage.left

section Progress

variable {encodeResize} {s t : State} {a : Action}

theorem fits_step (hinv : Inv encodeResize s)
    (hfits : (∀ event ∈ s.arrived, Sendable encodeResize event) → s.stage.Fits encodeResize)
    (hstep : Step encodeResize s a t)
    (hsendable : ∀ event ∈ t.arrived, Sendable encodeResize event) :
    t.stage.Fits encodeResize := by
  obtain ⟨taken, htaken⟩ := hinv.relays
  have harrived := htaken.arrived
  cases hstep with
  | read hopen => exact hfits fun event hevent => hsendable event (by simp [hevent])
  | stop => exact hfits hsendable
  | @take event hstage hpending => exact hsendable event (by simp [harrived, hpending])
  | @recv event queue hstage hpending hqueue =>
      exact hsendable event (by simp [harrived, hqueue])
  | @input bytes hstage =>
      have hbytes := hfits hsendable
      simp only [hstage, Stage.Fits, Sendable] at hbytes ⊢
      omega
  | @resize size payload hstage hencode =>
      have hsize := hfits hsendable
      simp only [hstage, Stage.Fits, Sendable] at hsize
      obtain ⟨payload', hencode', hle⟩ := hsize
      obtain rfl := Except.ok.inj (hencode.symm.trans hencode')
      exact hle
  | @more bytes more queue hstage hshort hqueue =>
      have hmore : Sendable encodeResize (.input more) :=
        hsendable _ (by simp [harrived, hqueue])
      simp only [Sendable, Stage.Fits, List.length_append] at hmore ⊢
      omega
  | other hstage | drained hstage | full hstage =>
      have hbytes := hfits hsendable
      simpa [hstage, Stage.Fits, ptyFrame] using hbytes
  | _ => trivial

theorem fits_of_reachable (h : (inputLoop encodeResize).Reachable s)
    (hsendable : ∀ event ∈ s.arrived, Sendable encodeResize event) :
    s.stage.Fits encodeResize := by
  revert hsendable
  exact h.invariant_of (P := Inv encodeResize) (fun _ => Inv.of_reachable)
    (fun _ hs _ => hs ▸ trivial) fun _ _ _ hinv hfits hstep => fits_step hinv hfits hstep

theorem header_of_fits {frame : Frame} (h : frame.payload.length ≤ maxPayload) :
    ∃ header, frameHeader currentBuild frame.kind frame.streamId frame.payload.length =
      .ok header :=
  ⟨_, frameHeader_eq_ok_iff.mpr ⟨h, rfl⟩⟩

/-- The loop can go on by itself, with less left to do after it or with the terminal closed. -/
def Goes (encodeResize : PtyResize → Except String Bytes) (s : State) : Prop :=
  ∃ a t, a.Own ∧ Step encodeResize s a t ∧ t.arrived = s.arrived ∧
    ((∃ frame ∈ t.sent, frame.kind = .ptyClose) ∨ t.stage.Running ∧ t.work < s.work)

theorem Goes.turn {stage : Stage} (hstep : Step encodeResize s .loops { s with stage := stage })
    (hrunning : stage.Running) (hleft : stage.left < s.stage.left) : Goes encodeResize s :=
  ⟨.loops, _, trivial, hstep, rfl, .inr ⟨hrunning, Nat.add_lt_add_left hleft _⟩⟩

theorem goes_of_waiting (hstage : s.stage = .waiting) (hbusy : ¬ s.Idle) :
    Goes encodeResize s := by
  cases hpending : s.pending with
  | some event =>
      refine ⟨.loops, _, trivial, .take hstage hpending, rfl, .inr ⟨trivial, ?_⟩⟩
      simp only [State.work, hstage, hpending, Stage.left, Option.toList_some,
        Option.toList_none, List.length_append, List.length_cons, List.length_nil]
      omega
  | none =>
      cases hqueue : s.queue with
      | nil => exact absurd ⟨hstage, hpending, hqueue⟩ hbusy
      | cons event queue =>
          refine ⟨.loops, _, trivial, .recv hstage hpending hqueue, rfl, .inr ⟨trivial, ?_⟩⟩
          simp only [State.work, hstage, hpending, hqueue, Stage.left, Option.toList_none,
            List.nil_append, List.length_cons]
          omega

theorem goes_of_handling {event : ConsoleEvent} (hstage : s.stage = .handling event)
    (hsendable : Sendable encodeResize event) : Goes encodeResize s := by
  cases event with
  | input bytes => exact .turn (.input hstage) trivial (by simp [hstage, Stage.left])
  | resize size =>
      obtain ⟨payload, hencode, -⟩ := hsendable
      exact .turn (.resize hstage hencode) trivial (by simp [hstage, Stage.left])
  | complete => exact .turn (.complete hstage) trivial (by simp [hstage, Stage.left])
  | error message => exact .turn (.error hstage) trivial (by simp [hstage, Stage.left])
  | eof => exact .turn (.eof hstage) trivial (by simp [hstage, Stage.left])

theorem goes_of_batching {bytes : Bytes} (hstage : s.stage = .batching bytes)
    (hpending : s.pending = none) : Goes encodeResize s := by
  by_cases hshort : bytes.length < rawBatchBytes
  · cases hqueue : s.queue with
    | nil => exact .turn (.drained hstage hshort hqueue) trivial (by simp [hstage, Stage.left])
    | cons event queue =>
        by_cases hinput : ∃ more, event = .input more
        · obtain ⟨more, rfl⟩ := hinput
          refine ⟨.loops, _, trivial, .more hstage hshort hqueue, rfl, .inr ⟨trivial, ?_⟩⟩
          simp [State.work, hstage, hqueue, Stage.left]
        · refine ⟨.loops, _, trivial, .other hstage hshort hqueue
            fun more heq => hinput ⟨more, heq⟩, rfl, .inr ⟨trivial, ?_⟩⟩
          simp [State.work, hstage, hpending, hqueue, Stage.left]
  · exact .turn (.full hstage hshort) trivial (by simp [hstage, Stage.left])

theorem goes (hinv : Inv encodeResize s) (hrunning : s.stage.Running)
    (hfits : s.stage.Fits encodeResize) (hbusy : ¬ s.Idle) : Goes encodeResize s := by
  cases hstage : s.stage with
  | waiting => exact goes_of_waiting hstage hbusy
  | handling event =>
      rw [hstage] at hfits
      exact goes_of_handling hstage hfits
  | batching bytes =>
      exact goes_of_batching hstage (hinv.single (by simp [hstage, Stage.Taking]))
  | writing frame =>
      rw [hstage] at hfits
      obtain ⟨header, hheader⟩ := header_of_fits hfits
      refine ⟨.writes, _, trivial, .write hstage hheader, rfl, .inr ⟨trivial, ?_⟩⟩
      simp [State.work, hstage, Stage.left]
  | closing result =>
      exact ⟨.writes, _, trivial, .close hstage, rfl,
        .inl ⟨ptyFrame .ptyClose [], by simp, rfl⟩⟩
  | ended result =>
      rw [hstage] at hrunning
      exact hrunning.elim

theorem settles (h : (inputLoop encodeResize).Reachable s) (hrunning : s.stage.Running)
    (hsendable : ∀ event ∈ s.arrived, Sendable encodeResize event) :
    ∃ t, (inputLoop encodeResize).LeadsBy Action.Own s t ∧ t.arrived = s.arrived ∧
      (t.Idle ∨ ∃ frame ∈ t.sent, frame.kind = .ptyClose) := by
  induction hwork : s.work using Nat.strong_induction_on generalizing s with
  | _ work ih =>
      by_cases hidle : s.Idle
      · exact ⟨s, .refl, rfl, .inl hidle⟩
      · obtain ⟨a, t, hown, hstep, harrived, hclosed | ⟨hrunning', hless⟩⟩ :=
          goes (Inv.of_reachable h) hrunning (fits_of_reachable h hsendable) hidle
        · exact ⟨t, .head hown hstep .refl, harrived, .inr hclosed⟩
        · obtain ⟨u, hleads, harrived', hsettled⟩ :=
            ih t.work (hwork ▸ hless) (h.leads (.single hstep)) hrunning'
              (harrived ▸ hsendable) rfl
          exact ⟨u, .head hown hstep hleads, harrived'.trans harrived, hsettled⟩

end Progress

/-- Terminal input is forwarded as it was typed, in whatever order events come and the loop and
the connection get on: no byte and no resize is lost, sent twice or moved, and the terminal is
closed behind all that came before the error. What is there is sent without anything more being
typed, while the writes succeed. -/
theorem inputLoop_forwards {s : State} (h : (inputLoop encodeResize).Reachable s) :
    s.sent.flatMap frameItems <+: s.arrived.flatMap (eventItems encodeResize) ∧
      (s.Idle → s.sent.flatMap frameItems = s.arrived.flatMap (eventItems encodeResize)) ∧
      (∀ frames : Stretch Frame, s.sent = frames.whole → frames.first.kind = .ptyResize →
        frames.second.kind = .ptyResize →
        (∀ frame ∈ frames.between, frame.kind = .ptyInput) →
        ∃ events : Stretch ConsoleEvent, s.arrived = events.whole ∧
          Carries encodeResize frames events) ∧
      (s.Idle → ∀ (events : Stretch ConsoleEvent) (size size' : PtyResize),
        s.arrived = events.whole → events.first = .resize size →
        events.second = .resize size' →
        (∀ event ∈ events.between, ∀ size, event ≠ .resize size) →
        ∃ frames : Stretch Frame, s.sent = frames.whole ∧
          Carries encodeResize frames events) ∧
      ((∃ frame ∈ s.sent, frame.kind = .ptyClose) → s.Closed encodeResize) ∧
      (s.stage.Running → (∀ event ∈ s.arrived, Sendable encodeResize event) →
        ∃ t, (inputLoop encodeResize).LeadsBy Action.Own s t ∧ t.arrived = s.arrived ∧
          (t.sent.flatMap frameItems = s.arrived.flatMap (eventItems encodeResize) ∨
            t.Closed encodeResize)) := by
  refine ⟨relayed h, delivered h, ?_, ?_, closed_of_sent h, ?_⟩
  · intro frames hsent hfirst hsecond hinputs
    exact events_of_frames h hsent hfirst hsecond hinputs
  · intro hidle events size size' harrived hfirst hsecond hconsecutive
    exact frames_of_events h hidle harrived hfirst hsecond hconsecutive
  · intro hrunning hsendable
    obtain ⟨t, hleads, harrived, hsettled⟩ := settles h hrunning hsendable
    have ht := h.leads hleads.leads
    refine ⟨t, hleads, harrived, hsettled.imp (fun hidle => ?_) (closed_of_sent ht)⟩
    rw [← harrived]
    exact delivered ht hidle

/-- The encoding of a size whose numbers each take a single byte. -/
def smallSize (size : PtyResize) : Except String Bytes :=
  .ok [size.cols.toUInt8, size.rows.toUInt8]

/-- A line is typed around a resize, and the terminal fails before the rest of it is sent. -/
def typed : State where
  arrived := [.input [0x6c], .resize ⟨80, 24⟩, .input [0x73], .error "stdin read failed"]
  queue := []
  stopped := false
  pending := some (.error "stdin read failed")
  stage := .writing (ptyFrame .ptyInput [0x73])
  sent := [ptyFrame .ptyInput [0x6c], ptyFrame .ptyResize [80, 24]]

theorem reachable_typed : (inputLoop smallSize).Reachable typed := by
  refine ⟨.initial, rfl, ?_⟩
  exact System.Leads.head (.read rfl) <| System.Leads.head (.read rfl) <|
    System.Leads.head (.read rfl) <| System.Leads.head (.read rfl) <|
    -- the resize is put aside while the first letter is sent
    System.Leads.head (.recv rfl rfl rfl) <| System.Leads.head (.input rfl) <|
    System.Leads.head
      (@Step.other _ _ [0x6c] (.resize ⟨80, 24⟩) _ rfl (by decide) rfl nofun) <|
    System.Leads.head (.write rfl (frameHeader_eq_ok_iff.mpr ⟨by decide, rfl⟩)) <|
    System.Leads.head (.take rfl rfl) <| System.Leads.head (.resize rfl rfl) <|
    System.Leads.head (.write rfl (frameHeader_eq_ok_iff.mpr ⟨by decide, rfl⟩)) <|
    System.Leads.head (.recv rfl rfl rfl) <| System.Leads.head (.input rfl) <|
    .single (@Step.other _ _ [0x73] (.error "stdin read failed") _ rfl (by decide) rfl nofun)

theorem inputLoop_forwards_typed :
    typed.sent.flatMap frameItems <+: typed.arrived.flatMap (eventItems smallSize) ∧
      ∃ t, (inputLoop smallSize).LeadsBy Action.Own typed t ∧ t.arrived = typed.arrived ∧
        (t.sent.flatMap frameItems = typed.arrived.flatMap (eventItems smallSize) ∨
          t.Closed smallSize) := by
  obtain ⟨hrelayed, -, -, -, -, hsettles⟩ := inputLoop_forwards smallSize reachable_typed
  refine ⟨hrelayed, hsettles trivial ?_⟩
  simp [typed, Sendable, smallSize, rawBatchBytes, maxPayload]

end SideWire.TerminalInput
