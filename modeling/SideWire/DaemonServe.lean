import SideWire.Base.TransitionSystem
import SideWire.FrameCodec
import Mathlib.Logic.Function.Basic

/-!
`serve` on the device: the dispatch loop, the tasks it spawns, and the maps they share. The
channels of a request go by the number of its task. What handlers do in between (their
frames, files and processes) and the amounts of flow credit are left out.
-/

namespace SideWire.DaemonServe

open SideWire.TransitionSystem
open SideWire.ByteString
open SideWire.FrameCodec

def streamRouteCapacity : Nat := 16

/-- The requests that `serve` spawns a task for. -/
inductive Request
  | exec
  | push
  | pull
  | pty
  | clipboardGet
  | clipboardSet
  | clipboardClear
  | proxyStart
  deriving DecidableEq

/-- What `serve` registers for a request: an inbox in `routes`, a watch in `cancels`, and
an amount of credit in `flow_credits`. -/
inductive Register
  | stream
  | cancel
  | flow
  deriving DecidableEq

namespace Request

def ofKind : FrameKind → Option Request
  | .execRequest => some exec
  | .pushRequest => some push
  | .pullRequest => some pull
  | .ptyOpen => some pty
  | .clipboardGet => some clipboardGet
  | .clipboardSet => some clipboardSet
  | .clipboardClear => some clipboardClear
  | .proxyStartRequest => some proxyStart
  | _ => none

/-- What is registered, in order. -/
def registers : Request → List Register
  | push => [.stream, .cancel]
  | pull => [.cancel, .flow]
  | pty => [.stream]
  | exec | clipboardGet | clipboardSet | clipboardClear | proxyStart => [.cancel]

end Request

/-- Where the task of a request stands. `serve` is still registering it in `starting`. A
`proxyStart` has its listener in `acking` and has sent its answer in `storing`. Once the
handler has returned, the task takes back the route and the watch, reports an error and
finishes the stream. -/
inductive Phase
  | starting
  | running
  | acking (listener : Nat) (proxy : String)
  | storing (listener : Nat) (proxy : String)
  | returned
  | unrouted
  | uncanceled
  | finished
  deriving DecidableEq

namespace Phase

/-- The task has not yet taken back its route. -/
def routed : Phase → Bool
  | unrouted | uncanceled | finished => false
  | _ => true

/-- The task has not yet taken back its watch. -/
def cancelable : Phase → Bool
  | uncanceled | finished => false
  | _ => true

end Phase

structure Handler where
  streamId : UInt32
  request : Request
  payload : Bytes
  phase : Phase
  watch : Bool
  inbox : List Frame
  deriving DecidableEq

/-- Where the dispatch loop stands. It has the sender of an inbox in hand in `routing`, and
writes a pong or an error of its own in `answering`. From `stopping` on the loop is over. -/
inductive Dispatcher
  | reading
  | unrouting (id : UInt32)
  | signaling (id : UInt32)
  | routing (frame : Frame) (task : Nat)
  | dropping (id : UInt32) (overflow : Bool)
  | registering (task : Nat) (pending : List Register)
  | answering (id : UInt32) (ping : Bool)
  | stopping
  | unrouted
  | uncanceled
  | drained
  | returned
  deriving DecidableEq

/-- The settings of a connection, and `decode` for the id of a proxy request. -/
structure Serve where
  supportsFlowControl : Bool
  decodeProxy : Bytes → Except String String

/-- The calls of `send_cancel` in `overflows` have yet to start, those in `sending` wait
for the writer. A listener is `true` once it has been aborted. -/
structure State where
  dispatcher : Dispatcher
  next : Nat
  handlers : Nat → Option Handler
  routes : UInt32 → Option Nat
  cancels : UInt32 → Option Nat
  flowCredits : UInt32 → Option Nat
  canceled : UInt32 → Bool
  overflows : List UInt32
  sending : List UInt32
  proxies : List (String × Nat)
  listeners : Nat → Option Bool
  failed : Bool

def State.initial : State where
  dispatcher := .reading
  next := 0
  handlers _ := none
  routes _ := none
  cancels _ := none
  flowCredits _ := none
  canceled _ := false
  overflows := []
  sending := []
  proxies := []
  listeners _ := none
  failed := false

namespace State

variable (s : State)

/-- The task of a request has not finished its stream. -/
def Running (id : UInt32) : Prop :=
  ∃ task h, s.handlers task = some h ∧ h.streamId = id ∧ h.phase ≠ .finished

/-- A spawned `send_cancel` is not done. -/
def Canceling (id : UInt32) : Prop := id ∈ s.overflows ∨ id ∈ s.sending

def setHandler (task : Nat) (h : Handler) : Nat → Option Handler :=
  Function.update s.handlers task (some h)

def setPhase (task : Nat) (h : Handler) (phase : Phase) : Nat → Option Handler :=
  s.setHandler task { h with phase := phase }

def setRoute (id : UInt32) (route : Option Nat) : UInt32 → Option Nat :=
  Function.update s.routes id route

def setCancel (id : UInt32) (cancel : Option Nat) : UInt32 → Option Nat :=
  Function.update s.cancels id cancel

def setFlow (id : UInt32) (flow : Option Nat) : UInt32 → Option Nat :=
  Function.update s.flowCredits id flow

/-- `cancel_local`, and what `finish_stream` does to the set. -/
def setCanceled (id : UInt32) (value : Bool) : UInt32 → Bool :=
  Function.update s.canceled id value

def abort (listener : Nat) : Nat → Option Bool :=
  Function.update s.listeners listener (some true)

/-- The sender of a watch is told of the cancellation. -/
def signal (cancel : Option Nat) : Nat → Option Handler := fun task =>
  (s.handlers task).map fun h =>
    if cancel = some task then { h with watch := true } else h

end State

@[simp] theorem State.setHandler_self (s : State) (task : Nat) (h : Handler) :
    s.setHandler task h task = some h :=
  Function.update_self ..

theorem State.setHandler_of_ne (s : State) {task other : Nat} (h : Handler)
    (hne : other ≠ task) : s.setHandler task h other = s.handlers other :=
  Function.update_of_ne hne _ _

theorem update_none {entries : UInt32 → Option Nat} {id other : UInt32}
    (h : entries other = none) : Function.update entries id none other = none := by
  by_cases heq : other = id
  · rw [heq, Function.update_self]
  · rw [Function.update_of_ne heq, h]

theorem some_of_update_none {entries : UInt32 → Option Nat} {id other : UInt32} {task : Nat}
    (h : Function.update entries id none other = some task) : entries other = some task := by
  by_cases heq : other = id
  · rw [heq, Function.update_self] at h
    exact nomatch h
  · rwa [Function.update_of_ne heq] at h

inductive Action
  | receives (frame : Frame)
  | serve
  | rejects
  | answers (id : UInt32)
  | sendCancel (id : UInt32)
  | writer
  | handler (task : Nat)
  | unroutes (task : Nat)
  | uncancels (task : Nat)
  | stores (task : Nat)
  | finishes (task : Nat)

/-- One registration: whether it is accepted, and the maps it leaves. -/
def register (serve : Serve) (s : State) (id : UInt32) (task : Nat) : Register → Bool × State
  | .stream =>
      if s.routes id = none then (true, { s with routes := s.setRoute id (some task) })
      else (false, s)
  | .cancel =>
      (s.cancels id = none, { s with cancels := s.setCancel id (some task) })
  | .flow =>
      if serve.supportsFlowControl then
        (s.flowCredits id = none, { s with flowCredits := s.setFlow id (some task) })
      else (true, s)

inductive Step (serve : Serve) : State → Action → State → Prop
  -- the dispatch loop reads a frame
  | windowUpdate {s : State} {frame : Frame} (hreading : s.dispatcher = .reading)
      (hkind : frame.kind = .streamWindowUpdate) :
      Step serve s (.receives frame) s
  | badUpdate {s : State} {frame : Frame} (hreading : s.dispatcher = .reading)
      (hkind : frame.kind = .streamWindowUpdate) :
      Step serve s (.receives frame) { s with dispatcher := .stopping }
  | cancel {s : State} {frame : Frame} (hreading : s.dispatcher = .reading)
      (hkind : frame.kind = .streamCancel) :
      Step serve s (.receives frame) { s with
        dispatcher := .unrouting frame.streamId
        canceled := s.setCanceled frame.streamId true }
  | route {s : State} {frame : Frame} {task : Nat} (hreading : s.dispatcher = .reading)
      (hkind : frame.kind ≠ .streamWindowUpdate ∧ frame.kind ≠ .streamCancel)
      (hroute : s.routes frame.streamId = some task) :
      Step serve s (.receives frame) { s with dispatcher := .routing frame task }
  | request {s : State} {frame : Frame} {request : Request}
      (hreading : s.dispatcher = .reading) (hroute : s.routes frame.streamId = none)
      (hkind : Request.ofKind frame.kind = some request) :
      Step serve s (.receives frame) { s with
        dispatcher := .registering s.next request.registers
        next := s.next + 1
        handlers := s.setHandler s.next
          ⟨frame.streamId, request, frame.payload, .starting, false, []⟩ }
  | unsupported {s : State} {frame : Frame} (hreading : s.dispatcher = .reading)
      (hkind : frame.kind ≠ .streamWindowUpdate ∧ frame.kind ≠ .streamCancel)
      (hroute : s.routes frame.streamId = none) (hrequest : Request.ofKind frame.kind = none) :
      Step serve s (.receives frame) { s with
        dispatcher := .answering frame.streamId (frame.kind == .ping) }
  | stop {s : State} (hreading : s.dispatcher = .reading) :
      Step serve s .serve { s with dispatcher := .stopping }
  -- and goes on with it
  | unroute {s : State} {id : UInt32} (hdispatcher : s.dispatcher = .unrouting id) :
      Step serve s .serve { s with
        dispatcher := .signaling id, routes := s.setRoute id none }
  | signal {s : State} {id : UInt32} (hdispatcher : s.dispatcher = .signaling id) :
      Step serve s .serve { s with
        dispatcher := .reading, cancels := s.setCancel id none
        handlers := s.signal (s.cancels id) }
  | deliver {s : State} {frame : Frame} {task : Nat} {h : Handler}
      (hdispatcher : s.dispatcher = .routing frame task) (hh : s.handlers task = some h)
      (hroom : h.inbox.length < streamRouteCapacity) :
      Step serve s .serve { s with
        dispatcher := .reading
        handlers := s.setHandler task { h with inbox := h.inbox ++ [frame] } }
  | overflow {s : State} {frame : Frame} {task : Nat} {h : Handler}
      (hdispatcher : s.dispatcher = .routing frame task) (hh : s.handlers task = some h)
      (hfull : streamRouteCapacity ≤ h.inbox.length) :
      Step serve s .serve { s with dispatcher := .dropping frame.streamId true }
  | inboxClosed {s : State} {frame : Frame} {task : Nat}
      (hdispatcher : s.dispatcher = .routing frame task)
      (hclosed : ∀ h, s.handlers task = some h → h.phase = .finished) :
      Step serve s .serve { s with dispatcher := .dropping frame.streamId false }
  | drop {s : State} {id : UInt32} {overflow : Bool}
      (hdispatcher : s.dispatcher = .dropping id overflow) :
      Step serve s .serve { s with
        dispatcher := .reading, routes := s.setRoute id none
        overflows := if overflow then id :: s.overflows else s.overflows }
  | register {s t : State} {task : Nat} {h : Handler} {entry : Register}
      {pending : List Register}
      (hdispatcher : s.dispatcher = .registering task (entry :: pending))
      (hh : s.handlers task = some h)
      (haccepted : DaemonServe.register serve s h.streamId task entry = (true, t)) :
      Step serve s .serve { t with dispatcher := .registering task pending }
  | reject {s t : State} {task : Nat} {h : Handler} {entry : Register}
      {pending : List Register}
      (hdispatcher : s.dispatcher = .registering task (entry :: pending))
      (hh : s.handlers task = some h)
      (hrejected : DaemonServe.register serve s h.streamId task entry = (false, t)) :
      Step serve s .rejects { t with
        dispatcher := .stopping, handlers := Function.update s.handlers task none }
  | spawn {s : State} {task : Nat} {h : Handler}
      (hdispatcher : s.dispatcher = .registering task []) (hh : s.handlers task = some h) :
      Step serve s .serve { s with
        dispatcher := .reading, handlers := s.setPhase task h .running }
  | answer {s : State} {id : UInt32} {ping : Bool}
      (hdispatcher : s.dispatcher = .answering id ping) :
      Step serve s (.answers id) { s with
        dispatcher := .reading, canceled := s.setCanceled id false
        flowCredits := s.setFlow id none }
  | pongFails {s : State} {id : UInt32} (hdispatcher : s.dispatcher = .answering id true) :
      Step serve s .serve { s with dispatcher := .stopping }
  -- the end of the connection
  | clearRoutes {s : State} (hdispatcher : s.dispatcher = .stopping) :
      Step serve s .serve { s with
        dispatcher := .unrouted, routes := fun _ => none
        canceled := fun id => s.canceled id || (s.routes id).isSome }
  | drainCancels {s : State} (hdispatcher : s.dispatcher = .unrouted) :
      Step serve s .serve { s with
        dispatcher := .uncanceled, cancels := fun _ => none
        canceled := fun id => s.canceled id || (s.cancels id).isSome
        handlers := fun task => (s.handlers task).map fun h =>
          if s.cancels h.streamId = some task then { h with watch := true } else h }
  | drainProxies {s : State} (hdispatcher : s.dispatcher = .uncanceled) :
      Step serve s .serve { s with
        dispatcher := .drained, proxies := []
        listeners := fun listener => (s.listeners listener).map fun aborted =>
          aborted || s.proxies.any fun entry => entry.2 == listener }
  | close {s : State} (hdispatcher : s.dispatcher = .drained) :
      Step serve s .serve { s with dispatcher := .returned, failed := true }
  | writerFails {s : State} : Step serve s .writer { s with failed := true }
  -- a spawned `send_cancel`
  | sendCancel {s : State} {id : UInt32} (hid : id ∈ s.overflows) :
      Step serve s (.sendCancel id) { s with
        overflows := s.overflows.erase id, sending := id :: s.sending
        canceled := s.setCanceled id true }
  | cancelSent {s : State} {id : UInt32} (hid : id ∈ s.sending) :
      Step serve s .writer { s with sending := s.sending.erase id }
  -- the task of a request
  | take {s : State} {task : Nat} {h : Handler} {frame : Frame} {rest : List Frame}
      (hh : s.handlers task = some h) (hphase : h.phase = .running)
      (hinbox : h.inbox = frame :: rest) :
      Step serve s (.handler task) { s with
        handlers := s.setHandler task { h with inbox := rest } }
  | handlerReturns {s : State} {task : Nat} {h : Handler} (hh : s.handlers task = some h)
      (hphase : h.phase = .running) :
      Step serve s (.handler task) { s with handlers := s.setPhase task h .returned }
  | bind {s : State} {task listener : Nat} {h : Handler} {proxy : String}
      (hh : s.handlers task = some h) (hphase : h.phase = .running)
      (hrequest : h.request = .proxyStart) (hdecode : serve.decodeProxy h.payload = .ok proxy)
      (hfresh : s.listeners listener = none) :
      Step serve s (.handler task) { s with
        handlers := s.setPhase task h (.acking listener proxy)
        listeners := Function.update s.listeners listener (some false) }
  | ack {s : State} {task listener : Nat} {h : Handler} {proxy : String}
      (hh : s.handlers task = some h) (hphase : h.phase = .acking listener proxy)
      (hactive : s.canceled h.streamId = false) :
      Step serve s (.handler task) { s with
        handlers := s.setPhase task h (.storing listener proxy) }
  | ackFails {s : State} {task listener : Nat} {h : Handler} {proxy : String}
      (hh : s.handlers task = some h) (hphase : h.phase = .acking listener proxy)
      (hinactive : s.canceled h.streamId = true ∨ s.failed = true) :
      Step serve s (.handler task) { s with
        handlers := s.setPhase task h .returned, listeners := s.abort listener }
  | store {s : State} {task listener : Nat} {h : Handler} {proxy : String}
      (hh : s.handlers task = some h) (hphase : h.phase = .storing listener proxy) :
      Step serve s (.stores task) { s with
        handlers := s.setPhase task h .returned
        proxies := (proxy, listener) :: s.proxies.filter fun entry => entry.1 != proxy
        listeners := match s.proxies.lookup proxy with
          | some old => s.abort old
          | none => s.listeners }
  | unregisterStream {s : State} {task : Nat} {h : Handler} (hh : s.handlers task = some h)
      (hphase : h.phase = .returned) :
      Step serve s (.unroutes task) { s with
        handlers := s.setPhase task h .unrouted
        routes := if .stream ∈ h.request.registers then s.setRoute h.streamId none
          else s.routes }
  | unregisterCancel {s : State} {task : Nat} {h : Handler} (hh : s.handlers task = some h)
      (hphase : h.phase = .unrouted) :
      Step serve s (.uncancels task) { s with
        handlers := s.setPhase task h .uncanceled
        cancels := if .cancel ∈ h.request.registers then s.setCancel h.streamId none
          else s.cancels }
  | finish {s : State} {task : Nat} {h : Handler} (hh : s.handlers task = some h)
      (hphase : h.phase = .uncanceled) :
      Step serve s (.finishes task) { s with
        handlers := s.setPhase task h .finished
        canceled := s.setCanceled h.streamId false
        flowCredits := s.setFlow h.streamId none }

def system (serve : Serve) : System State Action where
  init := fun s => s = .initial
  step := Step serve

/-- A connection with flow control, and a host that asks for a command on stream 1. -/
def plainServe : Serve := ⟨true, fun _ => .error "malformed"⟩
def execFrame : Frame := ⟨.execRequest, 1, []⟩

end SideWire.DaemonServe
