import SideWire.Base.TransitionSystem
import SideWire.FlowControl
import SideWire.FrameCodec
import Mathlib.Logic.Function.Basic

/-!
The streams of a `DeviceTransport` on the host: its reader task, `open_stream`, and what
the owner of a `DeviceStream` does with it. Streams are told apart by a number of their
own, since an id may come back after 2^32 streams.
-/

namespace SideWire.StreamRoutes

open SideWire.TransitionSystem
open SideWire.ByteString
open SideWire.FlowControl
open SideWire.FrameCodec

/-- What the transport is set up with, and `decode` for a window update. -/
structure DeviceTransport where
  supportsFlowControl : Bool
  decodeUpdate : Bytes → Except String UInt32

def frameCompletesStream : FrameKind → Bool
  | .execExit | .fileEnd | .ptyExit | .clipboardData | .pong | .proxyStartAck | .error => true
  | _ => false

/-- A frame that the reader passes on to the owner of a stream. -/
def isRouted (frame : Frame) : Bool :=
  frame.kind != .streamWindowUpdate && frame.kind != .streamCancel

inductive CancelReason
  | remote (payload : Bytes)
  | overflow
  deriving DecidableEq

inductive RecvError
  | canceled (reason : CancelReason)
  | closed
  deriving DecidableEq

/-- Where the owner of a stream stands. A poll of the `select!` in `recv` looks at the
cancellation in `receiving` and at the queue in `polled`; in `draining` the cancellation
can no longer come. In `disconnected`, `try_recv` looks at the cancellation once more. A
drop takes the route away, then the queue. -/
inductive Owner
  | idle
  | receiving
  | polled
  | draining
  | trying
  | disconnected
  | dropping
  | dropped
  deriving DecidableEq

/-- A `DeviceStream` with the channels behind it. The lists at the end are the frames
handed out, the frame that the reader had in hand when the stream was opened, and those
that it has read since, all with the id of the stream. -/
structure DeviceStream where
  id : UInt32
  queue : List Frame
  cancel : Option CancelReason
  flow : Option FlowCredit
  completed : Bool
  owner : Owner
  delivered : List Frame
  early : List Frame
  arrived : List Frame
  deriving DecidableEq

/-- Where the reader task stands. It has a frame in hand from `looking` to the next
`top`. With the route it has cloned, it keeps the channels of that stream open. -/
inductive Reader
  | top
  | selecting
  | looking (frame : Frame)
  | routed (frame : Frame) (stream : Nat)
  | full (id : UInt32) (stream : Nat)
  | orphaned (id : UInt32) (stream : Nat)
  | canceling (id : UInt32) (stream : Nat) (reason : CancelReason)
  | crediting (id : UInt32) (stream : Nat) (bytes : UInt32)
  | stopping
  | clearing
  | ended
  deriving DecidableEq

namespace Reader

/-- The reader has a clone of the route, or has taken it. -/
def holds : Reader → Nat → Bool
  | .routed _ stream, other | .full _ stream, other | .orphaned _ stream, other
  | .canceling _ stream _, other => stream == other
  | _, _ => false

/-- The stream id of the frame in hand. -/
def subject : Reader → Option UInt32
  | .looking frame | .routed frame _ => some frame.streamId
  | .full id _ | .orphaned id _ | .canceling id _ _ | .crediting id _ _ => some id
  | _ => none

/-- The frame in hand, as long as no route has been looked up for it. -/
def inHand (reader : Reader) (id : UInt32) : List Frame :=
  match reader with
  | .looking frame => if isRouted frame = true ∧ frame.streamId = id then [frame] else []
  | _ => []

end Reader

/-- `drawing` openers are about to draw an id, the ids in `drawn` are still to be
registered. So many calls of `close` have still to clear the routes. -/
structure State where
  closed : Bool
  closing : Nat
  nextStreamId : UInt32
  drawing : Nat
  drawn : List UInt32
  routes : UInt32 → Option Nat
  streams : Nat → Option DeviceStream
  reader : Reader

def State.initial : State where
  closed := false
  closing := 0
  nextStreamId := 1
  drawing := 0
  drawn := []
  routes _ := none
  streams _ := none
  reader := .top

namespace State

variable (s : State)

def setStream (stream : Nat) (value : DeviceStream) : Nat → Option DeviceStream :=
  Function.update s.streams stream (some value)

def setRoute (id : UInt32) (route : Option Nat) : UInt32 → Option Nat :=
  Function.update s.routes id route

/-- Someone still has a sender of the stream. -/
def SenderAlive (stream : Nat) : Prop :=
  (∃ id, s.routes id = some stream) ∨ s.reader.holds stream = true

/-- The streams once a frame has been read. -/
def arrive (frame : Frame) : Nat → Option DeviceStream := fun stream =>
  (s.streams stream).map fun st =>
    if isRouted frame = true ∧ frame.streamId = st.id then
      { st with arrived := st.arrived ++ [frame] }
    else st

end State

inductive Action
  | opener
  | closer
  | reader
  | owner (stream : Nat)
  | returns (stream : Nat) (result : Except RecvError (Option Frame))

namespace DeviceStream

def new (transport : DeviceTransport) (id : UInt32) (early : List Frame) : DeviceStream where
  id := id
  queue := []
  cancel := none
  flow := if transport.supportsFlowControl then some .new else none
  completed := false
  owner := .idle
  delivered := []
  early := early
  arrived := []

variable (st : DeviceStream)

/-- The owner takes a frame off the queue and returns it. -/
def take (frame : Frame) (rest : List Frame) : DeviceStream :=
  { st with
    queue := rest, owner := .idle, delivered := st.delivered ++ [frame]
    completed := st.completed || frameCompletesStream frame.kind }

/-- The owner returns the reason of a cancellation. -/
def giveUp : DeviceStream := { st with owner := .idle, completed := true }

end DeviceStream

inductive Step (transport : DeviceTransport) : State → Action → State → Prop
  -- `open_stream`
  | enter {s} (hopen : s.closed = false) :
      Step transport s .opener { s with drawing := s.drawing + 1 }
  | draw {s count} (hdrawing : s.drawing = count + 1) (hzero : s.nextStreamId ≠ 0) :
      Step transport s .opener { s with
        drawing := count, drawn := s.nextStreamId :: s.drawn
        nextStreamId := s.nextStreamId + 1 }
  | drawZero {s count} (hdrawing : s.drawing = count + 1) (hzero : s.nextStreamId = 0) :
      Step transport s .opener { s with nextStreamId := s.nextStreamId + 1 }
  | refuse {s id} (hdrawn : id ∈ s.drawn) (hclosed : s.closed = true) :
      Step transport s .opener { s with drawn := s.drawn.erase id }
  | collide {s id} (hdrawn : id ∈ s.drawn) (hopen : s.closed = false)
      (hused : s.routes id ≠ none) :
      Step transport s .opener { s with
        drawn := s.drawn.erase id, drawing := s.drawing + 1 }
  | register {s id stream} (hdrawn : id ∈ s.drawn) (hopen : s.closed = false)
      (hfree : s.routes id = none) (hfresh : s.streams stream = none) :
      Step transport s .opener { s with
        drawn := s.drawn.erase id, routes := s.setRoute id (some stream)
        streams := s.setStream stream (.new transport id (s.reader.inHand id)) }
  -- `recv`
  | recv {s stream st} (hst : s.streams stream = some st) (howner : st.owner = .idle)
      (hcancel : st.cancel = none) :
      Step transport s (.owner stream) { s with
        streams := s.setStream stream { st with owner := .receiving } }
  | pollClosed {s stream st} (hst : s.streams stream = some st)
      (howner : st.owner = .receiving) (hcancel : st.cancel = none)
      (hsender : ¬ s.SenderAlive stream) :
      Step transport s (.owner stream) { s with
        streams := s.setStream stream { st with owner := .draining } }
  | pollPending {s stream st} (hst : s.streams stream = some st)
      (howner : st.owner = .receiving) (hcancel : st.cancel = none)
      (hsender : s.SenderAlive stream) :
      Step transport s (.owner stream) { s with
        streams := s.setStream stream { st with owner := .polled } }
  | park {s stream st} (hst : s.streams stream = some st) (howner : st.owner = .polled)
      (hqueue : st.queue = []) (hsender : s.SenderAlive stream) :
      Step transport s (.owner stream) { s with
        streams := s.setStream stream { st with owner := .receiving } }
  | abandon {s stream st} (hst : s.streams stream = some st)
      (howner : st.owner = .receiving ∨ st.owner = .draining) :
      Step transport s (.owner stream) { s with
        streams := s.setStream stream { st with owner := .idle } }
  -- `try_recv`
  | tryRecv {s stream st} (hst : s.streams stream = some st) (howner : st.owner = .idle)
      (hcancel : st.cancel = none) :
      Step transport s (.owner stream) { s with
        streams := s.setStream stream { st with owner := .trying } }
  | tryEmpty {s stream st} (hst : s.streams stream = some st) (howner : st.owner = .trying)
      (hqueue : st.queue = []) (hsender : s.SenderAlive stream) :
      Step transport s (.returns stream (.ok none)) { s with
        streams := s.setStream stream { st with owner := .idle } }
  | tryDisconnected {s stream st} (hst : s.streams stream = some st)
      (howner : st.owner = .trying) (hqueue : st.queue = [])
      (hsender : ¬ s.SenderAlive stream) :
      Step transport s (.owner stream) { s with
        streams := s.setStream stream { st with owner := .disconnected } }
  -- what both return
  | pop {s stream st frame rest} (hst : s.streams stream = some st)
      (howner : st.owner = .polled ∨ st.owner = .draining ∨ st.owner = .trying)
      (hqueue : st.queue = frame :: rest) :
      Step transport s (.returns stream (.ok (some frame))) { s with
        streams := s.setStream stream (st.take frame rest) }
  | canceled {s stream st reason} (hst : s.streams stream = some st)
      (howner : st.owner = .idle ∨ st.owner = .receiving ∨ st.owner = .disconnected)
      (hcancel : st.cancel = some reason) :
      Step transport s (.returns stream (.error (.canceled reason))) { s with
        streams := s.setStream stream st.giveUp }
  | recvClosed {s stream st} (hst : s.streams stream = some st)
      (howner : st.owner = .polled ∨ st.owner = .draining) (hqueue : st.queue = [])
      (hsender : ¬ s.SenderAlive stream) :
      Step transport s (.returns stream (.error .closed)) { s with
        streams := s.setStream stream { st with owner := .idle } }
  | tryRecvClosed {s stream st} (hst : s.streams stream = some st)
      (howner : st.owner = .disconnected) (hcancel : st.cancel = none) :
      Step transport s (.returns stream (.error .closed)) { s with
        streams := s.setStream stream { st with owner := .idle } }
  -- sending a chunk
  | takeCredit {s stream st flow credit bytes} (hst : s.streams stream = some st)
      (hflow : st.flow = some flow) (htake : flow.tryTake bytes = some credit) :
      Step transport s (.owner stream) { s with
        streams := s.setStream stream { st with flow := some credit } }
  -- `Drop for DeviceStream`
  | drop {s stream st} (hst : s.streams stream = some st) (howner : st.owner = .idle) :
      Step transport s (.owner stream) { s with
        streams := s.setStream stream { st with owner := .dropping }
        routes := s.setRoute st.id none }
  | dropQueue {s stream st} (hst : s.streams stream = some st)
      (howner : st.owner = .dropping) :
      Step transport s (.owner stream) { s with
        streams := s.setStream stream { st with owner := .dropped, queue := [] } }
  -- `close`, and the end of the writer task
  | close {s} : Step transport s .closer { s with closed := true, closing := s.closing + 1 }
  | closeRoutes {s count} (hclosing : s.closing = count + 1) :
      Step transport s .closer { s with closing := count, routes := fun _ => none }
  | writerEnds {s} : Step transport s .closer { s with closed := true }
  -- the reader task
  | arm {s} (hreader : s.reader = .top) (hopen : s.closed = false) :
      Step transport s .reader { s with reader := .selecting }
  | seeClosed {s} (hreader : s.reader = .top) (hclosed : s.closed = true) :
      Step transport s .reader { s with reader := .stopping }
  | shutdown {s} (hreader : s.reader = .selecting) (hclosed : s.closed = true) :
      Step transport s .reader { s with reader := .stopping }
  | readFails {s} (hreader : s.reader = .selecting) :
      Step transport s .reader { s with reader := .stopping }
  | read {s frame} (hreader : s.reader = .selecting) :
      Step transport s .reader { s with
        reader := .looking frame, streams := s.arrive frame }
  | rejectUpdate {s frame} (hreader : s.reader = .looking frame)
      (hkind : frame.kind = .streamWindowUpdate)
      (hinvalid : transport.supportsFlowControl = false ∨
        ∃ error, transport.decodeUpdate frame.payload = .error error) :
      Step transport s .reader { s with reader := .stopping }
  | lookUpdate {s frame bytes stream st} (hreader : s.reader = .looking frame)
      (hkind : frame.kind = .streamWindowUpdate)
      (hsupported : transport.supportsFlowControl = true)
      (hdecode : transport.decodeUpdate frame.payload = .ok bytes)
      (hroute : s.routes frame.streamId = some stream) (hst : s.streams stream = some st)
      (hflow : st.flow ≠ none) :
      Step transport s .reader { s with reader := .crediting frame.streamId stream bytes }
  | strayUpdate {s frame bytes} (hreader : s.reader = .looking frame)
      (hkind : frame.kind = .streamWindowUpdate)
      (hsupported : transport.supportsFlowControl = true)
      (hdecode : transport.decodeUpdate frame.payload = .ok bytes)
      (hroute : ∀ stream st, s.routes frame.streamId = some stream →
        s.streams stream = some st → st.flow = none) :
      Step transport s .reader { s with reader := .top }
  | credit {s id stream bytes st flow credit}
      (hreader : s.reader = .crediting id stream bytes)
      (hst : s.streams stream = some st) (hflow : st.flow = some flow)
      (hadd : flow.add bytes.toNat = .ok credit) :
      Step transport s .reader { s with
        reader := .top, streams := s.setStream stream { st with flow := some credit } }
  | rejectCredit {s id stream bytes st flow message}
      (hreader : s.reader = .crediting id stream bytes)
      (hst : s.streams stream = some st) (hflow : st.flow = some flow)
      (hadd : flow.add bytes.toNat = .error message) :
      Step transport s .reader { s with reader := .stopping }
  | lookCancel {s frame stream} (hreader : s.reader = .looking frame)
      (hkind : frame.kind = .streamCancel)
      (hroute : s.routes frame.streamId = some stream) :
      Step transport s .reader { s with
        reader := .canceling frame.streamId stream (.remote frame.payload)
        routes := s.setRoute frame.streamId none }
  | strayCancel {s frame} (hreader : s.reader = .looking frame)
      (hkind : frame.kind = .streamCancel) (hroute : s.routes frame.streamId = none) :
      Step transport s .reader { s with reader := .top }
  | cancel {s id stream reason st} (hreader : s.reader = .canceling id stream reason)
      (hst : s.streams stream = some st) :
      Step transport s .reader { s with
        reader := .top, streams := s.setStream stream { st with cancel := some reason } }
  | look {s frame stream} (hreader : s.reader = .looking frame)
      (hkind : isRouted frame = true) (hroute : s.routes frame.streamId = some stream) :
      Step transport s .reader { s with reader := .routed frame stream }
  | stray {s frame} (hreader : s.reader = .looking frame) (hkind : isRouted frame = true)
      (hroute : s.routes frame.streamId = none) :
      Step transport s .reader { s with reader := .top }
  | deliver {s frame stream st} (hreader : s.reader = .routed frame stream)
      (hst : s.streams stream = some st) (howner : st.owner ≠ .dropped)
      (hroom : st.queue.length < routeCapacity) :
      Step transport s .reader { s with
        reader := .top
        streams := s.setStream stream { st with queue := st.queue ++ [frame] } }
  | overflow {s frame stream st} (hreader : s.reader = .routed frame stream)
      (hst : s.streams stream = some st) (howner : st.owner ≠ .dropped)
      (hfull : routeCapacity ≤ st.queue.length) :
      Step transport s .reader { s with reader := .full frame.streamId stream }
  | orphan {s frame stream st} (hreader : s.reader = .routed frame stream)
      (hst : s.streams stream = some st) (howner : st.owner = .dropped) :
      Step transport s .reader { s with reader := .orphaned frame.streamId stream }
  | removeFull {s id stream} (hreader : s.reader = .full id stream) :
      Step transport s .reader { s with
        reader := .canceling id stream .overflow, routes := s.setRoute id none }
  | removeOrphan {s id stream} (hreader : s.reader = .orphaned id stream) :
      Step transport s .reader { s with reader := .top, routes := s.setRoute id none }
  | signal {s} (hreader : s.reader = .stopping) :
      Step transport s .reader { s with reader := .clearing, closed := true }
  | clear {s} (hreader : s.reader = .clearing) :
      Step transport s .reader { s with reader := .ended, routes := fun _ => none }

def system (transport : DeviceTransport) : System State Action where
  init := fun s => s = .initial
  step := Step transport

end SideWire.StreamRoutes
