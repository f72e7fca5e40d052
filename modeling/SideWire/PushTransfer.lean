import SideWire.FlowControl

/-!
A flow-controlled push: `remote_push` on the host, `handle_push` and the frame
loop of `serve` on the device, and the frames under way between them. The model
starts when the `PushRequest` has been dispatched. Both sides have negotiated
flow control and stream cancellation, as any two peers built from this source
do.
-/

namespace SideWire.PushTransfer

open SideWire.TransitionSystem
open SideWire.CreditWindow
open SideWire.ByteString
open SideWire.FlowControl

inductive HostFailure
  | remoteError
  | canceled
  | closed
  | unexpected
  | read
  deriving DecidableEq

/-- Where `remote_push` stands. A parked host sits in the `select!` of
`acquire_flow_credit`; `woken` says that one of its futures has completed. In
`sent` the write is done and `send_raw` looks at the stream once more. In
`gone` the stream has been dropped. -/
inductive HostPhase
  | awaitingReady
  | reading
  | acquiring (chunk : Bytes)
  | parked (chunk : Bytes) (woken : Bool)
  | sending (chunk : Bytes)
  | sent (last : Bool)
  | checking
  | ending
  | awaitingDone
  | succeeded
  | failed (why : HostFailure)
  | gone
  deriving DecidableEq

inductive HandlerError
  | create
  | canceled
  | disconnected
  | unexpected
  | write
  | window
  | flush
  deriving DecidableEq

/-- Where the task spawned for the `PushRequest` stands: inside `handle_push`
up to `returning`, then in the clean-up that `serve` wraps around it. -/
inductive DevicePhase
  | opening
  | granting
  | receiving
  | writing (chunk : Bytes)
  | accounting (bytes : Nat)
  | flushing
  | returning (result : Except HandlerError Unit)
  | reporting (result : Except HandlerError Unit)
  | finishing (result : Except HandlerError Unit)
  | ended (result : Except HandlerError Unit)

/-- The task that `serve` spawns on an overflow, running `send_cancel`. -/
inductive CancelTask
  | idle
  | spawned
  | marked
  deriving DecidableEq

@[ext] structure State where
  host : HostPhase
  unread : List Bytes
  credit : FlowCredit
  hostQueue : List StreamFrame
  hostRoute : Bool
  hostCancel : Bool
  hostCanceling : Nat
  completed : Bool
  toDevice : List StreamFrame
  toHost : List StreamFrame
  device : DevicePhase
  inbox : List StreamFrame
  routed : Bool
  cancelWatch : Bool
  deviceCanceled : Bool
  canceling : CancelTask
  consumed : Nat
  written : List Bytes
  connected : Bool
  -- What has happened so far; no step of the code reads these.
  granted : Nat
  taken : Nat
  unsent : List StreamFrame
  popped : List StreamFrame
  unserved : List StreamFrame
  accounted : List Nat
  opened : Bool
  overflowed : Bool

/-- A completed `credit_ready`, `closed` or `cancel.changed()` future. -/
def HostPhase.wake : HostPhase → HostPhase
  | .parked chunk _ => .parked chunk true
  | phase => phase

def HostPhase.onReady : StreamFrame → HostPhase
  | .fileMeta _ => .reading
  | .error => .failed .remoteError
  | _ => .failed .unexpected

/-- A frame that `try_recv` finds between two chunks always ends the push. -/
def HostPhase.onUpload : StreamFrame → HostPhase
  | .error => .failed .remoteError
  | _ => .failed .unexpected

def HostPhase.onDone : StreamFrame → HostPhase
  | .fileEnd => .succeeded
  | .error => .failed .remoteError
  | _ => .failed .unexpected

/-- `remote_push` has not returned. -/
def HostPhase.running : HostPhase → Bool
  | .succeeded | .failed _ | .gone => false
  | _ => true

/-- The phases that call `recv` or `try_recv` next. -/
def HostPhase.receives : HostPhase → Bool
  | .awaitingReady | .checking | .awaitingDone => true
  | _ => false

/-- The phases in which the host looks at its cancellation watch next. -/
def HostPhase.looksAtCancel : HostPhase → Bool
  | .reading => false
  | .parked _ woken => woken
  | phase => phase.running

/-- The phases in which the host looks at the closed flag next; a receive first
hands out what is queued. -/
def HostPhase.looksAtClosed (queue : List StreamFrame) (phase : HostPhase) : Bool :=
  phase.looksAtCancel && (!phase.receives || queue.isEmpty)

def DevicePhase.onFrame : StreamFrame → DevicePhase
  | .fileChunk chunk => .writing chunk
  | .fileEnd => .flushing
  | _ => .returning (.error .unexpected)

/-- The phases whose next send finds out that the stream was canceled. -/
def DevicePhase.sends (consumed : Nat) : DevicePhase → Bool
  | .opening | .granting | .flushing => true
  | .accounting bytes => fileFlowUpdateThreshold ≤ consumed + bytes
  | _ => false

/-- One push: the reads the host obtains, and the chunk whose `write_all` fails
on the device, if any. -/
structure Plan where
  reads : FileReads
  failsAt : Option Nat

def State.initial (plan : Plan) : State where
  host := .awaitingReady
  unread := plan.reads.chunks
  credit := .new
  hostQueue := []
  hostRoute := true
  hostCancel := false
  hostCanceling := 0
  completed := false
  toDevice := []
  toHost := []
  device := .opening
  inbox := []
  routed := true
  cancelWatch := false
  deviceCanceled := false
  canceling := .idle
  consumed := 0
  written := []
  connected := true
  granted := 0
  taken := 0
  unsent := plan.reads.frames
  popped := []
  unserved := []
  accounted := []
  opened := false
  overflowed := false

inductive Step (plan : Plan) : State → Actor → State → Prop
  -- `remote_push`
  | recvReady {s frame queue} (hphase : s.host = .awaitingReady)
      (hcancel : s.hostCancel = false) (hqueue : s.hostQueue = frame :: queue) :
      Step plan s .host { s with
        host := .onReady frame, hostQueue := queue
        completed := s.completed || frame.completes }
  | readChunk {s chunk rest} (hphase : s.host = .reading)
      (hunread : s.unread = chunk :: rest) :
      Step plan s .host { s with host := .acquiring chunk, unread := rest }
  | readEof {s} (hphase : s.host = .reading) (hunread : s.unread = []) :
      Step plan s .host { s with host := .ending }
  | readFails {s} (hphase : s.host = .reading) :
      Step plan s .host { s with host := .failed .read }
  | takeCredit {s chunk credit} (hphase : s.host = .acquiring chunk)
      (hcancel : s.hostCancel = false) (hconnected : s.connected = true)
      (htake : s.credit.tryTake chunk.length = some credit) :
      Step plan s .host { s with
        host := .sending chunk, credit := credit, taken := s.taken + chunk.length }
  | park {s chunk} (hphase : s.host = .acquiring chunk)
      (hcancel : s.hostCancel = false) (hconnected : s.connected = true)
      (htake : s.credit.tryTake chunk.length = none) :
      Step plan s .host { s with host := .parked chunk false }
  | resume {s chunk} (hphase : s.host = .parked chunk true) :
      Step plan s .host { s with host := .acquiring chunk }
  | sendChunk {s chunk} (hphase : s.host = .sending chunk)
      (hconnected : s.connected = true) :
      Step plan s .host { s with
        host := .sent false, toDevice := s.toDevice ++ [.fileChunk chunk]
        unsent := s.unsent.tail }
  | sendEnd {s} (hphase : s.host = .ending) (hconnected : s.connected = true) :
      Step plan s .host { s with
        host := .sent true, toDevice := s.toDevice ++ [.fileEnd]
        unsent := s.unsent.tail }
  | sentChunk {s} (hphase : s.host = .sent false)
      (hcancel : s.hostCancel = false) (hconnected : s.connected = true) :
      Step plan s .host { s with host := .checking }
  | sentEnd {s} (hphase : s.host = .sent true)
      (hcancel : s.hostCancel = false) (hconnected : s.connected = true) :
      Step plan s .host { s with host := .awaitingDone }
  | tryRecvEmpty {s} (hphase : s.host = .checking)
      (hcancel : s.hostCancel = false) (hqueue : s.hostQueue = []) :
      Step plan s .host { s with host := .reading }
  | tryRecv {s frame queue} (hphase : s.host = .checking)
      (hcancel : s.hostCancel = false) (hqueue : s.hostQueue = frame :: queue) :
      Step plan s .host { s with
        host := .onUpload frame, hostQueue := queue
        completed := s.completed || frame.completes }
  | recvDone {s frame queue} (hphase : s.host = .awaitingDone)
      (hcancel : s.hostCancel = false) (hqueue : s.hostQueue = frame :: queue) :
      Step plan s .host { s with
        host := .onDone frame, hostQueue := queue
        completed := s.completed || frame.completes }
  | hostCanceled {s} (hphase : s.host.looksAtCancel = true)
      (hcancel : s.hostCancel = true) :
      Step plan s .host { s with
        host := .failed .canceled, completed := s.completed || s.host.receives }
  | hostClosed {s} (hphase : s.host.looksAtClosed s.hostQueue = true)
      (hcancel : s.hostCancel = false) (hconnected : s.connected = false) :
      Step plan s .host { s with host := .failed .closed }
  | dropStream {s} (hphase : s.host.running = false) (hpresent : s.host ≠ .gone) :
      Step plan s .host { s with
        host := .gone, hostRoute := false
        hostCanceling := s.hostCanceling + (!s.completed).toNat }
  -- the host's reader task
  | deliver {s frame rest} (hconnected : s.connected = true)
      (hwire : s.toHost = frame :: rest) (hdata : frame.isData = true)
      (hroute : s.hostRoute = true) (hroom : s.hostQueue.length < routeCapacity) :
      Step plan s .hostReader { s with
        toHost := rest, hostQueue := s.hostQueue ++ [frame] }
  | deliverFull {s frame rest} (hconnected : s.connected = true)
      (hwire : s.toHost = frame :: rest) (hdata : frame.isData = true)
      (hroute : s.hostRoute = true) (hfull : routeCapacity ≤ s.hostQueue.length) :
      Step plan s .hostReader { s with
        toHost := rest, hostRoute := false, hostCancel := true
        hostCanceling := s.hostCanceling + 1, host := s.host.wake }
  | deliverUpdate {s bytes rest credit} (hconnected : s.connected = true)
      (hwire : s.toHost = .windowUpdate bytes :: rest)
      (hroute : s.hostRoute = true) (hadd : s.credit.add bytes = .ok credit) :
      Step plan s .hostReader { s with
        toHost := rest, credit := credit, granted := s.granted + bytes
        host := s.host.wake }
  | rejectUpdate {s bytes rest message} (hconnected : s.connected = true)
      (hwire : s.toHost = .windowUpdate bytes :: rest)
      (hroute : s.hostRoute = true) (hadd : s.credit.add bytes = .error message) :
      Step plan s .hostReader { s with
        toHost := rest, connected := false, host := s.host.wake }
  | deliverCancel {s rest} (hconnected : s.connected = true)
      (hwire : s.toHost = .streamCancel :: rest) (hroute : s.hostRoute = true) :
      Step plan s .hostReader { s with
        toHost := rest, hostRoute := false, hostCancel := true
        host := s.host.wake }
  | deliverStray {s frame rest} (hconnected : s.connected = true)
      (hwire : s.toHost = frame :: rest) (hroute : s.hostRoute = false) :
      Step plan s .hostReader { s with toHost := rest }
  -- the tasks that run `send_stream_cancel` after an overflow or a drop
  | sendHostCancel {s pending} (hconnected : s.connected = true)
      (hpending : s.hostCanceling = pending + 1) :
      Step plan s .hostTask { s with
        hostCanceling := pending, toDevice := s.toDevice ++ [.streamCancel] }
  -- the frame loop of `serve`
  | route {s frame rest} (hconnected : s.connected = true)
      (hwire : s.toDevice = frame :: rest) (hdata : frame.isData = true)
      (hrouted : s.routed = true) (hroom : s.inbox.length < routeCapacity) :
      Step plan s .serve { s with
        toDevice := rest, inbox := s.inbox ++ [frame] }
  | routeFull {s frame rest} (hconnected : s.connected = true)
      (hwire : s.toDevice = frame :: rest) (hdata : frame.isData = true)
      (hrouted : s.routed = true) (hfull : routeCapacity ≤ s.inbox.length) :
      Step plan s .serve { s with
        toDevice := rest, routed := false, canceling := .spawned
        unserved := s.unserved ++ [frame], overflowed := true }
  | unsupported {s frame rest} (hconnected : s.connected = true)
      (hwire : s.toDevice = frame :: rest) (hdata : frame.isData = true)
      (hrouted : s.routed = false) :
      Step plan s .serve { s with
        toDevice := rest, unserved := s.unserved ++ [frame]
        toHost := s.toHost ++ [.error], deviceCanceled := false }
  | unsupportedCanceled {s frame rest} (hconnected : s.connected = true)
      (hwire : s.toDevice = frame :: rest) (hdata : frame.isData = true)
      (hrouted : s.routed = false) (hcanceled : s.deviceCanceled = true) :
      Step plan s .serve { s with
        toDevice := rest, unserved := s.unserved ++ [frame]
        deviceCanceled := false }
  | serveCancel {s rest} (hconnected : s.connected = true)
      (hwire : s.toDevice = .streamCancel :: rest) :
      Step plan s .serve { s with
        toDevice := rest, deviceCanceled := true, routed := false
        cancelWatch := true }
  | serveEnds {s} (hconnected : s.connected = false) :
      Step plan s .serve { s with
        deviceCanceled := true, routed := false, cancelWatch := true }
  -- the task spawned by `serve` on an overflow
  | markCanceled {s} (hpending : s.canceling = .spawned) :
      Step plan s .deviceTask { s with canceling := .marked, deviceCanceled := true }
  | sendDeviceCancel {s} (hconnected : s.connected = true)
      (hpending : s.canceling = .marked) :
      Step plan s .deviceTask { s with
        canceling := .idle, toHost := s.toHost ++ [.streamCancel] }
  -- `handle_push`
  | create {s} (hphase : s.device = .opening) (hconnected : s.connected = true) :
      Step plan s .handler { s with
        device := .granting, toHost := s.toHost ++ [.fileMeta 0] }
  | createFails {s} (hphase : s.device = .opening) :
      Step plan s .handler { s with device := .returning (.error .create) }
  | grant {s update} (hphase : s.device = .granting)
      (hconnected : s.connected = true)
      (hupdate : windowUpdate fileFlowWindow = .ok update) :
      Step plan s .handler { s with
        device := .receiving, toHost := s.toHost ++ update, opened := true }
  | recv {s frame rest} (hphase : s.device = .receiving)
      (hwatch : s.cancelWatch = false) (hinbox : s.inbox = frame :: rest) :
      Step plan s .handler { s with
        device := .onFrame frame, inbox := rest, popped := s.popped ++ [frame] }
  | recvDisconnected {s} (hphase : s.device = .receiving)
      (hwatch : s.cancelWatch = false) (hinbox : s.inbox = [])
      (hrouted : s.routed = false) :
      Step plan s .handler { s with device := .returning (.error .disconnected) }
  | recvCanceled {s} (hphase : s.device = .receiving)
      (hwatch : s.cancelWatch = true) :
      Step plan s .handler { s with device := .returning (.error .canceled) }
  | write {s chunk} (hphase : s.device = .writing chunk)
      (hok : plan.failsAt ≠ some s.written.length) :
      Step plan s .handler { s with
        device := .accounting chunk.length, written := s.written ++ [chunk] }
  | writeFails {s chunk} (hphase : s.device = .writing chunk)
      (hfails : plan.failsAt = some s.written.length) :
      Step plan s .handler { s with device := .returning (.error .write) }
  | accountOnly {s bytes consumed} (hphase : s.device = .accounting bytes)
      (haccount : accountFileWindow s.consumed bytes = .ok (consumed, none)) :
      Step plan s .handler { s with
        device := .receiving, consumed := consumed
        accounted := s.accounted ++ [bytes] }
  | accountReport {s bytes consumed batch update}
      (hphase : s.device = .accounting bytes) (hconnected : s.connected = true)
      (haccount : accountFileWindow s.consumed bytes = .ok (consumed, some batch))
      (hupdate : windowUpdate batch = .ok update) :
      Step plan s .handler { s with
        device := .receiving, consumed := consumed, toHost := s.toHost ++ update
        accounted := s.accounted ++ [bytes] }
  | accountFails {s bytes message} (hphase : s.device = .accounting bytes)
      (haccount : accountFileWindow s.consumed bytes = .error message) :
      Step plan s .handler { s with device := .returning (.error .window) }
  | flush {s} (hphase : s.device = .flushing) (hconnected : s.connected = true) :
      Step plan s .handler { s with
        device := .returning (.ok ()), toHost := s.toHost ++ [.fileEnd] }
  | flushCanceled {s} (hphase : s.device = .flushing)
      (hconnected : s.connected = true) (hcanceled : s.deviceCanceled = true) :
      Step plan s .handler { s with
        device := .returning (.error .canceled), toHost := s.toHost ++ [.fileEnd] }
  | flushFails {s} (hphase : s.device = .flushing) :
      Step plan s .handler { s with device := .returning (.error .flush) }
  | sendCanceled {s} (hphase : s.device.sends s.consumed = true)
      (hcanceled : s.deviceCanceled = true) :
      Step plan s .handler { s with device := .returning (.error .canceled) }
  | sendStopped {s} (hphase : s.device.sends s.consumed = true)
      (hconnected : s.connected = false) :
      Step plan s .handler { s with device := .returning (.error .disconnected) }
  -- the clean-up after `handle_push`
  | unregister {s result} (hphase : s.device = .returning result) :
      Step plan s .handler { s with device := .reporting result, routed := false }
  | reportOk {s} (hphase : s.device = .reporting (.ok ())) :
      Step plan s .handler { s with device := .finishing (.ok ()) }
  | reportError {s why} (hphase : s.device = .reporting (.error why))
      (hconnected : s.connected = true) :
      Step plan s .handler { s with
        device := .finishing (.error why), toHost := s.toHost ++ [.error] }
  | reportNothing {s why} (hphase : s.device = .reporting (.error why))
      (hmute : s.deviceCanceled = true ∨ s.connected = false) :
      Step plan s .handler { s with device := .finishing (.error why) }
  | finish {s result} (hphase : s.device = .finishing result) :
      Step plan s .handler { s with
        device := .ended result, deviceCanceled := false }
  -- the connection may end at any time
  | close {s} :
      Step plan s .network { s with connected := false, host := s.host.wake }

def system (plan : Plan) : System State Actor where
  init := fun s => s = .initial plan
  step := Step plan

end SideWire.PushTransfer
