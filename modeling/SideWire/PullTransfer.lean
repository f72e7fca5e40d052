import SideWire.FlowControl

/-!
A flow-controlled pull: `handle_pull` on the device, `remote_pull` on the host,
and the frames under way between them. The model starts when the `PullRequest`
has been dispatched, between two sides that have negotiated flow control and
stream cancellation.
-/

namespace SideWire.PullTransfer

open SideWire.TransitionSystem
open SideWire.CreditWindow
open SideWire.ByteString
open SideWire.FlowControl

inductive HostFailure
  | remoteError
  | canceled
  | closed
  | unexpected
  | create
  | write
  | window
  | flush
  | size
  deriving DecidableEq

/-- Where `remote_pull` stands. In `sent` a window update has been written and
`send` looks at the stream once more. -/
inductive HostPhase
  | awaitingMeta
  | creating
  | granting
  | sent
  | receiving
  | writing (chunk : Bytes)
  | accounting (bytes : Nat)
  | flushing
  | succeeded
  | failed (why : HostFailure)
  | gone
  deriving DecidableEq

inductive HandlerError
  | start
  | canceled
  | read
  | stopped
  deriving DecidableEq

/-- Where the task spawned for the `PullRequest` stands: inside `handle_pull` up
to `returning`, then in the clean-up that `serve` wraps around it. A parked
handler sits in the `select!` of `acquire_flow_credit`. -/
inductive DevicePhase
  | opening
  | sent
  | reading
  | acquiring (chunk : Bytes)
  | parked (chunk : Bytes) (woken : Bool)
  | sending (chunk : Bytes)
  | ending
  | returning (result : Except HandlerError Unit)
  | reporting (result : Except HandlerError Unit)
  | finishing (result : Except HandlerError Unit)
  | ended (result : Except HandlerError Unit)

@[ext] structure State where
  host : HostPhase
  hostQueue : List StreamFrame
  hostRoute : Bool
  hostCancel : Bool
  hostCanceling : Nat
  completed : Bool
  expected : Nat
  windowConsumed : Nat
  written : List Bytes
  toHost : List StreamFrame
  toDevice : List StreamFrame
  device : DevicePhase
  unread : List Bytes
  credit : FlowCredit
  registered : Bool
  cancelWatch : Bool
  deviceCanceled : Bool
  connected : Bool
  -- What has happened so far; no step of the code reads these.
  declared : Nat
  granted : Nat
  taken : Nat
  emitted : List StreamFrame
  popped : List StreamFrame
  lost : List StreamFrame
  accounted : List Nat
  opened : Bool
  overflowed : Bool

/-- `remote_pull` has not returned. -/
def HostPhase.running : HostPhase → Bool
  | .succeeded | .failed _ | .gone => false
  | _ => true

def HostPhase.receives : HostPhase → Bool
  | .awaitingMeta | .receiving => true
  | _ => false

/-- The phases in which the host looks at its cancellation watch next. -/
def HostPhase.looksAtCancel (windowConsumed : Nat) : HostPhase → Bool
  | .granting | .sent => true
  | .accounting bytes => fileFlowUpdateThreshold ≤ windowConsumed + bytes
  | phase => phase.receives

/-- The phases in which the host looks at the closed flag next; a receive first
hands out what is queued. -/
def HostPhase.looksAtClosed (windowConsumed : Nat) (queue : List StreamFrame)
    (phase : HostPhase) : Bool :=
  phase.looksAtCancel windowConsumed && (!phase.receives || queue.isEmpty)

def HostPhase.onMeta : StreamFrame → HostPhase
  | .fileMeta _ => .creating
  | .error => .failed .remoteError
  | _ => .failed .unexpected

def HostPhase.onFrame : StreamFrame → HostPhase
  | .fileChunk chunk => .writing chunk
  | .fileEnd => .flushing
  | .error => .failed .remoteError
  | _ => .failed .unexpected

/-- A completed `credit_ready` or `failed` future. -/
def DevicePhase.wake : DevicePhase → DevicePhase
  | .parked chunk _ => .parked chunk true
  | phase => phase

/-- The phases in which a send looks at the canceled streams next. -/
def DevicePhase.sends : DevicePhase → Bool
  | .opening | .sent | .acquiring _ | .sending _ | .ending => true
  | _ => false

/-- One pull: the reads the handler obtains, whether its file or child fails
after them, and the chunk whose `write_all` fails on the host, if any. -/
structure Plan where
  reads : FileReads
  readFails : Bool
  failsAt : Option Nat

def State.initial (plan : Plan) : State where
  host := .awaitingMeta
  hostQueue := []
  hostRoute := true
  hostCancel := false
  hostCanceling := 0
  completed := false
  expected := 0
  windowConsumed := 0
  written := []
  toHost := []
  toDevice := []
  device := .opening
  unread := plan.reads.chunks
  credit := .new
  registered := true
  cancelWatch := false
  deviceCanceled := false
  connected := true
  declared := 0
  granted := 0
  taken := 0
  emitted := []
  popped := []
  lost := []
  accounted := []
  opened := false
  overflowed := false

inductive Step (plan : Plan) : State → Actor → State → Prop
  -- `handle_pull`
  | openFails {s} (hphase : s.device = .opening) :
      Step plan s .handler { s with device := .returning (.error .start) }
  | sendMeta {s size} (hphase : s.device = .opening) (hconnected : s.connected = true) :
      Step plan s .handler { s with
        device := .sent, toHost := s.toHost ++ [.fileMeta size]
        declared := size, emitted := s.emitted ++ [.fileMeta size] }
  | sentOk {s} (hphase : s.device = .sent) (hactive : s.deviceCanceled = false) :
      Step plan s .handler { s with device := .reading }
  | readCanceled {s} (hphase : s.device = .reading) (hwatch : s.cancelWatch = true) :
      Step plan s .handler { s with device := .returning (.error .canceled) }
  | readChunk {s chunk rest} (hphase : s.device = .reading)
      (hwatch : s.cancelWatch = false) (hunread : s.unread = chunk :: rest) :
      Step plan s .handler { s with device := .acquiring chunk, unread := rest }
  | readEof {s} (hphase : s.device = .reading) (hwatch : s.cancelWatch = false)
      (hunread : s.unread = []) (hok : plan.readFails = false) :
      Step plan s .handler { s with device := .ending }
  | readFails {s} (hphase : s.device = .reading) (hwatch : s.cancelWatch = false)
      (hunread : s.unread = []) (hfails : plan.readFails = true) :
      Step plan s .handler { s with device := .returning (.error .read) }
  | takeCredit {s chunk credit} (hphase : s.device = .acquiring chunk)
      (hactive : s.deviceCanceled = false) (hconnected : s.connected = true)
      (htake : s.credit.tryTake chunk.length = some credit) :
      Step plan s .handler { s with
        device := .sending chunk, credit := credit, taken := s.taken + chunk.length }
  | park {s chunk} (hphase : s.device = .acquiring chunk)
      (hactive : s.deviceCanceled = false) (hconnected : s.connected = true)
      (htake : s.credit.tryTake chunk.length = none) :
      Step plan s .handler { s with device := .parked chunk false }
  | resume {s chunk} (hphase : s.device = .parked chunk true) :
      Step plan s .handler { s with device := .acquiring chunk }
  | sendChunk {s chunk} (hphase : s.device = .sending chunk)
      (hconnected : s.connected = true) :
      Step plan s .handler { s with
        device := .sent, toHost := s.toHost ++ [.fileChunk chunk]
        emitted := s.emitted ++ [.fileChunk chunk] }
  | sendEnd {s} (hphase : s.device = .ending) (hconnected : s.connected = true) :
      Step plan s .handler { s with
        device := .returning (.ok ()), toHost := s.toHost ++ [.fileEnd]
        emitted := s.emitted ++ [.fileEnd] }
  | sendEndCanceled {s} (hphase : s.device = .ending)
      (hconnected : s.connected = true) (hcanceled : s.deviceCanceled = true) :
      Step plan s .handler { s with
        device := .returning (.error .canceled), toHost := s.toHost ++ [.fileEnd]
        emitted := s.emitted ++ [.fileEnd] }
  | sendCanceled {s} (hphase : s.device.sends = true)
      (hcanceled : s.deviceCanceled = true) :
      Step plan s .handler { s with device := .returning (.error .canceled) }
  | sendStopped {s} (hphase : s.device.sends = true) (hconnected : s.connected = false) :
      Step plan s .handler { s with device := .returning (.error .stopped) }
  -- the clean-up after `handle_pull`
  | unregister {s result} (hphase : s.device = .returning result) :
      Step plan s .handler { s with device := .reporting result }
  | reportOk {s} (hphase : s.device = .reporting (.ok ())) :
      Step plan s .handler { s with device := .finishing (.ok ()) }
  | reportError {s why} (hphase : s.device = .reporting (.error why))
      (hconnected : s.connected = true) :
      Step plan s .handler { s with
        device := .finishing (.error why), toHost := s.toHost ++ [.error]
        emitted := s.emitted ++ [.error] }
  | reportNothing {s why} (hphase : s.device = .reporting (.error why))
      (hmute : s.deviceCanceled = true ∨ s.connected = false) :
      Step plan s .handler { s with device := .finishing (.error why) }
  | finish {s result} (hphase : s.device = .finishing result) :
      Step plan s .handler { s with
        device := .ended result, deviceCanceled := false, registered := false }
  -- the frame loop of `serve`
  | deliverUpdate {s bytes rest credit} (hconnected : s.connected = true)
      (hwire : s.toDevice = .windowUpdate bytes :: rest)
      (hregistered : s.registered = true) (hadd : s.credit.add bytes = .ok credit) :
      Step plan s .serve { s with
        toDevice := rest, credit := credit, granted := s.granted + bytes
        device := s.device.wake }
  | rejectUpdate {s bytes rest message} (hconnected : s.connected = true)
      (hwire : s.toDevice = .windowUpdate bytes :: rest)
      (hregistered : s.registered = true) (hadd : s.credit.add bytes = .error message) :
      Step plan s .serve { s with
        toDevice := rest, connected := false, device := s.device.wake }
  | dropUpdate {s bytes rest} (hconnected : s.connected = true)
      (hwire : s.toDevice = .windowUpdate bytes :: rest)
      (hregistered : s.registered = false) :
      Step plan s .serve { s with toDevice := rest }
  | serveCancel {s rest} (hconnected : s.connected = true)
      (hwire : s.toDevice = .streamCancel :: rest) :
      Step plan s .serve { s with
        toDevice := rest, deviceCanceled := true, cancelWatch := true
        device := s.device.wake }
  | serveEnds {s} (hconnected : s.connected = false) :
      Step plan s .serve { s with
        deviceCanceled := true, cancelWatch := true, device := s.device.wake }
  -- the host's reader task
  | deliver {s frame rest} (hconnected : s.connected = true)
      (hwire : s.toHost = frame :: rest) (hroute : s.hostRoute = true)
      (hroom : s.hostQueue.length < routeCapacity) :
      Step plan s .hostReader { s with
        toHost := rest, hostQueue := s.hostQueue ++ [frame] }
  | deliverFull {s frame rest} (hconnected : s.connected = true)
      (hwire : s.toHost = frame :: rest) (hroute : s.hostRoute = true)
      (hfull : routeCapacity ≤ s.hostQueue.length) :
      Step plan s .hostReader { s with
        toHost := rest, hostRoute := false, hostCancel := true
        hostCanceling := s.hostCanceling + 1, lost := s.lost ++ [frame]
        overflowed := true }
  | deliverStray {s frame rest} (hconnected : s.connected = true)
      (hwire : s.toHost = frame :: rest) (hroute : s.hostRoute = false) :
      Step plan s .hostReader { s with toHost := rest, lost := s.lost ++ [frame] }
  -- the tasks that run `send_stream_cancel` after an overflow or a drop
  | sendHostCancel {s pending} (hconnected : s.connected = true)
      (hpending : s.hostCanceling = pending + 1) :
      Step plan s .hostTask { s with
        hostCanceling := pending, toDevice := s.toDevice ++ [.streamCancel] }
  -- `remote_pull`
  | recvMeta {s frame queue} (hphase : s.host = .awaitingMeta)
      (hcancel : s.hostCancel = false) (hqueue : s.hostQueue = frame :: queue) :
      Step plan s .host { s with
        host := .onMeta frame, hostQueue := queue, expected := frame.metaSize
        popped := s.popped ++ [frame]
        completed := s.completed || frame.completes }
  | createFile {s} (hphase : s.host = .creating) :
      Step plan s .host { s with host := .granting }
  | createFails {s} (hphase : s.host = .creating) :
      Step plan s .host { s with host := .failed .create }
  | grant {s update} (hphase : s.host = .granting) (hconnected : s.connected = true)
      (hupdate : windowUpdate fileFlowWindow = .ok update) :
      Step plan s .host { s with
        host := .sent, toDevice := s.toDevice ++ update, opened := true }
  | updateSent {s} (hphase : s.host = .sent) (hcancel : s.hostCancel = false)
      (hconnected : s.connected = true) :
      Step plan s .host { s with host := .receiving }
  | recv {s frame queue} (hphase : s.host = .receiving)
      (hcancel : s.hostCancel = false) (hqueue : s.hostQueue = frame :: queue) :
      Step plan s .host { s with
        host := .onFrame frame, hostQueue := queue, popped := s.popped ++ [frame]
        completed := s.completed || frame.completes }
  | write {s chunk} (hphase : s.host = .writing chunk)
      (hok : plan.failsAt ≠ some s.written.length) :
      Step plan s .host { s with
        host := .accounting chunk.length, written := s.written ++ [chunk] }
  | writeFails {s chunk} (hphase : s.host = .writing chunk)
      (hfails : plan.failsAt = some s.written.length) :
      Step plan s .host { s with host := .failed .write }
  | accountOnly {s bytes consumed} (hphase : s.host = .accounting bytes)
      (haccount : accountPullWindow s.windowConsumed bytes = (consumed, none)) :
      Step plan s .host { s with
        host := .receiving, windowConsumed := consumed
        accounted := s.accounted ++ [bytes] }
  | accountReport {s bytes consumed batch update} (hphase : s.host = .accounting bytes)
      (hconnected : s.connected = true)
      (haccount : accountPullWindow s.windowConsumed bytes = (consumed, some batch))
      (hupdate : windowUpdate batch = .ok update) :
      Step plan s .host { s with
        host := .sent, windowConsumed := consumed, toDevice := s.toDevice ++ update
        accounted := s.accounted ++ [bytes] }
  | accountFails {s bytes consumed batch message} (hphase : s.host = .accounting bytes)
      (haccount : accountPullWindow s.windowConsumed bytes = (consumed, some batch))
      (hupdate : windowUpdate batch = .error message) :
      Step plan s .host { s with host := .failed .window }
  | flush {s} (hphase : s.host = .flushing)
      (hsize : (lengthsOf s.written).sum = s.expected) :
      Step plan s .host { s with host := .succeeded }
  | sizeMismatch {s} (hphase : s.host = .flushing)
      (hsize : (lengthsOf s.written).sum ≠ s.expected) :
      Step plan s .host { s with host := .failed .size }
  | flushFails {s} (hphase : s.host = .flushing) :
      Step plan s .host { s with host := .failed .flush }
  | hostCanceled {s} (hphase : s.host.looksAtCancel s.windowConsumed = true)
      (hcancel : s.hostCancel = true) :
      Step plan s .host { s with
        host := .failed .canceled, completed := s.completed || s.host.receives }
  | hostClosed {s} (hphase : s.host.looksAtClosed s.windowConsumed s.hostQueue = true)
      (hcancel : s.hostCancel = false) (hconnected : s.connected = false) :
      Step plan s .host { s with host := .failed .closed }
  | dropStream {s} (hphase : s.host.running = false) (hpresent : s.host ≠ .gone) :
      Step plan s .host { s with
        host := .gone, hostRoute := false
        hostCanceling := s.hostCanceling + (!s.completed).toNat }
  -- the connection may end at any time
  | close {s} :
      Step plan s .network { s with connected := false, device := s.device.wake }

def system (plan : Plan) : System State Actor where
  init := fun s => s = .initial plan
  step := Step plan

end SideWire.PullTransfer
