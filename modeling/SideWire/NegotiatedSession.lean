import SideWire.ClearHandshake
import SideWire.HonestSession
import SideWire.StreamRoutes

/-!
The features that the two ends of a session use, and the frames that they put on the
connection with them. Handlers and stream owners may send what they send at any time; only
what depends on a feature is modelled in full.
-/

namespace SideWire.NegotiatedSession

open SideWire.TransitionSystem
open SideWire.ByteString
open SideWire.ByteLink
open SideWire.FlowControl
open SideWire.FrameCodec
open SideWire.Security
open SideWire.SessionHandshake
open SideWire.SessionAgreement
open SideWire.ClearHandshake
open SideWire.HonestSession
open SideWire.StreamRoutes (frameCompletesStream)

def streamCancelProtocolMinor : UInt8 := 1
def flowControlProtocolMinor : UInt8 := 2

structure Features where
  supportsStreamCancel : Bool
  supportsFlowControl : Bool
  heartbeat : Bool
  deriving DecidableEq

/-- The flags of `DeviceTransport::new`, and whether `register_device` starts a heartbeat. -/
def hostFeatures (protocol : UInt16) (peerCapabilities : UInt64) : Features where
  supportsStreamCancel :=
    decide (streamCancelProtocolMinor ≤ protocolMinor protocol) &&
      peerCapabilities &&& Capabilities.streamCancel != 0
  supportsFlowControl :=
    decide (flowControlProtocolMinor ≤ protocolMinor protocol) &&
      peerCapabilities &&& Capabilities.flowControl != 0
  heartbeat := peerCapabilities &&& Capabilities.heartbeat != 0

/-- The flags that `serve` computes and hands to its `MuxWriter`, and whether it expects a
heartbeat. -/
def deviceFeatures (negotiatedProtocol : UInt16) (negotiatedCapabilities : UInt64) :
    Features where
  supportsStreamCancel :=
    decide (streamCancelProtocolMinor ≤ protocolMinor negotiatedProtocol) &&
      negotiatedCapabilities &&& Capabilities.streamCancel != 0
  supportsFlowControl :=
    decide (flowControlProtocolMinor ≤ protocolMinor negotiatedProtocol) &&
      negotiatedCapabilities &&& Capabilities.flowControl != 0
  heartbeat := negotiatedCapabilities &&& Capabilities.heartbeat != 0

/-- The two ends of a session, each with its features and its codec for the message of a
window update. -/
structure Session where
  host : Features
  device : Features
  hostUpdates : Codec UInt32
  deviceUpdates : Codec UInt32

/-- A `DeviceStream`. While `waiting`, its owner is parked in `acquire_flow_credit`. -/
structure DeviceStream where
  id : UInt32
  queue : List Frame
  flow : Option FlowCredit
  completed : Bool
  waiting : Bool

/-- What `acquire_flow_credit` comes to when it looks at the credit. -/
inductive Acquired
  | granted (flow : Option FlowCredit)
  | waiting
  | failed

/-- The frame of a window update. -/
def windowUpdate (updates : Codec UInt32) (streamId : UInt32) (bytes : Nat) :
    Except String (List Frame) :=
  if 2 ^ 32 ≤ bytes then .error "stream window update exceeds u32"
  else do
    let payload ← updates.encode (UInt32.ofNat bytes)
    .ok [⟨.streamWindowUpdate, streamId, payload⟩]

/-- The kinds that the host sends on its streams as they are. -/
def FrameKind.ofHost : FrameKind → Bool
  | .execRequest | .pushRequest | .fileEnd | .pullRequest | .proxyStartRequest | .ptyOpen
  | .ptyInput | .ptyResize | .ptyClose | .ptyComplete | .clipboardGet | .clipboardSet
  | .clipboardClear | .ping => true
  | _ => false

/-- The kinds that the handlers of the device send as they are. -/
def FrameKind.ofDevice : FrameKind → Bool
  | .execStdout | .execStderr | .execExit | .fileMeta | .fileEnd | .proxyStartAck
  | .ptyOpenAck | .ptyOutput | .ptyExit | .ptyCompleteResult | .clipboardData | .pong
  | .error => true
  | _ => false

namespace DeviceStream

def new (features : Features) (id : UInt32) : DeviceStream where
  id := id
  queue := []
  flow := if features.supportsFlowControl then some .new else none
  completed := false
  waiting := false

variable (stream : DeviceStream)

def usesFlowControl : Bool := stream.flow.isSome

def grantWindow (updates : Codec UInt32) (bytes : Nat) : Except String (List Frame) :=
  if stream.usesFlowControl = false ∨ bytes = 0 then .ok []
  else windowUpdate updates stream.id bytes

def acquireFlowCredit (bytes : Nat) : Acquired :=
  match stream.flow with
  | none => .granted none
  | some flow =>
      if bytes = 0 then .granted (some flow)
      else if maxFlowCredit < bytes then .failed
      else
        match flow.tryTake bytes with
        | some rest => .granted (some rest)
        | none => .waiting

end DeviceStream

/-- `send_stream_cancel` of the host. -/
def sendStreamCancel (features : Features) (closed : Bool) (streamId : UInt32)
    (reason : Bytes) : List Frame :=
  if features.supportsStreamCancel = false ∨ closed = true then []
  else [⟨.streamCancel, streamId, reason⟩]

/-- `MuxWriter::send_window_update`. -/
def sendWindowUpdate (features : Features) (updates : Codec UInt32) (streamId : UInt32)
    (bytes : Nat) : Except String (List Frame) :=
  if features.supportsFlowControl = false ∨ bytes = 0 then .ok []
  else windowUpdate updates streamId bytes

/-- `MuxWriter::send_cancel`, which falls back to an error. -/
def sendCancel (features : Features) (streamId : UInt32) (reason : Bytes) : List Frame :=
  [⟨if features.supportsStreamCancel then .streamCancel else .error, streamId, reason⟩]

/-- `MuxWriter::acquire_flow_credit`, with the entry of the stream in `flow_credits`. -/
def muxAcquireFlowCredit (features : Features) (flow : Option FlowCredit) (bytes : Nat) :
    Acquired :=
  if features.supportsFlowControl = false ∨ bytes = 0 then .granted flow
  else if maxFlowCredit < bytes then .failed
  else
    match flow with
    | none => .failed
    | some credit =>
        match credit.tryTake bytes with
        | some rest => .granted (some rest)
        | none => .waiting

/-- A session once both ends have finished the handshake. The tasks in `hostCancels` and
`deviceCancels` are still to run `send_stream_cancel` and `send_cancel`. -/
structure State where
  streams : Nat → Option DeviceStream
  routes : UInt32 → Option Nat
  hostCancels : List (UInt32 × Bytes)
  closed : Bool
  toDevice : List Frame
  toHost : List Frame
  flowCredits : UInt32 → Option FlowCredit
  waiting : UInt32 → Bool
  deviceCancels : List (UInt32 × Bytes)
  failed : Bool
  -- What has happened so far; no step of the code reads these.
  hostSent : List Frame
  deviceSent : List Frame
  hostRejected : Bool
  deviceRejected : Bool

def State.initial : State where
  streams _ := none
  routes _ := none
  hostCancels := []
  closed := false
  toDevice := []
  toHost := []
  flowCredits _ := none
  waiting _ := false
  deviceCancels := []
  failed := false
  hostSent := []
  deviceSent := []
  hostRejected := false
  deviceRejected := false

namespace State

variable (s : State)

def setStream (handle : Nat) (stream : Option DeviceStream) : State :=
  { s with streams := Function.update s.streams handle stream }

def setRoute (id : UInt32) (route : Option Nat) : State :=
  { s with routes := Function.update s.routes id route }

def setCredit (id : UInt32) (flow : Option FlowCredit) : State :=
  { s with flowCredits := Function.update s.flowCredits id flow }

def setWaiting (id : UInt32) (waiting : Bool) : State :=
  { s with waiting := Function.update s.waiting id waiting }

/-- The host puts frames on the connection. -/
def hostSends (frames : List Frame) : State :=
  { s with toDevice := s.toDevice ++ frames, hostSent := s.hostSent ++ frames }

def deviceSends (frames : List Frame) : State :=
  { s with toHost := s.toHost ++ frames, deviceSent := s.deviceSent ++ frames }

end State

inductive Action
  | host
  | hostReader
  | device
  | serve
  deriving DecidableEq

inductive Step (session : Session) : State → Action → State → Prop
  -- the owners of streams on the host
  | openStream {s : State} {handle : Nat} {id : UInt32} (hopen : s.closed = false)
      (hfree : s.streams handle = none) (hroute : s.routes id = none) :
      Step session s .host
        ((s.setStream handle (some (.new session.host id))).setRoute id (some handle))
  | send {s : State} {handle : Nat} {stream : DeviceStream} {kind : FrameKind}
      {payload : Bytes} (hstream : s.streams handle = some stream) (hopen : s.closed = false)
      (hkind : FrameKind.ofHost kind = true) :
      Step session s .host (s.hostSends [⟨kind, stream.id, payload⟩])
  | sendChunk {s : State} {handle : Nat} {stream : DeviceStream} {payload : Bytes}
      {flow : Option FlowCredit} (hstream : s.streams handle = some stream)
      (hopen : s.closed = false)
      (hacquire : stream.acquireFlowCredit payload.length = .granted flow) :
      Step session s .host
        ((s.setStream handle (some { stream with flow := flow, waiting := false })).hostSends
          [⟨.fileChunk, stream.id, payload⟩])
  | park {s : State} {handle : Nat} {stream : DeviceStream} {payload : Bytes}
      (hstream : s.streams handle = some stream) (hopen : s.closed = false)
      (hacquire : stream.acquireFlowCredit payload.length = .waiting) :
      Step session s .host (s.setStream handle (some { stream with waiting := true }))
  | stopWaiting {s : State} {handle : Nat} {stream : DeviceStream}
      (hstream : s.streams handle = some stream) :
      Step session s .host (s.setStream handle (some { stream with waiting := false }))
  | grantWindow {s : State} {handle : Nat} {stream : DeviceStream} {bytes : Nat}
      {update : List Frame} (hstream : s.streams handle = some stream)
      (hopen : s.closed = false)
      (hgrant : stream.grantWindow session.hostUpdates bytes = .ok update) :
      Step session s .host (s.hostSends update)
  | recv {s : State} {handle : Nat} {stream : DeviceStream} {frame : Frame}
      {queue : List Frame} (hstream : s.streams handle = some stream)
      (hqueue : stream.queue = frame :: queue) :
      Step session s .host (s.setStream handle (some { stream with
        queue := queue, completed := stream.completed || frameCompletesStream frame.kind }))
  | recvCanceled {s : State} {handle : Nat} {stream : DeviceStream}
      (hstream : s.streams handle = some stream) :
      Step session s .host (s.setStream handle (some { stream with completed := true }))
  | drop {s : State} {handle : Nat} {stream : DeviceStream} {reason : Bytes}
      (hstream : s.streams handle = some stream) :
      Step session s .host
        (({ s with
          hostCancels :=
            if stream.completed then s.hostCancels else (stream.id, reason) :: s.hostCancels
          }.setStream handle none).setRoute stream.id none)
  | cancelStream {s : State} {id : UInt32} {reason : Bytes}
      (htask : (id, reason) ∈ s.hostCancels) :
      Step session s .host
        ({ s with hostCancels := s.hostCancels.erase (id, reason) }.hostSends
          (sendStreamCancel session.host s.closed id reason))
  | close {s : State} : Step session s .host { s with closed := true }
  -- the reader task of the host
  | rejectUpdate {s : State} {frame : Frame} {rest : List Frame} (hopen : s.closed = false)
      (hwire : s.toHost = frame :: rest) (hkind : frame.kind = .streamWindowUpdate)
      (hflow : session.host.supportsFlowControl = false) :
      Step session s .hostReader
        { s with toHost := rest, closed := true, hostRejected := true }
  | undecodedUpdate {s : State} {frame : Frame} {rest : List Frame} {message : String}
      (hopen : s.closed = false) (hwire : s.toHost = frame :: rest)
      (hkind : frame.kind = .streamWindowUpdate)
      (hflow : session.host.supportsFlowControl = true)
      (hdecode : session.hostUpdates.decode frame.payload = .error message) :
      Step session s .hostReader { s with toHost := rest, closed := true }
  | addUpdate {s : State} {frame : Frame} {rest : List Frame} {bytes : UInt32} {handle : Nat}
      {stream : DeviceStream} {flow credit : FlowCredit} (hopen : s.closed = false)
      (hwire : s.toHost = frame :: rest) (hkind : frame.kind = .streamWindowUpdate)
      (hflow : session.host.supportsFlowControl = true)
      (hdecode : session.hostUpdates.decode frame.payload = .ok bytes)
      (hroute : s.routes frame.streamId = some handle)
      (hstream : s.streams handle = some stream) (hcredit : stream.flow = some flow)
      (hadd : flow.add bytes.toNat = .ok credit) :
      Step session s .hostReader
        ({ s with toHost := rest }.setStream handle (some { stream with flow := some credit }))
  | refuseUpdate {s : State} {frame : Frame} {rest : List Frame} {bytes : UInt32}
      {handle : Nat} {stream : DeviceStream} {flow : FlowCredit} {message : String}
      (hopen : s.closed = false) (hwire : s.toHost = frame :: rest)
      (hkind : frame.kind = .streamWindowUpdate)
      (hflow : session.host.supportsFlowControl = true)
      (hdecode : session.hostUpdates.decode frame.payload = .ok bytes)
      (hroute : s.routes frame.streamId = some handle)
      (hstream : s.streams handle = some stream) (hcredit : stream.flow = some flow)
      (hadd : flow.add bytes.toNat = .error message) :
      Step session s .hostReader { s with toHost := rest, closed := true }
  | strayUpdate {s : State} {frame : Frame} {rest : List Frame} (hopen : s.closed = false)
      (hwire : s.toHost = frame :: rest) (hkind : frame.kind = .streamWindowUpdate)
      (hflow : session.host.supportsFlowControl = true)
      (hroute : s.routes frame.streamId = none) :
      Step session s .hostReader { s with toHost := rest }
  | readCancel {s : State} {frame : Frame} {rest : List Frame} (hopen : s.closed = false)
      (hwire : s.toHost = frame :: rest) (hkind : frame.kind = .streamCancel) :
      Step session s .hostReader ({ s with toHost := rest }.setRoute frame.streamId none)
  | deliver {s : State} {frame : Frame} {rest : List Frame} {handle : Nat}
      {stream : DeviceStream} (hopen : s.closed = false) (hwire : s.toHost = frame :: rest)
      (hupdate : frame.kind ≠ .streamWindowUpdate) (hcancel : frame.kind ≠ .streamCancel)
      (hroute : s.routes frame.streamId = some handle)
      (hstream : s.streams handle = some stream)
      (hroom : stream.queue.length < routeCapacity) :
      Step session s .hostReader
        ({ s with toHost := rest }.setStream handle
          (some { stream with queue := stream.queue ++ [frame] }))
  | overflow {s : State} {frame : Frame} {rest : List Frame} {handle : Nat}
      {stream : DeviceStream} {reason : Bytes} (hopen : s.closed = false)
      (hwire : s.toHost = frame :: rest) (hupdate : frame.kind ≠ .streamWindowUpdate)
      (hcancel : frame.kind ≠ .streamCancel)
      (hroute : s.routes frame.streamId = some handle)
      (hstream : s.streams handle = some stream)
      (hfull : routeCapacity ≤ stream.queue.length) :
      Step session s .hostReader
        ({ s with toHost := rest, hostCancels := (frame.streamId, reason) :: s.hostCancels
           }.setRoute frame.streamId none)
  | dropFrame {s : State} {frame : Frame} {rest : List Frame} (hopen : s.closed = false)
      (hwire : s.toHost = frame :: rest) (hupdate : frame.kind ≠ .streamWindowUpdate)
      (hcancel : frame.kind ≠ .streamCancel) :
      Step session s .hostReader ({ s with toHost := rest }.setRoute frame.streamId none)
  -- the handlers of the device
  | respond {s : State} {id : UInt32} {kind : FrameKind} {payload : Bytes}
      (hactive : s.failed = false) (hkind : FrameKind.ofDevice kind = true) :
      Step session s .device (s.deviceSends [⟨kind, id, payload⟩])
  | respondChunk {s : State} {id : UInt32} {payload : Bytes} {flow : Option FlowCredit}
      (hactive : s.failed = false)
      (hacquire : muxAcquireFlowCredit session.device (s.flowCredits id) payload.length =
        .granted flow) :
      Step session s .device
        (((s.setCredit id flow).setWaiting id false).deviceSends [⟨.fileChunk, id, payload⟩])
  | parkHandler {s : State} {id : UInt32} {payload : Bytes} (hactive : s.failed = false)
      (hacquire : muxAcquireFlowCredit session.device (s.flowCredits id) payload.length =
        .waiting) :
      Step session s .device (s.setWaiting id true)
  | wakeHandler {s : State} {id : UInt32} : Step session s .device (s.setWaiting id false)
  | sendWindowUpdate {s : State} {id : UInt32} {bytes : Nat} {update : List Frame}
      (hactive : s.failed = false)
      (hgrant : sendWindowUpdate session.device session.deviceUpdates id bytes = .ok update) :
      Step session s .device (s.deviceSends update)
  | sendCancel {s : State} {id : UInt32} {reason : Bytes} (hactive : s.failed = false)
      (htask : (id, reason) ∈ s.deviceCancels) :
      Step session s .device
        ({ s with deviceCancels := s.deviceCancels.erase (id, reason) }.deviceSends
          (sendCancel session.device id reason))
  | finishStream {s : State} {id : UInt32} : Step session s .device (s.setCredit id none)
  -- the dispatch loop of `serve`
  | serveRejects {s : State} {frame : Frame} {rest : List Frame} (hactive : s.failed = false)
      (hwire : s.toDevice = frame :: rest) (hkind : frame.kind = .streamWindowUpdate)
      (hflow : session.device.supportsFlowControl = false) :
      Step session s .serve
        { s with toDevice := rest, failed := true, deviceRejected := true }
  | serveUndecoded {s : State} {frame : Frame} {rest : List Frame} {message : String}
      (hactive : s.failed = false) (hwire : s.toDevice = frame :: rest)
      (hkind : frame.kind = .streamWindowUpdate)
      (hdecode : session.deviceUpdates.decode frame.payload = .error message) :
      Step session s .serve { s with toDevice := rest, failed := true }
  | addFlowCredit {s : State} {frame : Frame} {rest : List Frame} {bytes : UInt32}
      {flow credit : FlowCredit} (hactive : s.failed = false)
      (hwire : s.toDevice = frame :: rest) (hkind : frame.kind = .streamWindowUpdate)
      (hflow : session.device.supportsFlowControl = true)
      (hdecode : session.deviceUpdates.decode frame.payload = .ok bytes)
      (hcredit : s.flowCredits frame.streamId = some flow)
      (hadd : flow.add bytes.toNat = .ok credit) :
      Step session s .serve ({ s with toDevice := rest }.setCredit frame.streamId (some credit))
  | refuseFlowCredit {s : State} {frame : Frame} {rest : List Frame} {bytes : UInt32}
      {flow : FlowCredit} {message : String} (hactive : s.failed = false)
      (hwire : s.toDevice = frame :: rest) (hkind : frame.kind = .streamWindowUpdate)
      (hflow : session.device.supportsFlowControl = true)
      (hdecode : session.deviceUpdates.decode frame.payload = .ok bytes)
      (hcredit : s.flowCredits frame.streamId = some flow)
      (hadd : flow.add bytes.toNat = .error message) :
      Step session s .serve { s with toDevice := rest, failed := true }
  | strayFlowCredit {s : State} {frame : Frame} {rest : List Frame}
      (hactive : s.failed = false) (hwire : s.toDevice = frame :: rest)
      (hkind : frame.kind = .streamWindowUpdate)
      (hflow : session.device.supportsFlowControl = true)
      (hcredit : s.flowCredits frame.streamId = none) :
      Step session s .serve { s with toDevice := rest }
  | dispatch {s : State} {frame : Frame} {rest : List Frame} (hactive : s.failed = false)
      (hwire : s.toDevice = frame :: rest) (hkind : frame.kind ≠ .streamWindowUpdate) :
      Step session s .serve { s with toDevice := rest }
  | registerFlowStream {s : State} {id : UInt32}
      (hflow : session.device.supportsFlowControl = true) :
      Step session s .serve (s.setCredit id (some .new))
  | serveOverflow {s : State} {frame : Frame} {rest : List Frame} {reason : Bytes}
      (hactive : s.failed = false) (hwire : s.toDevice = frame :: rest)
      (hupdate : frame.kind ≠ .streamWindowUpdate) (hcancel : frame.kind ≠ .streamCancel) :
      Step session s .serve
        { s with toDevice := rest
                 deviceCancels := (frame.streamId, reason) :: s.deviceCancels }
  | serveEnds {s : State} : Step session s .serve { s with failed := true }

def system (session : Session) : System State Action where
  init := fun s => s = .initial
  step := Step session

/-- What may be sent with these features. -/
def Features.Permits (features : Features) (frame : Frame) : Prop :=
  (frame.kind = .streamCancel → features.supportsStreamCancel = true) ∧
    (frame.kind = .streamWindowUpdate → features.supportsFlowControl = true)

section Emissions

variable {features : Features} {updates : Codec UInt32} {streamId : UInt32} {bytes : Nat}

theorem permits_of_ne {kind : FrameKind} {payload : Bytes} (hcancel : kind ≠ .streamCancel)
    (hupdate : kind ≠ .streamWindowUpdate) : features.Permits ⟨kind, streamId, payload⟩ :=
  ⟨fun h => absurd h hcancel, fun h => absurd h hupdate⟩

theorem permits_windowUpdate {update : List Frame}
    (hflow : features.supportsFlowControl = true)
    (h : windowUpdate updates streamId bytes = .ok update) :
    ∀ frame ∈ update, features.Permits frame := by
  unfold windowUpdate at h
  split_ifs at h
  cases hencode : updates.encode (UInt32.ofNat bytes) with
  | error message => simp [hencode, bind, Except.bind] at h
  | ok payload =>
      obtain rfl : [⟨.streamWindowUpdate, streamId, payload⟩] = update := by
        simpa [hencode, bind, Except.bind] using h
      intro frame hframe
      rw [List.mem_singleton.mp hframe]
      exact ⟨nofun, fun _ => hflow⟩

theorem permits_sendWindowUpdate {update : List Frame}
    (h : sendWindowUpdate features updates streamId bytes = .ok update) :
    ∀ frame ∈ update, features.Permits frame := by
  unfold sendWindowUpdate at h
  split_ifs at h with hskip
  · rintro frame hframe
    simp [← Except.ok.inj h] at hframe
  · exact permits_windowUpdate (by simpa using (not_or.mp hskip).1) h

theorem permits_grantWindow {stream : DeviceStream} {update : List Frame}
    (hequipped : stream.flow.isSome = features.supportsFlowControl)
    (h : stream.grantWindow updates bytes = .ok update) :
    ∀ frame ∈ update, features.Permits frame := by
  unfold DeviceStream.grantWindow DeviceStream.usesFlowControl at h
  split_ifs at h with hskip
  · rintro frame hframe
    simp [← Except.ok.inj h] at hframe
  · rw [hequipped] at hskip
    exact permits_windowUpdate (by simpa using (not_or.mp hskip).1) h

theorem permits_sendStreamCancel {closed : Bool} {reason : Bytes} :
    ∀ frame ∈ sendStreamCancel features closed streamId reason, features.Permits frame := by
  unfold sendStreamCancel
  split_ifs with hskip
  · simp
  · intro frame hframe
    rw [List.mem_singleton.mp hframe]
    exact ⟨fun _ => by simpa using (not_or.mp hskip).1, nofun⟩

theorem permits_sendCancel {reason : Bytes} :
    ∀ frame ∈ sendCancel features streamId reason, features.Permits frame := by
  intro frame hframe
  rw [List.mem_singleton.mp hframe]
  cases hcancel : features.supportsStreamCancel with
  | false => exact permits_of_ne (by simp) (by simp)
  | true => exact ⟨fun _ => hcancel, nofun⟩

theorem ne_of_ofHost {kind : FrameKind} (h : FrameKind.ofHost kind = true) :
    kind ≠ .streamCancel ∧ kind ≠ .streamWindowUpdate := by
  constructor
  all_goals
    rintro rfl
    exact nomatch h

theorem ne_of_ofDevice {kind : FrameKind} (h : FrameKind.ofDevice kind = true) :
    kind ≠ .streamCancel ∧ kind ≠ .streamWindowUpdate := by
  constructor
  all_goals
    rintro rfl
    exact nomatch h

/-- Only a stream with flow control ever waits for credit. -/
theorem isSome_of_waiting {stream : DeviceStream}
    (h : stream.acquireFlowCredit bytes = .waiting) : stream.flow.isSome = true := by
  unfold DeviceStream.acquireFlowCredit at h
  cases hflow : stream.flow with
  | none => simp [hflow] at h
  | some flow => rfl

theorem isSome_of_granted {stream : DeviceStream} {flow : Option FlowCredit}
    (h : stream.acquireFlowCredit bytes = .granted flow) :
    flow.isSome = stream.flow.isSome := by
  unfold DeviceStream.acquireFlowCredit at h
  cases hflow : stream.flow with
  | none =>
      simp only [hflow, Acquired.granted.injEq] at h
      rw [← h]
  | some credit =>
      simp only [hflow] at h
      split_ifs at h
      · rw [← Acquired.granted.inj h]
      · cases htake : credit.tryTake bytes with
        | none => simp [htake] at h
        | some rest =>
            simp only [htake, Acquired.granted.injEq] at h
            rw [← h]
            rfl

theorem supports_of_waiting {flow : Option FlowCredit}
    (h : muxAcquireFlowCredit features flow bytes = .waiting) :
    features.supportsFlowControl = true := by
  unfold muxAcquireFlowCredit at h
  split_ifs at h with hskip
  · simpa using (not_or.mp hskip).1

end Emissions

/-- Streams are set up for what the host supports, only those with flow control wait, and
everything sent so far was permitted. -/
structure Inv (session : Session) (s : State) : Prop where
  equipped : ∀ handle stream, s.streams handle = some stream →
    stream.flow.isSome = session.host.supportsFlowControl
  parked : ∀ handle stream, s.streams handle = some stream → stream.waiting = true →
    session.host.supportsFlowControl = true
  handlerParked : ∀ id, s.waiting id = true → session.device.supportsFlowControl = true
  hostPermits : ∀ frame ∈ s.hostSent, session.host.Permits frame
  devicePermits : ∀ frame ∈ s.deviceSent, session.device.Permits frame
  toDevice : ∀ frame ∈ s.toDevice, frame ∈ s.hostSent
  toHost : ∀ frame ∈ s.toHost, frame ∈ s.deviceSent
  hostAccepts : s.hostRejected = false
  deviceAccepts : s.deviceRejected = false

section Inv

variable {session : Session} {s : State}

theorem Inv.initial : Inv session .initial where
  equipped _ _ h := nomatch h
  parked _ _ h := nomatch h
  handlerParked _ h := nomatch h
  hostPermits _ h := nomatch h
  devicePermits _ h := nomatch h
  toDevice _ h := nomatch h
  toHost _ h := nomatch h
  hostAccepts := rfl
  deviceAccepts := rfl

theorem Inv.setStream (h : Inv session s) {handle : Nat} {stream : Option DeviceStream}
    (hequipped : ∀ st ∈ stream, st.flow.isSome = session.host.supportsFlowControl)
    (hparked : ∀ st ∈ stream, st.waiting = true → session.host.supportsFlowControl = true) :
    Inv session (s.setStream handle stream) := by
  refine { h with equipped := ?_, parked := ?_ }
  all_goals
    intro other st hst
    simp only [State.setStream, Function.update_apply] at hst
    split_ifs at hst
  · exact hequipped st hst
  · exact h.equipped other st hst
  · exact hparked st hst
  · exact h.parked other st hst

theorem Inv.keepStream (h : Inv session s) {handle : Nat} {stream stream' : DeviceStream}
    (hstream : s.streams handle = some stream)
    (hflow : stream'.flow.isSome = stream.flow.isSome)
    (hwaiting : stream'.waiting = true → stream.waiting = true) :
    Inv session (s.setStream handle (some stream')) := by
  refine h.setStream ?_ ?_
  · rintro _ ⟨⟩
    exact hflow.trans (h.equipped handle stream hstream)
  · rintro _ ⟨⟩ hparked
    exact h.parked handle stream hstream (hwaiting hparked)

theorem Inv.setRoute (h : Inv session s) (id : UInt32) (route : Option Nat) :
    Inv session (s.setRoute id route) := { h with }

theorem Inv.setHostCancels (h : Inv session s) (tasks : List (UInt32 × Bytes)) :
    Inv session { s with hostCancels := tasks } := { h with }

theorem Inv.setDeviceCancels (h : Inv session s) (tasks : List (UInt32 × Bytes)) :
    Inv session { s with deviceCancels := tasks } := { h with }

theorem Inv.setCredit (h : Inv session s) (id : UInt32) (flow : Option FlowCredit) :
    Inv session (s.setCredit id flow) := { h with }

theorem Inv.setWaiting (h : Inv session s) {id : UInt32} {waiting : Bool}
    (hwaiting : waiting = true → session.device.supportsFlowControl = true) :
    Inv session (s.setWaiting id waiting) := by
  refine { h with handlerParked := ?_ }
  intro other hother
  simp only [State.setWaiting, Function.update_apply] at hother
  split_ifs at hother
  · exact hwaiting hother
  · exact h.handlerParked other hother

theorem Inv.hostSends (h : Inv session s) {frames : List Frame}
    (hframes : ∀ frame ∈ frames, session.host.Permits frame) :
    Inv session (s.hostSends frames) := by
  refine { h with hostPermits := ?_, toDevice := ?_ }
  · intro frame hframe
    rcases List.mem_append.mp hframe with hframe | hframe
    · exact h.hostPermits frame hframe
    · exact hframes frame hframe
  · intro frame hframe
    rcases List.mem_append.mp hframe with hframe | hframe
    · exact List.mem_append_left _ (h.toDevice frame hframe)
    · exact List.mem_append_right _ hframe

theorem Inv.deviceSends (h : Inv session s) {frames : List Frame}
    (hframes : ∀ frame ∈ frames, session.device.Permits frame) :
    Inv session (s.deviceSends frames) := by
  refine { h with devicePermits := ?_, toHost := ?_ }
  · intro frame hframe
    rcases List.mem_append.mp hframe with hframe | hframe
    · exact h.devicePermits frame hframe
    · exact hframes frame hframe
  · intro frame hframe
    rcases List.mem_append.mp hframe with hframe | hframe
    · exact List.mem_append_left _ (h.toHost frame hframe)
    · exact List.mem_append_right _ hframe

theorem Inv.hostReads (h : Inv session s) {frame : Frame} {rest : List Frame}
    (hwire : s.toHost = frame :: rest) : Inv session { s with toHost := rest } := by
  refine { h with toHost := ?_ }
  intro other hother
  exact h.toHost other (hwire ▸ List.mem_cons_of_mem _ hother)

theorem Inv.deviceReads (h : Inv session s) {frame : Frame} {rest : List Frame}
    (hwire : s.toDevice = frame :: rest) : Inv session { s with toDevice := rest } := by
  refine { h with toDevice := ?_ }
  intro other hother
  exact h.toDevice other (hwire ▸ List.mem_cons_of_mem _ hother)

theorem Inv.update_toHost (h : Inv session s) {frame : Frame} {rest : List Frame}
    (hwire : s.toHost = frame :: rest) (hkind : frame.kind = .streamWindowUpdate) :
    session.device.supportsFlowControl = true :=
  (h.devicePermits frame (h.toHost frame (hwire ▸ List.mem_cons_self))).2 hkind

theorem Inv.update_toDevice (h : Inv session s) {frame : Frame} {rest : List Frame}
    (hwire : s.toDevice = frame :: rest) (hkind : frame.kind = .streamWindowUpdate) :
    session.host.supportsFlowControl = true :=
  (h.hostPermits frame (h.toDevice frame (hwire ▸ List.mem_cons_self))).2 hkind

theorem Inv.step {action : Action} {t : State} (hfeatures : session.host = session.device)
    (h : Inv session s) (hstep : Step session s action t) : Inv session t := by
  cases hstep with
  | openStream _ hfree _ =>
      refine (h.setStream ?_ ?_).setRoute _ _
      · rintro _ ⟨⟩
        simp only [DeviceStream.new]
        cases session.host.supportsFlowControl <;> rfl
      · rintro _ ⟨⟩ hwaiting
        exact nomatch hwaiting
  | send _ _ hkind =>
      refine h.hostSends ?_
      simp only [List.mem_singleton, forall_eq]
      exact permits_of_ne (ne_of_ofHost hkind).1 (ne_of_ofHost hkind).2
  | sendChunk hstream _ hacquire =>
      refine (h.keepStream hstream (isSome_of_granted hacquire) (by simp)).hostSends ?_
      simp only [List.mem_singleton, forall_eq]
      exact permits_of_ne (by simp) (by simp)
  | park hstream _ hacquire =>
      have hequipped := h.equipped _ _ hstream
      refine h.setStream ?_ ?_
      · rintro _ ⟨⟩
        exact hequipped
      · rintro _ ⟨⟩ _
        exact hequipped ▸ isSome_of_waiting hacquire
  | stopWaiting hstream => exact h.keepStream hstream rfl (by simp)
  | grantWindow hstream _ hgrant =>
      exact h.hostSends (permits_grantWindow (h.equipped _ _ hstream) hgrant)
  | recv hstream _ => exact h.keepStream hstream rfl id
  | recvCanceled hstream => exact h.keepStream hstream rfl id
  | drop _ => exact ((h.setHostCancels _).setStream (by simp) (by simp)).setRoute _ _
  | cancelStream _ => exact (h.setHostCancels _).hostSends permits_sendStreamCancel
  | close => exact { h with }
  | rejectUpdate _ hwire hkind hflow =>
      rw [hfeatures, h.update_toHost hwire hkind] at hflow
      exact nomatch hflow
  | undecodedUpdate _ hwire | refuseUpdate _ hwire | strayUpdate _ hwire =>
      exact { h.hostReads hwire with }
  | addUpdate _ hwire _ _ _ _ hstream hcredit _ =>
      exact (h.hostReads hwire).keepStream hstream (by rw [hcredit]; rfl) id
  | readCancel _ hwire _ | dropFrame _ hwire _ _ => exact (h.hostReads hwire).setRoute _ _
  | deliver _ hwire _ _ _ hstream _ => exact (h.hostReads hwire).keepStream hstream rfl id
  | overflow _ hwire => exact ((h.hostReads hwire).setHostCancels _).setRoute _ _
  | respond _ hkind =>
      refine h.deviceSends ?_
      simp only [List.mem_singleton, forall_eq]
      exact permits_of_ne (ne_of_ofDevice hkind).1 (ne_of_ofDevice hkind).2
  | respondChunk =>
      refine ((h.setCredit _ _).setWaiting (by simp)).deviceSends ?_
      simp only [List.mem_singleton, forall_eq]
      exact permits_of_ne (by simp) (by simp)
  | parkHandler _ hacquire => exact h.setWaiting fun _ => supports_of_waiting hacquire
  | wakeHandler => exact h.setWaiting (by simp)
  | sendWindowUpdate _ hgrant => exact h.deviceSends (permits_sendWindowUpdate hgrant)
  | sendCancel => exact (h.setDeviceCancels _).deviceSends permits_sendCancel
  | finishStream | registerFlowStream _ => exact h.setCredit _ _
  | serveRejects _ hwire hkind hflow =>
      rw [← hfeatures, h.update_toDevice hwire hkind] at hflow
      exact nomatch hflow
  | serveUndecoded _ hwire | refuseFlowCredit _ hwire | strayFlowCredit _ hwire
  | dispatch _ hwire | serveOverflow _ hwire => exact { h.deviceReads hwire with }
  | addFlowCredit _ hwire => exact (h.deviceReads hwire).setCredit _ _
  | serveEnds => exact { h with }

end Inv

/-- Nothing was sent that was not negotiated, neither reader has met a window update that
it takes for an error, and whoever waits for credit waits for a side that sends its
grants. -/
structure Gated (session : Session) (s : State) : Prop where
  hostCancels : ∀ frame ∈ s.hostSent, frame.kind = .streamCancel →
    session.host.supportsStreamCancel = true
  hostUpdates : ∀ frame ∈ s.hostSent, frame.kind = .streamWindowUpdate →
    session.host.supportsFlowControl = true
  deviceCancels : ∀ frame ∈ s.deviceSent, frame.kind = .streamCancel →
    session.device.supportsStreamCancel = true
  deviceUpdates : ∀ frame ∈ s.deviceSent, frame.kind = .streamWindowUpdate →
    session.device.supportsFlowControl = true
  hostAccepts : s.hostRejected = false
  deviceAccepts : s.deviceRejected = false
  hostWaits : ∀ handle stream, s.streams handle = some stream → stream.waiting = true →
    ∀ bytes, 0 < bytes → sendWindowUpdate session.device session.deviceUpdates stream.id bytes =
      windowUpdate session.deviceUpdates stream.id bytes
  deviceWaits : ∀ handle stream, s.streams handle = some stream → s.waiting stream.id = true →
    ∀ bytes, 0 < bytes → stream.grantWindow session.hostUpdates bytes =
      windowUpdate session.hostUpdates stream.id bytes

theorem Inv.gated {session : Session} {s : State} (hfeatures : session.host = session.device)
    (h : Inv session s) : Gated session s where
  hostCancels frame hframe := (h.hostPermits frame hframe).1
  hostUpdates frame hframe := (h.hostPermits frame hframe).2
  deviceCancels frame hframe := (h.devicePermits frame hframe).1
  deviceUpdates frame hframe := (h.devicePermits frame hframe).2
  hostAccepts := h.hostAccepts
  deviceAccepts := h.deviceAccepts
  hostWaits handle stream hstream hwaiting bytes hbytes := by
    have hflow := h.parked handle stream hstream hwaiting
    rw [hfeatures] at hflow
    rw [sendWindowUpdate, if_neg (by simp [hflow, Nat.ne_of_gt hbytes])]
  deviceWaits handle stream hstream hwaiting bytes hbytes := by
    have hflow := h.handlerParked stream.id hwaiting
    rw [← hfeatures, ← h.equipped handle stream hstream] at hflow
    rw [DeviceStream.grantWindow, DeviceStream.usesFlowControl,
      if_neg (by simp [hflow, Nat.ne_of_gt hbytes])]

theorem gated_of_reachable {session : Session} {s : State}
    (hfeatures : session.host = session.device) (h : (system session).Reachable s) :
    Gated session s := by
  have hinv : Inv session s := by
    refine h.invariant ?_ fun _ _ _ => Inv.step hfeatures
    rintro _ rfl
    exact .initial
  exact hinv.gated hfeatures

/-- The features that a host uses once its handshake has returned `identity`. -/
def featuresOfHost {Cipher : Type} (identity : DeviceIdentity Cipher) : Features :=
  hostFeatures identity.protocol identity.capabilities

/-- The features that a device uses. -/
def featuresOfDevice {Cipher : Type} (identity : HostIdentity Cipher) : Features :=
  deviceFeatures identity.protocol identity.capabilities

/-- Two ends that have finished the handshake use the same features, and nothing that goes
over their session needs another one. -/
theorem features_gate_session {Handshake Cipher : Type} (host : Host Handshake Cipher)
    (device : Device Handshake Cipher) (connector : Connector)
    {hostSide : DeviceIdentity Cipher} {deviceSide : HostIdentity Cipher}
    {hostLink hostLink' deviceLink deviceLink' : Link}
    (hcodecs : Interoperable host.codecs device.codecs)
    (hhostSide : Returns (hostHandshake connector host) hostLink hostSide hostLink')
    (hdeviceSide : Returns (deviceHandshake connector device) deviceLink deviceSide deviceLink')
    (hundisturbed : Undisturbed host device hostSide deviceSide hostLink hostLink' deviceLink
      deviceLink') (hostUpdates deviceUpdates : Codec UInt32) :
    featuresOfHost hostSide = featuresOfDevice deviceSide ∧
      ∀ s, (system ⟨featuresOfHost hostSide, featuresOfDevice deviceSide, hostUpdates,
        deviceUpdates⟩).Reachable s →
          Gated ⟨featuresOfHost hostSide, featuresOfDevice deviceSide, hostUpdates,
            deviceUpdates⟩ s := by
  have hnegotiated := hundisturbed.negotiated hcodecs connector hhostSide hdeviceSide
  have hfeatures : featuresOfHost hostSide = featuresOfDevice deviceSide := by
    unfold featuresOfHost featuresOfDevice
    rw [hnegotiated.hostProtocol, hnegotiated.deviceProtocol, hnegotiated.hostCapabilities,
      hnegotiated.deviceCapabilities]
    rfl
  refine ⟨hfeatures, ?_⟩
  intro s hs
  exact gated_of_reachable hfeatures hs

theorem features_gate_session_pair :
    ∃ (hostSide : DeviceIdentity Unit) (deviceSide : HostIdentity Unit),
      featuresOfHost hostSide = featuresOfDevice deviceSide ∧
        ∀ s, (system ⟨featuresOfHost hostSide, featuresOfDevice deviceSide, singleCodec 1,
          singleCodec 1⟩).Reachable s →
            Gated ⟨featuresOfHost hostSide, featuresOfDevice deviceSide, singleCodec 1,
              singleCodec 1⟩ s := by
  obtain ⟨hostSide, deviceSide, _, _, _, _, hhost, hdevice, hauthentic⟩ :=
    outbound_session_finishes rfl rfl pair_acquainted
      ⟨conveys_singleCodec _, conveys_singleCodec _, conveys_singleCodec _, pair_completes⟩
      (by decide) (by decide) (conveys_singleCodec pairHello) (conveys_singleCodec pairAck)
  exact ⟨hostSide, deviceSide, features_gate_session pairHost pairDevice .device
    ⟨understands_singleCodec _, understands_singleCodec _, understands_singleCodec _,
      understands_singleCodec _⟩ hhost hdevice (.secure rfl rfl hauthentic) _ _⟩

end SideWire.NegotiatedSession
