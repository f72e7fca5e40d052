import SideWire.Base.ByteEmission
import SideWire.Base.TransitionSystem
import SideWire.RecordLayer
import Mathlib.Logic.Function.Basic

/-!
The task that writes the frames of all streams to one connection: the writer task of
`DeviceTransport::new` on the host, and that of `MuxWriter::new` on the device. The
noise state is the sending half, which only this task changes.
-/

namespace SideWire.SharedWriter

open SideWire.TransitionSystem
open SideWire.ByteString
open SideWire.ByteLink
open SideWire.FrameCodec
open SideWire.RecordLayer

def writerQueueCapacity : Nat := 16

def writerStopped : String := "device connection writer stopped"

/-- What differs between the two tasks: the error after a close, and whether the task
keeps a sender of its own queue alive. -/
structure WriterTask where
  closedError : String
  holdsSender : Bool
  deriving DecidableEq

def DeviceTransport.writerTask : WriterTask := ⟨"device connection is closed", true⟩
def MuxWriter.writerTask : WriterTask := ⟨writerStopped, false⟩

/-- A queued frame, with the number of the call that waits for `done`. -/
structure WriterCommand where
  frame : Frame
  done : Nat
  deriving DecidableEq

/-- The oneshot channel of a call. -/
inductive Completion
  | unset
  | sent (result : Except String Unit)
  | dropped

/-- Where a call of `queued_write` or `queue_frame` stands. -/
inductive Stage
  | sending
  | waiting
  | told (result : Except String Unit)
  | abandoned

structure Submission where
  frame : Frame
  stage : Stage

/-- Where the task stands. A write under way has had so many answers of the socket. In
`leaving` the loop is over, in `signaled` the connection is marked closed, and at the
end the queue is dropped. -/
inductive Phase
  | top
  | receiving
  | received (command : WriterCommand)
  | writing (command : WriterCommand) (answers : List Nat)
  | failing (command : WriterCommand) (message : String)
  | leaving
  | signaled
  | ended

/-- The command that the task has taken off the queue. -/
def Phase.held : Phase → List WriterCommand
  | .received command | .writing command _ | .failing command _ => [command]
  | _ => []

/-- No write is under way, nor will one be. -/
def Phase.over : Phase → Bool
  | .failing _ _ | .leaving | .signaled | .ended => true
  | _ => false

/-- `closed` is the `closed` flag of the host and the `failed` flag of the device. A
closer that has set it has still to notify the task, and `notified` says that the
notification has come since the task last asked for one. The lists at the end are the
commands that ever entered the queue, and those that have been written. -/
structure State (Cipher : Type) where
  closed : Bool
  notifying : Bool
  notified : Bool
  attached : Bool
  queue : List WriterCommand
  phase : Phase
  noise : Option (TransportState Cipher)
  outgoing : Bytes
  submissions : Nat → Option Submission
  completions : Nat → Completion
  accepted : List WriterCommand
  written : List WriterCommand

variable {Handshake Cipher : Type}

def State.initial (noise : Option (TransportState Cipher)) : State Cipher where
  closed := false
  notifying := false
  notified := false
  attached := true
  queue := []
  phase := .top
  noise := noise
  outgoing := []
  submissions _ := none
  completions _ := .unset
  accepted := []
  written := []

variable (snow : Snow Handshake Cipher) (build : Build)

/-- `SecureFrameWriter::write_frame`. -/
def writeFrame (noise : Option (TransportState Cipher)) (frame : Frame) :
    Io String (Option (TransportState Cipher)) :=
  writeRaw snow build noise frame.kind frame.streamId frame.payload

namespace State

variable (s : State Cipher)

/-- A write that has had some answers. -/
def progress (command : WriterCommand) (answers : List Nat) :
    Except (Failure String) (Option (TransportState Cipher)) × Link :=
  underWay (writeFrame snow build s.noise command.frame) s.outgoing answers

/-- The bytes that have been put on the connection. -/
def connection : Bytes :=
  match s.phase with
  | .writing command answers => (s.progress snow build command answers).2.outgoing
  | _ => s.outgoing

/-- The call has not come back. -/
def Pending (call : Nat) : Prop :=
  ∃ frame, s.submissions call = some ⟨frame, .sending⟩ ∨
    s.submissions call = some ⟨frame, .waiting⟩

def submission (call : Nat) (frame : Frame) (stage : Stage) : Nat → Option Submission :=
  Function.update s.submissions call (some ⟨frame, stage⟩)

def completion (call : Nat) (result : Except String Unit) : Nat → Completion :=
  Function.update s.completions call (.sent result)

/-- The completions once the queue is dropped. -/
def droppedCompletions : Nat → Completion := fun call =>
  if call ∈ s.queue.map WriterCommand.done then .dropped else s.completions call

end State

inductive Actor
  | caller
  | closer
  | writer
  deriving DecidableEq

inductive Step (task : WriterTask) : State Cipher → Actor → State Cipher → Prop
  -- `enqueue_write` and `queued_write`, or `queue_frame`
  | submit {s call frame} (hfresh : s.submissions call = none) (hattached : s.attached = true)
      (hclosed : s.closed = false) :
      Step task s .caller { s with submissions := s.submission call frame .sending }
  | refuse {s call frame} (hfresh : s.submissions call = none) (hattached : s.attached = true)
      (hclosed : s.closed = true) :
      Step task s .caller { s with
        submissions := s.submission call frame (.told (.error task.closedError)) }
  | send {s call frame} (hcall : s.submissions call = some ⟨frame, .sending⟩)
      (hlive : s.phase ≠ .ended) (hroom : s.queue.length < writerQueueCapacity) :
      Step task s .caller { s with
        submissions := s.submission call frame .waiting
        queue := s.queue ++ [⟨frame, call⟩], accepted := s.accepted ++ [⟨frame, call⟩] }
  | sendFails {s call frame} (hcall : s.submissions call = some ⟨frame, .sending⟩)
      (hended : s.phase = .ended) :
      Step task s .caller { s with
        submissions := s.submission call frame (.told (.error writerStopped)) }
  | hear {s call frame result} (hcall : s.submissions call = some ⟨frame, .waiting⟩)
      (hsent : s.completions call = .sent result) :
      Step task s .caller { s with submissions := s.submission call frame (.told result) }
  | hearDropped {s call frame} (hcall : s.submissions call = some ⟨frame, .waiting⟩)
      (hdropped : s.completions call = .dropped) :
      Step task s .caller { s with
        submissions := s.submission call frame (.told (.error writerStopped)) }
  | abandonSend {s call frame} (hcall : s.submissions call = some ⟨frame, .sending⟩) :
      Step task s .caller { s with submissions := s.submission call frame .abandoned }
  | abandonWait {s call frame} (hcall : s.submissions call = some ⟨frame, .waiting⟩) :
      Step task s .caller { s with submissions := s.submission call frame .abandoned }
  -- all handles of the writer are gone
  | detach {s} (hsender : task.holdsSender = false) (hidle : ∀ call, ¬ s.Pending call) :
      Step task s .caller { s with attached := false }
  -- `signal_closed` or `MuxWriter::close`
  | close {s} (hattached : s.attached = true) (hclosed : s.closed = false) :
      Step task s .closer { s with closed := true, notifying := true }
  | notify {s} (hnotifying : s.notifying = true) :
      Step task s .closer { s with notifying := false, notified := true }
  -- the writer task
  | arm {s} (hphase : s.phase = .top) (hclosed : s.closed = false) :
      Step task s .writer { s with phase := .receiving, notified := false }
  | seeClosed {s} (hphase : s.phase = .top) (hclosed : s.closed = true) :
      Step task s .writer { s with phase := .leaving }
  | shutdown {s} (hphase : s.phase = .receiving) (hnotified : s.notified = true) :
      Step task s .writer { s with phase := .leaving }
  | receive {s command rest} (hphase : s.phase = .receiving)
      (hqueue : s.queue = command :: rest) :
      Step task s .writer { s with phase := .received command, queue := rest }
  | disconnected {s} (hphase : s.phase = .receiving) (hqueue : s.queue = [])
      (hattached : s.attached = false) :
      Step task s .writer { s with phase := .leaving }
  | startWrite {s command} (hphase : s.phase = .received command)
      (hclosed : s.closed = false) :
      Step task s .writer { s with phase := .writing command [], notified := false }
  | refuseWrite {s command} (hphase : s.phase = .received command)
      (hclosed : s.closed = true) :
      Step task s .writer { s with phase := .failing command task.closedError }
  | answer {s command answers taken link} (hphase : s.phase = .writing command answers)
      (hwaits : s.progress snow build command answers = (.error (.io .broken), link)) :
      Step task s .writer { s with phase := .writing command (answers ++ [taken]) }
  | finishWrite {s command answers noise link} (hphase : s.phase = .writing command answers)
      (hreturns : s.progress snow build command answers = (.ok noise, link)) :
      Step task s .writer { s with
        phase := .top, noise := noise, outgoing := link.outgoing
        completions := s.completion command.done (.ok ())
        written := s.written ++ [command] }
  | failWrite {s command answers failure link message}
      (hphase : s.phase = .writing command answers)
      (hfails : s.progress snow build command answers = (.error failure, link))
      (hmessage : ∀ raised, failure = .raised raised → message = raised) :
      Step task s .writer { s with
        phase := .failing command message, outgoing := link.outgoing }
  | cancelWrite {s command answers} (hphase : s.phase = .writing command answers)
      (hnotified : s.notified = true) :
      Step task s .writer { s with
        phase := .failing command task.closedError, outgoing := s.connection snow build }
  | report {s command message} (hphase : s.phase = .failing command message) :
      Step task s .writer { s with
        phase := .leaving, completions := s.completion command.done (.error message) }
  | signal {s} (hphase : s.phase = .leaving) :
      Step task s .writer { s with phase := .signaled, closed := true }
  | finish {s} (hphase : s.phase = .signaled) :
      Step task s .writer { s with
        phase := .ended, queue := [], completions := s.droppedCompletions }

def system (task : WriterTask) (noise : Option (TransportState Cipher)) :
    System (State Cipher) Actor where
  init := fun s => s = .initial noise
  step := Step snow build task

end SideWire.SharedWriter
