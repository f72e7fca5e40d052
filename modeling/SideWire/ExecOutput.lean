import SideWire.Base.OrderedChannel
import SideWire.Base.TransitionSystem
import SideWire.ProcessCancellation
import SideWire.FrameCodec
import Mathlib.Logic.Function.Basic

/-!
What `handle_exec` sends of a command's output, up to where the stream on the host hands it
out. How the handler comes to be canceled is in `ProcessCancellation`; here it may fail at
any time.
-/

namespace SideWire.ExecOutput

open SideWire.ByteString
open SideWire.FrameCodec
open SideWire.OrderedChannel
open SideWire.ProcessCancellation (execBufferSize)
open SideWire.TransitionSystem

inductive Output
  | stdout
  | stderr
  deriving DecidableEq

def Output.kind : Output → FrameKind
  | .stdout => .execStdout
  | .stderr => .execStderr

/-- What the handler has read from a pipe, and what is still in it. -/
structure Pipe where
  read : Bytes
  data : Bytes
  isOpen : Bool
  deriving DecidableEq

namespace Pipe

variable (pipe : Pipe)

def written : Bytes := pipe.read ++ pipe.data

def Drained : Prop := pipe.data = [] ∧ pipe.isOpen = false

def write (bytes : Bytes) : Pipe := { pipe with data := pipe.data ++ bytes }

def close : Pipe := { pipe with isOpen := false }

end Pipe

/-- The code of an exit status is `none` where a signal has ended the process. -/
inductive Status
  | unborn
  | running
  | exited (code : Option Int)

structure Command where
  pipe : Output → Pipe
  status : Status

namespace Command

def unborn : Command := ⟨fun _ => ⟨[], [], false⟩, .unborn⟩

def spawned : Command := ⟨fun _ => ⟨[], [], true⟩, .running⟩

def setPipe (command : Command) (output : Output) (pipe : Pipe) : Command :=
  { command with pipe := Function.update command.pipe output pipe }

@[simp] theorem status_setPipe (command : Command) (output : Output) (pipe : Pipe) :
    (command.setPipe output pipe).status = command.status := rfl

end Command

/-- Where `handle_exec` stands, with `stdout_done` and `stderr_done` in its loop, and where
`send_error` stands after it. -/
inductive Phase
  | starting
  | reading (done : Output → Bool)
  | sending (output : Output) (chunk : Bytes) (done : Output → Bool)
  | waiting
  | exiting (payload : Bytes)
  | failing
  | ended

namespace Phase

def Running : Phase → Prop
  | .failing | .ended => False
  | _ => True

/-- What has been read and is not sent. -/
def hand : Phase → Output → Bytes
  | .sending output chunk _ => Function.update (fun _ => []) output chunk
  | _ => fun _ => []

def done : Phase → Output → Bool
  | .reading done | .sending _ _ done => done
  | .waiting | .exiting _ => fun _ => true
  | _ => fun _ => false

end Phase

/-- The stream of a command, and the encoding of an `ExecExit`. -/
structure Exec where
  streamId : UInt32
  encodeExit : Option Int → Except String Bytes

namespace Exec

variable (exec : Exec)

def outputFrame (output : Output) (chunk : Bytes) : Frame := ⟨output.kind, exec.streamId, chunk⟩

def exitFrame (payload : Bytes) : Frame := ⟨.execExit, exec.streamId, payload⟩

def errorFrame (message : Bytes) : Frame := ⟨.error, exec.streamId, message⟩

end Exec

/-- The link is all that lies between the handler and `recv` on the host. -/
structure Device where
  command : Command
  phase : Phase
  link : Channel Frame

def Device.initial : Device := ⟨.unborn, .starting, .empty⟩

/-- The `select!` is biased: the standard error has its turn while the standard output has
nothing to say. -/
def Device.Turn (d : Device) (done : Output → Bool) : Output → Prop
  | .stdout => True
  | .stderr => done .stdout = true ∨
      (d.command.pipe .stdout).data = [] ∧ (d.command.pipe .stdout).isOpen = true

inductive Action
  | command
  | handler
  | fails
  | cuts
  | host (frame : Frame)

inductive Step (exec : Exec) : Device → Action → Device → Prop
  -- the command, and all that have its pipes
  | write {d : Device} {output : Output} (bytes : Bytes)
      (hopen : (d.command.pipe output).isOpen = true) :
      Step exec d .command { d with
        command := d.command.setPipe output ((d.command.pipe output).write bytes) }
  | close {d : Device} {output : Output} :
      Step exec d .command { d with
        command := d.command.setPipe output (d.command.pipe output).close }
  | exit {d : Device} (code : Option Int) (hrunning : d.command.status = .running) :
      Step exec d .command { d with command := { d.command with status := .exited code } }
  -- `handle_exec`
  | spawn {d : Device} (hphase : d.phase = .starting) :
      Step exec d .handler { d with command := .spawned, phase := .reading fun _ => false }
  | read {d : Device} {done : Output → Bool} {output : Output} {chunk rest : Bytes}
      (hphase : d.phase = .reading done) (hdone : done output = false)
      (hturn : d.Turn done output) (hdata : (d.command.pipe output).data = chunk ++ rest)
      (hchunk : chunk ≠ [] ∧ chunk.length ≤ execBufferSize) :
      Step exec d .handler { d with
        command := d.command.setPipe output { d.command.pipe output with
          read := (d.command.pipe output).read ++ chunk, data := rest }
        phase := .sending output chunk done }
  | eof {d : Device} {done : Output → Bool} {output : Output}
      (hphase : d.phase = .reading done) (hdone : done output = false)
      (hturn : d.Turn done output) (hdrained : (d.command.pipe output).Drained) :
      Step exec d .handler { d with phase := .reading (Function.update done output true) }
  | send {d : Device} {done : Output → Bool} {output : Output} {chunk : Bytes}
      (hphase : d.phase = .sending output chunk done) :
      Step exec d .handler { d with
        phase := .reading done, link := d.link.put (exec.outputFrame output chunk) }
  | leave {d : Device} {done : Output → Bool} (hphase : d.phase = .reading done)
      (hdone : ∀ output, done output = true) :
      Step exec d .handler { d with phase := .waiting }
  | wait {d : Device} {code : Option Int} {payload : Bytes} (hphase : d.phase = .waiting)
      (hstatus : d.command.status = .exited code) (hencode : exec.encodeExit code = .ok payload) :
      Step exec d .handler { d with phase := .exiting payload }
  | sendExit {d : Device} {payload : Bytes} (hphase : d.phase = .exiting payload) :
      Step exec d .handler { d with
        phase := .ended, link := d.link.put (exec.exitFrame payload) }
  -- `?`, a cancellation, and `send_error`, which is silent on a stream that is canceled
  | fail {d : Device} (hrunning : d.phase.Running) :
      Step exec d .fails { d with phase := .failing }
  | sendError {d : Device} (message : Bytes) (hphase : d.phase = .failing) :
      Step exec d .fails { d with
        phase := .ended, link := d.link.put (exec.errorFrame message) }
  | dropError {d : Device} (hphase : d.phase = .failing) :
      Step exec d .fails { d with phase := .ended }
  -- the stream on the host
  | recv {d : Device} {frame : Frame} {rest : List Frame}
      (hqueue : d.link.queue = frame :: rest) :
      Step exec d (.host frame) { d with link := d.link.take frame rest hqueue }
  | cut {d : Device} {kept : List Frame} (hkept : kept <+: d.link.queue) :
      Step exec d .cuts { d with link := d.link.cut kept hkept }

def system (exec : Exec) : System Device Action where
  init d := d = .initial
  step := Step exec

/-! What is sent is what was read. -/

def IsOutput (frame : Frame) : Prop := frame.kind = .execStdout ∨ frame.kind = .execStderr

/-- The bytes that frames of one kind carry. -/
def payloads (kind : FrameKind) (frames : List Frame) : Bytes :=
  frames.flatMap fun frame => if frame.kind = kind then frame.payload else []

@[simp] theorem payloads_append (kind : FrameKind) (front back : List Frame) :
    payloads kind (front ++ back) = payloads kind front ++ payloads kind back :=
  List.flatMap_append

theorem payloads_singleton_of_ne {kind : FrameKind} {frame : Frame} (h : frame.kind ≠ kind) :
    payloads kind [frame] = [] := by
  simp [payloads, h]

theorem payloads_singleton_self (frame : Frame) :
    payloads frame.kind [frame] = frame.payload := by
  simp [payloads]

theorem payloads_prefix {front frames : List Frame} (kind : FrameKind) (h : front <+: frames) :
    payloads kind front <+: payloads kind frames := by
  obtain ⟨back, rfl⟩ := h
  rw [payloads_append]
  exact List.prefix_append _ _

theorem kind_injective {output other : Output} (h : output.kind = other.kind) :
    output = other := by
  cases output <;> cases other <;> first | rfl | cases h

theorem isOutput_iff {frame : Frame} :
    IsOutput frame ↔ ∃ output : Output, frame.kind = output.kind := by
  constructor
  · rintro (h | h)
    exacts [⟨.stdout, h⟩, ⟨.stderr, h⟩]
  · rintro ⟨output, h⟩
    cases output
    exacts [.inl h, .inr h]

theorem payloads_outputFrame (exec : Exec) (output other : Output) (chunk : Bytes) :
    payloads other.kind [exec.outputFrame output chunk] =
      Function.update (fun _ => []) output chunk other := by
  by_cases heq : other = output
  · subst heq
    rw [Function.update_self]
    exact payloads_singleton_self (exec.outputFrame other chunk)
  · rw [Function.update_of_ne heq]
    exact payloads_singleton_of_ne fun hkind => heq (kind_injective hkind).symm

theorem payloads_exitFrame (exec : Exec) (output : Output) (payload : Bytes) :
    payloads output.kind [exec.exitFrame payload] = [] :=
  payloads_singleton_of_ne (by cases output <;> exact nofun)

theorem payloads_errorFrame (exec : Exec) (output : Output) (message : Bytes) :
    payloads output.kind [exec.errorFrame message] = [] :=
  payloads_singleton_of_ne (by cases output <;> exact nofun)

/-- A running handler has sent output only, and holds the rest of what it has read. -/
structure Relaying (d : Device) : Prop where
  outputs : ∀ frame ∈ d.link.sent, IsOutput frame
  bytes : ∀ output, payloads output.kind d.link.sent ++ d.phase.hand output =
    (d.command.pipe output).read
  drained : ∀ output, d.phase.done output = true → (d.command.pipe output).Drained

/-- The frames carry the beginning of what was read. -/
structure Behind (d : Device) (frames : List Frame) : Prop where
  outputs : ∀ frame ∈ frames, IsOutput frame
  bytes : ∀ output, payloads output.kind frames <+: (d.command.pipe output).read

/-- All of the output has been sent, and the exit code behind it. -/
structure Complete (exec : Exec) (d : Device) (front : List Frame) (code : Option Int)
    (payload : Bytes) : Prop where
  sent : d.link.sent = front ++ [exec.exitFrame payload]
  outputs : ∀ frame ∈ front, IsOutput frame
  bytes : ∀ output, payloads output.kind front = (d.command.pipe output).written
  drained : ∀ output, (d.command.pipe output).Drained
  status : d.command.status = .exited code
  encode : exec.encodeExit code = .ok payload

/-- The handler has failed on the way. -/
def Broken (exec : Exec) (d : Device) : Prop :=
  ∃ front, Behind d front ∧
    (d.link.sent = front ∨ ∃ message, d.link.sent = front ++ [exec.errorFrame message])

structure Inv (exec : Exec) (d : Device) : Prop where
  starting : d.phase = .starting → d.link.sent = [] ∧ d.command.status = .unborn
  running : d.phase.Running → Relaying d
  exiting : ∀ payload, d.phase = .exiting payload →
    ∃ code, d.command.status = .exited code ∧ exec.encodeExit code = .ok payload
  failing : d.phase = .failing → Behind d d.link.sent
  ended : d.phase = .ended → (∃ front code payload, Complete exec d front code payload) ∨
    Broken exec d

section Steps

variable {exec : Exec} {d d' : Device} {a : Action}

theorem Command.pipe_setPipe_self (command : Command) (output : Output) (pipe : Pipe) :
    (command.setPipe output pipe).pipe output = pipe := Function.update_self ..

theorem Command.pipe_setPipe_of_ne (command : Command) {output other : Output} (pipe : Pipe)
    (h : other ≠ output) : (command.setPipe output pipe).pipe other = command.pipe other :=
  Function.update_of_ne h ..

/-- What a command does on its own. -/
structure Command.Grows (command command' : Command) : Prop where
  read : ∀ output, (command'.pipe output).read = (command.pipe output).read
  drained : ∀ output, (command.pipe output).Drained → command'.pipe output = command.pipe output
  status : ∀ code, command.status = .exited code → command'.status = .exited code
  unborn : command.status = .unborn → command'.status = .unborn

theorem Command.grows_setPipe {command : Command} {output : Output} {pipe : Pipe}
    (hread : pipe.read = (command.pipe output).read)
    (hdrained : (command.pipe output).Drained → pipe = command.pipe output) :
    command.Grows (command.setPipe output pipe) where
  read other := by
    by_cases heq : other = output
    · subst heq
      rw [Command.pipe_setPipe_self, hread]
    · rw [Command.pipe_setPipe_of_ne _ _ heq]
  drained other hother := by
    by_cases heq : other = output
    · subst heq
      rw [Command.pipe_setPipe_self, hdrained hother]
    · rw [Command.pipe_setPipe_of_ne _ _ heq]
  status _ hstatus := hstatus
  unborn hstatus := hstatus

theorem command_step (h : Step exec d .command d') :
    d'.phase = d.phase ∧ d'.link = d.link ∧ d.command.Grows d'.command := by
  cases h with
  | @write output bytes hopen =>
      refine ⟨rfl, rfl, Command.grows_setPipe rfl fun hdrained => ?_⟩
      exact absurd hdrained.2 (by simp [hopen])
  | @close output =>
      refine ⟨rfl, rfl, Command.grows_setPipe rfl fun hdrained => ?_⟩
      rw [Pipe.close, ← hdrained.2]
  | exit code hrunning =>
      exact ⟨rfl, rfl, fun _ => rfl, fun _ _ => rfl,
        fun code' hstatus => absurd hstatus (by simp [hrunning]),
        fun hstatus => absurd hstatus (by simp [hrunning])⟩

theorem Behind.mono {frames : List Frame} (h : Behind d frames)
    (hread : ∀ output, (d.command.pipe output).read <+: (d'.command.pipe output).read) :
    Behind d' frames where
  outputs := h.outputs
  bytes output := (h.bytes output).trans (hread output)

theorem Relaying.behind (h : Relaying d) : Behind d d.link.sent where
  outputs := h.outputs
  bytes output := ⟨_, h.bytes output⟩

theorem Relaying.turn {phase : Phase} (h : Relaying d) (hhand : phase.hand = d.phase.hand)
    (hdrained : ∀ output, phase.done output = true → (d.command.pipe output).Drained) :
    Relaying { d with phase := phase } where
  outputs := h.outputs
  bytes := by
    rw [hhand]
    exact h.bytes
  drained := hdrained

theorem Relaying.command (h : Relaying d) (hphase : d'.phase = d.phase) (hlink : d'.link = d.link)
    (hgrows : d.command.Grows d'.command) : Relaying d' where
  outputs := by
    rw [hlink]
    exact h.outputs
  bytes output := by
    rw [hlink, hphase, hgrows.read]
    exact h.bytes output
  drained output hdone := by
    have hdrained := h.drained output (hphase ▸ hdone)
    rwa [hgrows.drained output hdrained]

theorem Complete.command {front : List Frame} {code : Option Int} {payload : Bytes}
    (h : Complete exec d front code payload) (hlink : d'.link = d.link)
    (hgrows : d.command.Grows d'.command) : Complete exec d' front code payload where
  sent := hlink ▸ h.sent
  outputs := h.outputs
  bytes output := by
    rw [hgrows.drained output (h.drained output)]
    exact h.bytes output
  drained output := by
    rw [hgrows.drained output (h.drained output)]
    exact h.drained output
  status := hgrows.status code h.status
  encode := h.encode

theorem Broken.command (h : Broken exec d) (hlink : d'.link = d.link)
    (hgrows : d.command.Grows d'.command) : Broken exec d' := by
  obtain ⟨front, hbehind, hsent⟩ := h
  refine ⟨front, hbehind.mono fun output => ?_, hlink ▸ hsent⟩
  rw [hgrows.read]

theorem Inv.command (h : Inv exec d) (hstep : Step exec d .command d') : Inv exec d' := by
  obtain ⟨hphase, hlink, hgrows⟩ := command_step hstep
  constructor
  · intro hstarting
    obtain ⟨hsent, hstatus⟩ := h.starting (hphase ▸ hstarting)
    exact ⟨hlink ▸ hsent, hgrows.unborn hstatus⟩
  · intro hrunning
    exact (h.running (hphase ▸ hrunning)).command hphase hlink hgrows
  · intro payload hexiting
    obtain ⟨code, hstatus, hencode⟩ := h.exiting payload (hphase ▸ hexiting)
    exact ⟨code, hgrows.status code hstatus, hencode⟩
  · intro hfailing
    rw [hlink]
    exact (h.failing (hphase ▸ hfailing)).mono fun output => by rw [hgrows.read]
  · intro hended
    rcases h.ended (hphase ▸ hended) with ⟨front, code, payload, hcomplete⟩ | hbroken
    · exact .inl ⟨front, code, payload, hcomplete.command hlink hgrows⟩
    · exact .inr (hbroken.command hlink hgrows)

theorem Inv.link {link : Channel Frame} (h : Inv exec d) (hsent : link.sent = d.link.sent) :
    Inv exec { d with link := link } where
  starting hstarting := ⟨hsent.trans (h.starting hstarting).1, (h.starting hstarting).2⟩
  running hrunning := by
    obtain ⟨houtputs, hbytes, hdrained⟩ := h.running hrunning
    exact ⟨by rwa [hsent], by simpa only [hsent] using hbytes, hdrained⟩
  exiting := h.exiting
  failing hfailing := by
    obtain ⟨houtputs, hbytes⟩ := h.failing hfailing
    exact ⟨by rwa [hsent], by simpa only [hsent] using hbytes⟩
  ended hended := by
    rcases h.ended hended with ⟨front, code, payload, hcomplete⟩ | ⟨front, hbehind, hlast⟩
    · obtain ⟨hsent', houtputs, hbytes, hdrained, hstatus, hencode⟩ := hcomplete
      exact .inl ⟨front, code, payload, hsent.trans hsent', houtputs, hbytes, hdrained, hstatus,
        hencode⟩
    · exact .inr ⟨front, ⟨hbehind.outputs, hbehind.bytes⟩, by rwa [hsent]⟩

theorem Relaying.inv (h : Relaying d) (hrunning : d.phase.Running)
    (hstarting : d.phase ≠ .starting) (hexiting : ∀ payload, d.phase ≠ .exiting payload) :
    Inv exec d where
  starting hphase := absurd hphase hstarting
  running _ := h
  exiting payload hphase := absurd hphase (hexiting payload)
  failing hphase := by simp [hphase, Phase.Running] at hrunning
  ended hphase := by simp [hphase, Phase.Running] at hrunning

theorem Relaying.read {done : Output → Bool} {output : Output} {chunk rest : Bytes}
    (h : Relaying d) (hphase : d.phase = .reading done) (hdone : done output = false) :
    Relaying { d with
      command := d.command.setPipe output { d.command.pipe output with
        read := (d.command.pipe output).read ++ chunk, data := rest }
      phase := .sending output chunk done } where
  outputs := h.outputs
  bytes other := by
    have hbytes := h.bytes other
    simp only [hphase, Phase.hand, List.append_nil] at hbytes ⊢
    by_cases heq : other = output
    · subst heq
      rw [Command.pipe_setPipe_self, Function.update_self, hbytes]
    · rw [Command.pipe_setPipe_of_ne _ _ heq, Function.update_of_ne heq, List.append_nil, hbytes]
  drained other hother := by
    have hne : other ≠ output := by
      rintro rfl
      simp [Phase.done, hdone] at hother
    have hdrained := h.drained other (by rw [hphase]; exact hother)
    rwa [Command.pipe_setPipe_of_ne _ _ hne]

theorem Relaying.send {done : Output → Bool} {output : Output} {chunk : Bytes}
    (h : Relaying d) (hphase : d.phase = .sending output chunk done) :
    Relaying { d with
      phase := .reading done, link := d.link.put (exec.outputFrame output chunk) } where
  outputs := List.forall_mem_append.mpr
    ⟨h.outputs, List.forall_mem_singleton.mpr (isOutput_iff.mpr ⟨output, rfl⟩)⟩
  bytes other := by
    have hbytes := h.bytes other
    simp only [hphase, Phase.hand] at hbytes
    simp only [Phase.hand, Channel.sent_put, payloads_append, payloads_outputFrame,
      List.append_nil]
    exact hbytes
  drained other hother := h.drained other (by rw [hphase]; exact hother)

theorem Relaying.complete {payload : Bytes} {code : Option Int} (h : Relaying d)
    (hphase : d.phase = .exiting payload) (hstatus : d.command.status = .exited code)
    (hencode : exec.encodeExit code = .ok payload) :
    Complete exec { d with phase := .ended, link := d.link.put (exec.exitFrame payload) }
      d.link.sent code payload where
  sent := rfl
  outputs := h.outputs
  bytes output := by
    have hbytes := h.bytes output
    have hdrained := h.drained output (by simp [hphase, Phase.done])
    simp only [hphase, Phase.hand, List.append_nil] at hbytes
    rw [Pipe.written, hdrained.1, List.append_nil, hbytes]
  drained output := h.drained output (by simp [hphase, Phase.done])
  status := hstatus
  encode := hencode

theorem Inv.handler (h : Inv exec d) (hstep : Step exec d .handler d') : Inv exec d' := by
  cases hstep with
  | spawn hphase =>
      have hsent := (h.starting hphase).1
      refine Relaying.inv ⟨?_, fun output => ?_, fun output hdone => ?_⟩ trivial nofun nofun
      · simp [hsent]
      · simp [hsent, payloads, Phase.hand, Command.spawned]
      · simp [Phase.done] at hdone
  | @read done output chunk rest hphase hdone hturn hdata hchunk =>
      have hrelaying := h.running (by simp [hphase, Phase.Running])
      exact (hrelaying.read hphase hdone).inv trivial nofun nofun
  | @eof done output hphase hdone hturn hdrained =>
      have hrelaying := h.running (by simp [hphase, Phase.Running])
      refine (hrelaying.turn (by simp [hphase, Phase.hand]) fun other hother => ?_).inv trivial
        nofun nofun
      by_cases heq : other = output
      · exact heq ▸ hdrained
      · exact hrelaying.drained other (by simpa [hphase, Phase.done, heq] using hother)
  | send hphase =>
      have hrelaying := h.running (by simp [hphase, Phase.Running])
      exact (hrelaying.send hphase).inv trivial nofun nofun
  | leave hphase hdone =>
      have hrelaying := h.running (by simp [hphase, Phase.Running])
      exact (hrelaying.turn (by simp [hphase, Phase.hand]) fun output _ =>
        hrelaying.drained output (by simp [hphase, Phase.done, hdone])).inv trivial nofun nofun
  | @wait code payload hphase hstatus hencode =>
      have hrelaying := h.running (by simp [hphase, Phase.Running])
      refine ⟨nofun, fun _ => hrelaying.turn (by simp [hphase, Phase.hand]) fun output _ =>
        hrelaying.drained output (by simp [hphase, Phase.done]), ?_, nofun, nofun⟩
      intro payload' hexiting
      obtain rfl := Phase.exiting.inj hexiting
      exact ⟨code, hstatus, hencode⟩
  | @sendExit payload hphase =>
      obtain ⟨code, hstatus, hencode⟩ := h.exiting payload hphase
      have hrelaying := h.running (by simp [hphase, Phase.Running])
      exact ⟨nofun, nofun, nofun, nofun, fun _ =>
        .inl ⟨_, code, payload, hrelaying.complete hphase hstatus hencode⟩⟩

theorem Inv.fails (h : Inv exec d) (hstep : Step exec d .fails d') : Inv exec d' := by
  cases hstep with
  | fail hrunning =>
      have hbehind := (h.running hrunning).behind
      exact ⟨nofun, nofun, nofun, fun _ => hbehind.mono fun _ => List.prefix_refl _, nofun⟩
  | sendError message hphase =>
      have hbehind := h.failing hphase
      exact ⟨nofun, nofun, nofun, nofun, fun _ =>
        .inr ⟨_, hbehind.mono fun _ => List.prefix_refl _, .inr ⟨message, rfl⟩⟩⟩
  | dropError hphase =>
      have hbehind := h.failing hphase
      exact ⟨nofun, nofun, nofun, nofun, fun _ =>
        .inr ⟨_, hbehind.mono fun _ => List.prefix_refl _, .inl rfl⟩⟩

theorem Inv.step (h : Inv exec d) (hstep : Step exec d a d') : Inv exec d' := by
  cases a with
  | command => exact h.command hstep
  | handler => exact h.handler hstep
  | fails => exact h.fails hstep
  | cuts =>
      cases hstep with
      | cut hkept => exact h.link rfl
  | host frame =>
      cases hstep with
      | recv hqueue => exact h.link rfl

theorem inv_of_reachable (h : (system exec).Reachable d) : Inv exec d := by
  refine h.invariant ?_ fun _ _ _ hinv hstep => hinv.step hstep
  rintro _ rfl
  refine ⟨fun _ => ⟨rfl, rfl⟩, fun _ => ⟨nofun, fun output => rfl, ?_⟩, nofun, nofun, nofun⟩
  intro output hdone
  simp [Device.initial, Phase.done] at hdone

/-- Nothing that was not read is ever sent, and nothing twice. -/
theorem Inv.behind (h : Inv exec d) (output : Output) :
    payloads output.kind d.link.sent <+: (d.command.pipe output).written := by
  have hread : (d.command.pipe output).read <+: (d.command.pipe output).written :=
    List.prefix_append _ _
  by_cases hrunning : d.phase.Running
  · exact ((h.running hrunning).behind.bytes output).trans hread
  cases hphase : d.phase with
  | failing => exact ((h.failing hphase).bytes output).trans hread
  | ended =>
      rcases h.ended hphase with ⟨front, code, payload, hcomplete⟩ | ⟨front, hbehind, hlast⟩
      · rw [hcomplete.sent, payloads_append, payloads_exitFrame, List.append_nil,
          hcomplete.bytes output]
      · have hfront : payloads output.kind d.link.sent = payloads output.kind front := by
          rcases hlast with hsent | ⟨message, hsent⟩
          · rw [hsent]
          · rw [hsent, payloads_append, payloads_errorFrame, List.append_nil]
        rw [hfront]
        exact (hbehind.bytes output).trans hread
  | _ => simp [hphase, Phase.Running] at hrunning

theorem not_isOutput_exit {frame : Frame} (h : frame.kind = .execExit) : ¬ IsOutput frame := by
  simp [IsOutput, h]

/-- An exit code comes behind all of the output. -/
theorem Inv.complete_of_exit (h : Inv exec d) {frame : Frame} (hmem : frame ∈ d.link.sent)
    (hkind : frame.kind = .execExit) :
    ∃ front code payload, Complete exec d front code payload := by
  by_cases hrunning : d.phase.Running
  · exact absurd ((h.running hrunning).outputs frame hmem) (not_isOutput_exit hkind)
  cases hphase : d.phase with
  | failing => exact absurd ((h.failing hphase).outputs frame hmem) (not_isOutput_exit hkind)
  | ended =>
      rcases h.ended hphase with hcomplete | ⟨front, hbehind, hsent | ⟨message, hsent⟩⟩
      · exact hcomplete
      · exact absurd (hbehind.outputs frame (hsent ▸ hmem)) (not_isOutput_exit hkind)
      · rw [hsent, List.mem_append, List.mem_singleton] at hmem
        rcases hmem with hmem | rfl
        · exact absurd (hbehind.outputs frame hmem) (not_isOutput_exit hkind)
        · cases hkind
  | _ => simp [hphase, Phase.Running] at hrunning

theorem Complete.exit_mem {front : List Frame} {code : Option Int} {payload : Bytes}
    (h : Complete exec d front code payload) : exec.exitFrame payload ∈ d.link.sent := by
  rw [h.sent]
  exact List.mem_append_right _ (List.mem_singleton_self _)

theorem Complete.no_exit {front : List Frame} {code : Option Int} {payload : Bytes}
    (h : Complete exec d front code payload) : ∀ frame ∈ front, frame.kind ≠ .execExit :=
  fun frame hframe hexit => not_isOutput_exit hexit (h.outputs frame hframe)

theorem Complete.eq_exitFrame {front : List Frame} {code : Option Int} {payload : Bytes}
    (h : Complete exec d front code payload) {frame : Frame}
    (hmem : frame ∈ front ++ [exec.exitFrame payload]) (hkind : frame.kind = .execExit) :
    frame = exec.exitFrame payload := by
  rw [List.mem_append, List.mem_singleton] at hmem
  exact hmem.resolve_left fun hfront => h.no_exit frame hfront hkind

/-- Once the host has the exit code, it has all of the output. -/
theorem Inv.complete_of_taken (h : Inv exec d) {frame : Frame} (hmem : frame ∈ d.link.taken)
    (hkind : frame.kind = .execExit) :
    ∃ front code payload, Complete exec d front code payload ∧
      d.link.taken = front ++ [exec.exitFrame payload] := by
  obtain ⟨front, code, payload, hcomplete⟩ := h.complete_of_exit (Channel.mem_sent hmem) hkind
  refine ⟨front, code, payload, hcomplete, ?_⟩
  rw [← hcomplete.sent]
  exact Channel.taken_eq_sent_of_last hcomplete.sent hcomplete.no_exit hmem hkind

end Steps

end SideWire.ExecOutput
