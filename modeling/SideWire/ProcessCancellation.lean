import SideWire.Base.ByteString
import SideWire.Base.TransitionSystem

/-!
`handle_exec`, and `handle_pull` and `handle_push` for the shell identity, next to the
processes that they start and the watch on which their stream is canceled. What is sent to
the host is left out: sending takes its time, and may fail.
-/

namespace SideWire.ProcessCancellation

open SideWire.ByteString
open SideWire.TransitionSystem

def execBufferSize : Nat := 64 * 1024
def fileBufferSize : Nat := 256 * 1024

/-- The receiver of the watch: its value, whether that has changed since the receiver has
looked, and whether the sender is gone. -/
structure Watch where
  value : Bool
  unseen : Bool
  closed : Bool
  deriving DecidableEq

namespace Watch

/-- `changed()` does not wait. -/
def ready (watch : Watch) : Bool := watch.unseen || watch.closed

/-- `changed.is_ok() && *cancel.borrow()`, once `changed()` has returned. -/
def tells (watch : Watch) : Bool := watch.unseen && watch.value

def look (watch : Watch) : Watch := { watch with unseen := false }

end Watch

structure Pipe where
  data : Bytes
  isOpen : Bool
  deriving DecidableEq

def Pipe.ended (pipe : Pipe) : Bool := pipe.data.isEmpty && !pipe.isOpen

/-- The handler's end of the child's standard input. -/
inductive Stdin
  | null
  | piped
  | closed
  deriving DecidableEq

/-- The child that was spawned last, with whether it has been killed, and whether the stream
has been canceled since it runs. -/
structure Child where
  alive : Bool
  killed : Bool
  canceled : Bool
  stdin : Stdin
  stdout : Pipe
  stderr : Pipe
  deriving DecidableEq

namespace Child

def unborn : Child := ⟨false, false, false, .null, ⟨[], false⟩, ⟨[], false⟩⟩

def spawned (stdin : Stdin) : Child := ⟨true, false, false, stdin, ⟨[], true⟩, ⟨[], true⟩⟩

/-- `start_kill`, or the drop of a child with `kill_on_drop`. -/
def kill (child : Child) : Child := { child with killed := true }

def closeStdin (child : Child) : Child := { child with stdin := .closed }

def cancel (child : Child) : Child := { child with canceled := child.canceled || child.alive }

/-- `wait_with_output` has all that it waits for, where the standard output is taken. -/
def finished (child : Child) : Bool := !child.alive && !child.stderr.isOpen

end Child

/-- What a child does, alone or with others that have its pipes. -/
inductive ChildStep : Child → Child → Prop
  | writeStdout {child : Child} (bytes : Bytes) (hopen : child.stdout.isOpen = true) :
      ChildStep child { child with
        stdout := ⟨child.stdout.data ++ bytes, true⟩ }
  | writeStderr {child : Child} (bytes : Bytes) (hopen : child.stderr.isOpen = true) :
      ChildStep child { child with
        stderr := ⟨child.stderr.data ++ bytes, true⟩ }
  | closeStdout {child : Child} :
      ChildStep child { child with
        stdout := { child.stdout with isOpen := false } }
  | closeStderr {child : Child} :
      ChildStep child { child with
        stderr := { child.stderr with isOpen := false } }
  | exit {child : Child} (halive : child.alive = true) :
      ChildStep child { child with alive := false }

/-! The handlers. A child that is dropped is killed; so it is where `?` returns. -/

/-- A poll of the `select!` asks `changed()` in `reading` and the pipes in `polled`. -/
inductive ExecPhase
  | starting
  | reading (stdoutDone stderrDone : Bool)
  | polled (stdoutDone stderrDone : Bool)
  | sending (stdoutDone stderrDone : Bool)
  | reaping
  | waiting
  | exiting
  | returned
  deriving DecidableEq

/-- The condition of the loop. -/
def ExecPhase.loop (stdoutDone stderrDone : Bool) : ExecPhase :=
  if !stdoutDone || !stderrDone then .reading stdoutDone stderrDone else .waiting

inductive HandleExec : Watch → Child → ExecPhase → Watch → Child → ExecPhase → Prop
  | spawn {watch : Watch} {child : Child} :
      HandleExec watch child .starting watch (.spawned .null) (.loop false false)
  | spawnFails {watch : Watch} {child : Child} :
      HandleExec watch child .starting watch child .returned
  -- the branches of `select!`, in their order; a read may be pending for want of budget, too
  | cancel {watch : Watch} {child : Child} {out err : Bool} (hready : watch.ready = true)
      (htells : watch.tells = true) :
      HandleExec watch child (.reading out err) watch.look child.kill .reaping
  | ignore {watch : Watch} {child : Child} {out err : Bool} (hready : watch.ready = true)
      (htells : watch.tells = false) :
      HandleExec watch child (.reading out err) watch.look child (.reading out err)
  | poll {watch : Watch} {child : Child} {out err : Bool} (hready : watch.ready = false) :
      HandleExec watch child (.reading out err) watch child (.polled out err)
  | readStdout {watch : Watch} {child : Child} {err : Bool} {chunk rest : Bytes}
      (hdata : child.stdout.data = chunk ++ rest)
      (hchunk : chunk ≠ [] ∧ chunk.length ≤ execBufferSize) :
      HandleExec watch child (.polled false err) watch
        { child with stdout := { child.stdout with data := rest } } (.sending false err)
  | endStdout {watch : Watch} {child : Child} {err : Bool} (hend : child.stdout.ended = true) :
      HandleExec watch child (.polled false err) watch child (.loop true err)
  | readStderr {watch : Watch} {child : Child} {out : Bool} {chunk rest : Bytes}
      (hdata : child.stderr.data = chunk ++ rest)
      (hchunk : chunk ≠ [] ∧ chunk.length ≤ execBufferSize) :
      HandleExec watch child (.polled out false) watch
        { child with stderr := { child.stderr with data := rest } } (.sending out false)
  | endStderr {watch : Watch} {child : Child} {out : Bool} (hend : child.stderr.ended = true) :
      HandleExec watch child (.polled out false) watch child (.loop out true)
  | readFails {watch : Watch} {child : Child} {out err : Bool} :
      HandleExec watch child (.polled out err) watch child.kill .returned
  | park {watch : Watch} {child : Child} {out err : Bool} :
      HandleExec watch child (.polled out err) watch child (.reading out err)
  | sent {watch : Watch} {child : Child} {out err : Bool} :
      HandleExec watch child (.sending out err) watch child (.reading out err)
  | sendFails {watch : Watch} {child : Child} {out err : Bool} :
      HandleExec watch child (.sending out err) watch child.kill .returned
  | reaped {watch : Watch} {child : Child} (hexit : child.alive = false) :
      HandleExec watch child .reaping watch child .returned
  | waited {watch : Watch} {child : Child} (hexit : child.alive = false) :
      HandleExec watch child .waiting watch child .exiting
  | waitFails {watch : Watch} {child : Child} :
      HandleExec watch child .waiting watch child.kill .returned
  | exits {watch : Watch} {child : Child} :
      HandleExec watch child .exiting watch child .returned

inductive PullPhase
  | starting
  | sizing
  | spawning
  | announcing
  | reading
  | polled
  | sending
  | reaping
  | waiting
  | ending
  | returned
  deriving DecidableEq

inductive HandlePull : Watch → Child → PullPhase → Watch → Child → PullPhase → Prop
  -- `file_size_for_identity`, whose child is not killed on drop
  | stat {watch : Watch} {child : Child} :
      HandlePull watch child .starting watch (.spawned .null) .sizing
  | statFails {watch : Watch} {child : Child} :
      HandlePull watch child .starting watch child .returned
  | sized {watch : Watch} {child : Child}
      (hfinished : child.finished = true ∧ child.stdout.isOpen = false) :
      HandlePull watch child .sizing watch child .spawning
  | notSized {watch : Watch} {child : Child} :
      HandlePull watch child .sizing watch child .returned
  | spawn {watch : Watch} {child : Child} :
      HandlePull watch child .spawning watch (.spawned .null) .announcing
  | spawnFails {watch : Watch} {child : Child} :
      HandlePull watch child .spawning watch child .returned
  | announced {watch : Watch} {child : Child} :
      HandlePull watch child .announcing watch child .reading
  | announceFails {watch : Watch} {child : Child} :
      HandlePull watch child .announcing watch child.kill .returned
  | cancel {watch : Watch} {child : Child} (hready : watch.ready = true)
      (htells : watch.tells = true) :
      HandlePull watch child .reading watch.look child.kill .reaping
  | ignore {watch : Watch} {child : Child} (hready : watch.ready = true)
      (htells : watch.tells = false) :
      HandlePull watch child .reading watch.look child .reading
  | poll {watch : Watch} {child : Child} (hready : watch.ready = false) :
      HandlePull watch child .reading watch child .polled
  | read {watch : Watch} {child : Child} {chunk rest : Bytes}
      (hdata : child.stdout.data = chunk ++ rest)
      (hchunk : chunk ≠ [] ∧ chunk.length ≤ fileBufferSize) :
      HandlePull watch child .polled watch
        { child with stdout := { child.stdout with data := rest } } .sending
  | readEnd {watch : Watch} {child : Child} (hend : child.stdout.ended = true) :
      HandlePull watch child .polled watch child .waiting
  | readFails {watch : Watch} {child : Child} :
      HandlePull watch child .polled watch child.kill .returned
  | park {watch : Watch} {child : Child} : HandlePull watch child .polled watch child .reading
  | sent {watch : Watch} {child : Child} :
      HandlePull watch child .sending watch child .reading
  | sendFails {watch : Watch} {child : Child} :
      HandlePull watch child .sending watch child.kill .returned
  | reaped {watch : Watch} {child : Child} (hexit : child.alive = false) :
      HandlePull watch child .reaping watch child .returned
  | waited {watch : Watch} {child : Child} (hfinished : child.finished = true) :
      HandlePull watch child .waiting watch child .ending
  | waitFails {watch : Watch} {child : Child} :
      HandlePull watch child .waiting watch child.kill .returned
  | ends {watch : Watch} {child : Child} :
      HandlePull watch child .ending watch child .returned

inductive PushPhase
  | starting
  | readying
  | readyPolled
  | reaping
  | refusing
  | announcing
  | receiving
  | receivePolled
  | writing
  | accounting
  | shutting
  | waiting
  | ending
  | returned
  deriving DecidableEq

/-- `wait_for_stream_cancel` returns where the watch is true; whether the receiver has seen that
change plays no part here. -/
inductive HandlePush : Watch → Child → PushPhase → Watch → Child → PushPhase → Prop
  | spawn {watch : Watch} {child : Child} :
      HandlePush watch child .starting watch (.spawned .piped) .readying
  | spawnFails {watch : Watch} {child : Child} :
      HandlePush watch child .starting watch child .returned
  | cancel {watch : Watch} {child : Child} (hcancel : watch.value = true) :
      HandlePush watch child .readying watch child.kill .reaping
  | reaped {watch : Watch} {child : Child} (hexit : child.alive = false) :
      HandlePush watch child .reaping watch child .returned
  | pollReady {watch : Watch} {child : Child} (hcancel : watch.value = false) :
      HandlePush watch child .readying watch child .readyPolled
  | ready {watch : Watch} {child : Child} {rest : Bytes}
      (hdata : child.stdout.data = 0x52 :: rest) :
      HandlePush watch child .readyPolled watch
        { child with stdout := { child.stdout with data := rest } } .announcing
  | otherByte {watch : Watch} {child : Child} {byte : UInt8} {rest : Bytes}
      (hdata : child.stdout.data = byte :: rest) (hbyte : byte ≠ 0x52) :
      HandlePush watch child .readyPolled watch
        (Child.closeStdin { child with stdout := { child.stdout with data := rest } }) .refusing
  | noByte {watch : Watch} {child : Child} :
      HandlePush watch child .readyPolled watch child.closeStdin .refusing
  | parkReady {watch : Watch} {child : Child} :
      HandlePush watch child .readyPolled watch child .readying
  | refused {watch : Watch} {child : Child} (hfinished : child.finished = true) :
      HandlePush watch child .refusing watch child .returned
  | refuseFails {watch : Watch} {child : Child} :
      HandlePush watch child .refusing watch child.kill .returned
  | announced {watch : Watch} {child : Child} :
      HandlePush watch child .announcing watch child .receiving
  | announceFails {watch : Watch} {child : Child} :
      HandlePush watch child .announcing watch child.kill .returned
  -- the transfer, whose result is kept until the child is gone
  | cancelTransfer {watch : Watch} {child : Child} (hcancel : watch.value = true) :
      HandlePush watch child .receiving watch child.closeStdin .waiting
  | pollReceive {watch : Watch} {child : Child} (hcancel : watch.value = false) :
      HandlePush watch child .receiving watch child .receivePolled
  | receiveFails {watch : Watch} {child : Child} :
      HandlePush watch child .receivePolled watch child.closeStdin .waiting
  | fileChunk {watch : Watch} {child : Child} :
      HandlePush watch child .receivePolled watch child .writing
  | parkReceive {watch : Watch} {child : Child} :
      HandlePush watch child .receivePolled watch child .receiving
  | written {watch : Watch} {child : Child} :
      HandlePush watch child .writing watch child .accounting
  | writeFails {watch : Watch} {child : Child} :
      HandlePush watch child .writing watch child.closeStdin .waiting
  | accounted {watch : Watch} {child : Child} :
      HandlePush watch child .accounting watch child .receiving
  | accountFails {watch : Watch} {child : Child} :
      HandlePush watch child .accounting watch child.closeStdin .waiting
  | fileEnd {watch : Watch} {child : Child} :
      HandlePush watch child .receivePolled watch child .shutting
  | shut {watch : Watch} {child : Child} :
      HandlePush watch child .shutting watch child.closeStdin .waiting
  | waited {watch : Watch} {child : Child} (hfinished : child.finished = true) :
      HandlePush watch child .waiting watch child .ending
  | waitFails {watch : Watch} {child : Child} :
      HandlePush watch child .waiting watch child.kill .returned
  | ends {watch : Watch} {child : Child} :
      HandlePush watch child .ending watch child .returned

inductive Handler
  | exec (phase : ExecPhase)
  | pull (phase : PullPhase)
  | push (phase : PushPhase)
  deriving DecidableEq

/-- The waits for a child's exit that nothing interrupts: for `stat`, and for a child that has
closed the output that the handler reads. -/
def Handler.deaf : Handler → Bool
  | .exec .waiting | .pull .sizing | .pull .waiting => true
  | _ => false

/-- A read of the `select!` ends its loop. -/
def Handler.leaves : Handler → Handler → Bool
  | .exec (.polled _ _), next | .pull .polled, next => next.deaf
  | _, _ => false

structure State where
  watch : Watch
  child : Child
  handler : Handler
  deriving DecidableEq

/-- A step of the handler tells whether it ends the loop. -/
inductive Action
  | cancel
  | unregister
  | child
  | handler (leaves : Bool)
  deriving DecidableEq

inductive Step : State → Action → State → Prop
  | cancel {s : State} (hvalue : s.watch.value = false) (hclosed : s.watch.closed = false) :
      Step s .cancel { s with
        watch := { s.watch with value := true, unseen := true }
        child := s.child.cancel }
  | unregister {s : State} :
      Step s .unregister { s with watch := { s.watch with closed := true } }
  | child {s : State} {child : Child} (hstep : ChildStep s.child child) :
      Step s .child { s with child := child }
  | exec {watch watch' : Watch} {child child' : Child} {phase phase' : ExecPhase}
      (hstep : HandleExec watch child phase watch' child' phase') :
      Step ⟨watch, child, .exec phase⟩ (.handler ((Handler.exec phase).leaves (.exec phase')))
        ⟨watch', child', .exec phase'⟩
  | pull {watch watch' : Watch} {child child' : Child} {phase phase' : PullPhase}
      (hstep : HandlePull watch child phase watch' child' phase') :
      Step ⟨watch, child, .pull phase⟩ (.handler ((Handler.pull phase).leaves (.pull phase')))
        ⟨watch', child', .pull phase'⟩
  | push {watch watch' : Watch} {child child' : Child} {phase phase' : PushPhase}
      (hstep : HandlePush watch child phase watch' child' phase') :
      Step ⟨watch, child, .push phase⟩ (.handler ((Handler.push phase).leaves (.push phase')))
        ⟨watch', child', .push phase'⟩

def State.initial (handler : Handler) : State := ⟨⟨false, false, false⟩, .unborn, handler⟩

def system : System State Action where
  init := fun s => ∃ handler ∈ [Handler.exec .starting, .pull .starting, .push .starting],
    s = .initial handler
  step := Step

/-- The handler is in a wait for the exit of its child. -/
def Handler.awaitsExit : Handler → Bool
  | .exec .reaping | .exec .waiting => true
  | .pull .sizing | .pull .reaping | .pull .waiting => true
  | .push .reaping | .push .refusing | .push .waiting => true
  | _ => false

/-- A child under which the stream was canceled, and whose exit is waited for, has been killed
or has had its standard input closed. -/
def Reached (s : State) : Prop :=
  s.handler.awaitsExit = true → s.child.alive = true → s.child.canceled = true →
    s.child.killed = true ∨ s.child.stdin = .closed

/-- The stream is not canceled while a child runs on that such a wait is for; nor has it been,
with the child running on, when a read ends the loop before the wait, that is between the look
at the watch and this read. -/
def Heeded (s : State) : Action → Prop
  | .cancel => s.handler.deaf = true → s.child.alive = false
  | .handler true => s.child.canceled = true → s.child.alive = false
  | _ => True

/-- What a phase leaves open for the child. -/
inductive Mode
  | resting
  | listening
  | deaf
  | killing
  | closing
  deriving DecidableEq

def ExecPhase.mode : ExecPhase → Mode
  | .reading _ _ | .polled _ _ | .sending _ _ => .listening
  | .waiting => .deaf
  | .reaping => .killing
  | .starting | .exiting | .returned => .resting

def PullPhase.mode : PullPhase → Mode
  | .announcing | .reading | .polled | .sending => .listening
  | .sizing | .waiting => .deaf
  | .reaping => .killing
  | .starting | .spawning | .ending | .returned => .resting

def PushPhase.mode : PushPhase → Mode
  | .reaping => .killing
  | .refusing | .waiting => .closing
  | .starting | .readying | .readyPolled | .announcing | .receiving | .receivePolled | .writing
  | .accounting | .shutting | .ending | .returned => .resting

def Handler.mode : Handler → Mode
  | .exec phase => phase.mode
  | .pull phase => phase.mode
  | .push phase => phase.mode

/-- While it listens, the handler has yet to see a cancellation of its child. -/
def ModeOk (watch : Watch) (child : Child) : Mode → Prop
  | .resting => True
  | .listening =>
      child.killed = false ∧ child.stdin = .null ∧ (child.canceled = true → watch.unseen = true)
  | .deaf => child.killed = false ∧ child.stdin = .null
  | .killing => child.killed = true
  | .closing => child.stdin = .closed

structure Inv (s : State) : Prop where
  watch : s.watch.unseen = true → s.watch.value = true
  mode : ModeOk s.watch s.child s.handler.mode

/-- No child under which the stream was canceled is left in a wait that nothing interrupts. -/
def Heard (s : State) : Prop :=
  s.handler.deaf = true → s.child.alive = true → s.child.canceled = false

section Modes

variable {s t : State} {action : Action} {watch watch' : Watch} {child child' : Child}

theorem Handler.deaf_iff {handler : Handler} : handler.deaf = true ↔ handler.mode = .deaf := by
  cases handler with
  | exec phase => cases phase <;> simp [Handler.deaf, Handler.mode, ExecPhase.mode]
  | pull phase => cases phase <;> simp [Handler.deaf, Handler.mode, PullPhase.mode]
  | push phase => cases phase <;> simp [Handler.deaf, Handler.mode, PushPhase.mode]

theorem Handler.deaf_of_leaves {handler next : Handler} (h : handler.leaves next = true) :
    next.deaf = true := by
  unfold Handler.leaves at h
  split at h
  · exact h
  · exact h
  · cases h

theorem Handler.awaitsExit_iff {handler : Handler} : handler.awaitsExit = true ↔
    handler.mode = .deaf ∨ handler.mode = .killing ∨ handler.mode = .closing := by
  cases handler with
  | exec phase => cases phase <;> simp [Handler.awaitsExit, Handler.mode, ExecPhase.mode]
  | pull phase => cases phase <;> simp [Handler.awaitsExit, Handler.mode, PullPhase.mode]
  | push phase => cases phase <;> simp [Handler.awaitsExit, Handler.mode, PushPhase.mode]

theorem Watch.unseen_of_tells {watch : Watch} (hwatch : watch.unseen = true → watch.value = true)
    (h : watch.tells = false) : watch.unseen = false := by
  by_contra hunseen
  rw [Bool.not_eq_false] at hunseen
  rw [Watch.tells, hunseen, hwatch hunseen] at h
  exact nomatch h

theorem ModeOk.loop (h : ModeOk watch child .listening) (out err : Bool) :
    ModeOk watch child (ExecPhase.loop out err).mode := by
  cases out with
  | false => exact h
  | true =>
      cases err with
      | false => exact h
      | true => exact ⟨h.1, h.2.1⟩

theorem not_canceled_of_unseen (h : ModeOk watch child .listening)
    (hunseen : watch.unseen = false) :
    child.canceled = false := by
  by_contra hcanceled
  rw [Bool.not_eq_false] at hcanceled
  exact absurd (h.2.2 hcanceled) (by simp [hunseen])

theorem modeOk_spawned (watch : Watch) (mode : Mode) (h : mode = .listening ∨ mode = .deaf) :
    ModeOk watch (.spawned .null) mode := by
  rcases h with rfl | rfl
  · exact ⟨rfl, rfl, fun hcanceled => nomatch hcanceled⟩
  · exact ⟨rfl, rfl⟩

theorem ModeOk.look (h : ModeOk watch child .listening)
    (hwatch : watch.unseen = true → watch.value = true) (htells : watch.tells = false) :
    ModeOk watch.look child .listening := by
  have hcanceled := not_canceled_of_unseen h (Watch.unseen_of_tells hwatch htells)
  exact ⟨h.1, h.2.1, fun hyes => absurd hyes (by simp [hcanceled])⟩

section Handlers

variable {exec exec' : ExecPhase} {pull pull' : PullPhase} {push push' : PushPhase}

theorem HandleExec.modeOk (hstep : HandleExec watch child exec watch' child' exec')
    (hwatch : watch.unseen = true → watch.value = true) (h : ModeOk watch child exec.mode) :
    ModeOk watch' child' exec'.mode := by
  cases hstep with
  | spawn => exact modeOk_spawned watch _ (.inl rfl)
  | cancel => rfl
  | ignore _ htells => exact ModeOk.look h hwatch htells
  | poll | park | readStdout | readStderr | sent => exact h
  | endStdout | endStderr => exact ModeOk.loop h _ _
  | spawnFails | readFails | sendFails | reaped | waited | waitFails | exits => trivial

theorem HandlePull.modeOk (hstep : HandlePull watch child pull watch' child' pull')
    (hwatch : watch.unseen = true → watch.value = true) (h : ModeOk watch child pull.mode) :
    ModeOk watch' child' pull'.mode := by
  cases hstep with
  | stat => exact modeOk_spawned watch _ (.inr rfl)
  | spawn => exact modeOk_spawned watch _ (.inl rfl)
  | cancel => rfl
  | ignore _ htells => exact ModeOk.look h hwatch htells
  | poll | park | announced | read | sent => exact h
  | readEnd => exact ⟨h.1, h.2.1⟩
  | statFails | sized | notSized | spawnFails | announceFails | readFails | sendFails | reaped
  | waited | waitFails | ends => trivial

theorem HandlePush.modeOk (hstep : HandlePush watch child push watch' child' push') :
    ModeOk watch' child' push'.mode := by
  cases hstep with
  | cancel | otherByte | noByte | cancelTransfer | receiveFails | writeFails | accountFails
  | shut => rfl
  | spawn | spawnFails | reaped | pollReady | parkReady | ready | refused | refuseFails
  | announced | announceFails | pollReceive | parkReceive | fileChunk | written | accounted
  | fileEnd | waited | waitFails | ends => trivial

theorem HandleExec.looked (hstep : HandleExec watch child exec watch' child' exec') :
    watch' = watch ∨ watch' = watch.look := by
  cases hstep with
  | cancel | ignore => exact .inr rfl
  | _ => exact .inl rfl

theorem HandlePull.looked (hstep : HandlePull watch child pull watch' child' pull') :
    watch' = watch ∨ watch' = watch.look := by
  cases hstep with
  | cancel | ignore => exact .inr rfl
  | _ => exact .inl rfl

theorem HandlePush.looked (hstep : HandlePush watch child push watch' child' push') :
    watch' = watch ∨ watch' = watch.look := by
  cases hstep <;> exact .inl rfl

/-- Into a wait that nothing interrupts there is a way with a new child, and one out of the
loop, with the child as it is. -/
theorem HandleExec.deafened (hstep : HandleExec watch child exec watch' child' exec')
    (hdeaf : (Handler.exec exec').deaf = true) :
    (Handler.exec exec).leaves (.exec exec') = true ∧ child' = child := by
  cases hstep with
  | endStdout | endStderr => exact ⟨hdeaf, rfl⟩
  | _ => exact nomatch hdeaf

theorem HandlePull.deafened (hstep : HandlePull watch child pull watch' child' pull')
    (hdeaf : (Handler.pull pull').deaf = true) :
    (Handler.pull pull).leaves (.pull pull') = false ∧ child'.canceled = false ∨
      (Handler.pull pull).leaves (.pull pull') = true ∧ child' = child := by
  cases hstep with
  | stat => exact .inl ⟨rfl, rfl⟩
  | readEnd => exact .inr ⟨rfl, rfl⟩
  | _ => exact nomatch hdeaf

theorem PushPhase.mode_ne_deaf (phase : PushPhase) : phase.mode ≠ .deaf := by
  cases phase <;> exact nofun

theorem ChildStep.modeOk (hstep : ChildStep child child') {mode : Mode}
    (h : ModeOk watch child mode) : ModeOk watch child' mode := by
  cases hstep <;> cases mode <;> exact h

end Handlers

theorem Inv.initial {handler : Handler}
    (h : handler ∈ [Handler.exec .starting, .pull .starting, .push .starting]) :
    Inv (.initial handler) where
  watch hunseen := nomatch hunseen
  mode := by
    simp only [List.mem_cons, List.not_mem_nil, or_false] at h
    rcases h with rfl | rfl | rfl <;> trivial

theorem ModeOk.cancel {mode : Mode} (h : ModeOk watch child mode) :
    ModeOk { watch with value := true, unseen := true } child.cancel mode := by
  cases mode with
  | listening => exact ⟨h.1, h.2.1, fun _ => rfl⟩
  | resting | deaf | killing | closing => exact h

theorem Watch.value_of_look (hwatch : watch.unseen = true → watch.value = true)
    (hlook : watch' = watch ∨ watch' = watch.look) :
    watch'.unseen = true → watch'.value = true := by
  rcases hlook with rfl | rfl
  · exact hwatch
  · exact fun hunseen => nomatch hunseen

theorem Inv.step (h : Inv s) (hstep : Step s action t) : Inv t := by
  have hwatch := h.watch
  have hmode := h.mode
  cases hstep with
  | cancel => exact ⟨fun _ => rfl, hmode.cancel⟩
  | unregister =>
      refine ⟨hwatch, ?_⟩
      cases hhandler : s.handler.mode <;> rw [hhandler] at hmode <;> exact hmode
  | child hchild => exact ⟨hwatch, hchild.modeOk hmode⟩
  | exec hstep =>
      exact ⟨Watch.value_of_look hwatch hstep.looked, hstep.modeOk hwatch hmode⟩
  | pull hstep =>
      exact ⟨Watch.value_of_look hwatch hstep.looked, hstep.modeOk hwatch hmode⟩
  | push hstep => exact ⟨Watch.value_of_look hwatch hstep.looked, hstep.modeOk⟩

theorem not_canceled_of_heeded (hheeded : Heeded s (.handler true))
    (halive : s.child.alive = true) :
    s.child.canceled = false := by
  by_contra hcanceled
  have hgone := hheeded (Bool.not_eq_false _ ▸ hcanceled)
  exact absurd (hgone.symm.trans halive) Bool.false_ne_true

theorem Heard.step (hheard : Heard s) (hheeded : Heeded s action)
    (hstep : Step s action t) : Heard t := by
  intro hdeaf halive
  cases hstep with
  | cancel =>
      have hgone : s.child.alive = false := hheeded hdeaf
      exact absurd (hgone.symm.trans halive) Bool.false_ne_true
  | unregister => exact hheard hdeaf halive
  | child hchild =>
      cases hchild with
      | exit => exact nomatch halive
      | _ => exact hheard hdeaf halive
  | exec hstep =>
      obtain ⟨hleaves, rfl⟩ := hstep.deafened hdeaf
      rw [hleaves] at hheeded
      exact not_canceled_of_heeded hheeded halive
  | pull hstep =>
      rcases hstep.deafened hdeaf with ⟨-, hnew⟩ | ⟨hleaves, rfl⟩
      · exact hnew
      · rw [hleaves] at hheeded
        exact not_canceled_of_heeded hheeded halive
  | push hstep => exact absurd (Handler.deaf_iff.mp hdeaf) (PushPhase.mode_ne_deaf _)

theorem Inv.reached (h : Inv s) (hheard : Heard s) : Reached s := by
  intro hwait halive hcanceled
  have hmode := h.mode
  rcases Handler.awaitsExit_iff.mp hwait with hdeaf | hkilling | hclosing
  · have hnot := hheard (Handler.deaf_iff.mpr hdeaf) halive
    exact absurd (hnot.symm.trans hcanceled) Bool.false_ne_true
  · rw [hkilling] at hmode
    exact .inl hmode
  · rw [hclosing] at hmode
    exact .inr hmode

/-- A canceled child that runs on in a wait that nothing interrupts has not been reached. -/
theorem Inv.not_reached (h : Inv s) (hdeaf : s.handler.deaf = true)
    (halive : s.child.alive = true) (hcanceled : s.child.canceled = true) : ¬ Reached s := by
  have hmode := h.mode
  have hwait := Handler.awaitsExit_iff.mpr (.inl (Handler.deaf_iff.mp hdeaf))
  rw [Handler.deaf_iff.mp hdeaf] at hmode
  intro hreached
  rcases hreached hwait halive hcanceled with hkilled | hclosed
  · exact absurd (hmode.1.symm.trans hkilled) Bool.false_ne_true
  · exact nomatch hmode.2.symm.trans hclosed

theorem Inv.heeded (h : Inv t) (hstep : Step s action t) (hreached : Reached t) :
    Heeded s action := by
  cases hstep with
  | unregister | child => trivial
  | cancel =>
      intro hdeaf
      by_contra halive
      rw [Bool.not_eq_false] at halive
      refine h.not_reached hdeaf halive ?_ hreached
      rw [Child.cancel, halive, Bool.or_true]
  | @exec watch watch' child child' phase phase' hstep =>
      cases hleaves : (Handler.exec phase).leaves (.exec phase') with
      | false => trivial
      | true =>
          intro hcanceled
          have hdeaf := Handler.deaf_of_leaves hleaves
          obtain ⟨-, rfl⟩ := hstep.deafened hdeaf
          by_contra halive
          exact h.not_reached hdeaf (Bool.not_eq_false _ ▸ halive) hcanceled hreached
  | @pull watch watch' child child' phase phase' hstep =>
      cases hleaves : (Handler.pull phase).leaves (.pull phase') with
      | false => trivial
      | true =>
          intro hcanceled
          have hdeaf := Handler.deaf_of_leaves hleaves
          by_contra halive
          rcases hstep.deafened hdeaf with ⟨hstays, -⟩ | ⟨-, rfl⟩
          · exact nomatch hstays.symm.trans hleaves
          · exact h.not_reached hdeaf (Bool.not_eq_false _ ▸ halive) hcanceled hreached
  | push => trivial

/-- Cancellation reaches the child in every phase along a run that cancels no child which the
handler awaits without listening, and along no other run. -/
theorem reached_iff_heeded {s last : State} {trace : List (State × Action)}
    (hinit : system.init s) (hrun : system.Run s trace last) :
    (∀ u ∈ System.visited trace last, Reached u) ↔ ∀ p ∈ trace, Heeded p.1 p.2 := by
  obtain ⟨handler, hhandler, rfl⟩ := hinit
  have hinv := hrun.visited_of_steps (P := Inv) (fun _ _ => True)
    (fun _ _ _ h _ hstep => h.step hstep) (Inv.initial hhandler) (fun _ _ => trivial)
  constructor
  · rintro hreached ⟨u, action⟩ hmem
    obtain ⟨v, hstep, hv⟩ := hrun.step_visited hmem
    have hu : u ∈ System.visited trace last :=
      List.mem_append_left _ (List.mem_map.mpr ⟨_, hmem, rfl⟩)
    exact (hinv v hv).heeded hstep (hreached v hv)
  · intro hheeded u hu
    have hboth := hrun.visited_of_steps (P := fun u => Inv u ∧ Heard u) Heeded
      (fun _ _ _ h hok hstep => ⟨h.1.step hstep, h.2.step hok hstep⟩)
      ⟨Inv.initial hhandler, fun _ halive => nomatch halive⟩ hheeded u hu
    exact hboth.1.reached hboth.2

end Modes

section Runs

def quiet : Watch := ⟨false, false, false⟩

def raised : Watch := ⟨true, true, false⟩

/-- A child that has closed its output and runs on. -/
def mute : Child := { Child.spawned .null with
  stdout := ⟨[], false⟩
  stderr := ⟨[], false⟩ }

theorem run_exec_mute : ∃ trace, system.Run (.initial (.exec .starting)) trace
    ⟨quiet, mute, .exec .waiting⟩ :=
  ⟨_, .cons (.exec .spawn) <| .cons (.child .closeStdout) <| .cons (.child .closeStderr) <|
    .cons (.exec (.poll rfl)) <| .cons (.exec (.endStdout rfl)) <| .cons (.exec (.poll rfl)) <|
    .cons (.exec (.endStderr rfl)) <| .nil _⟩

theorem run_pull_sizing : ∃ trace, system.Run (.initial (.pull .starting)) trace
    ⟨quiet, .spawned .null, .pull .sizing⟩ :=
  ⟨_, .cons (.pull .stat) (.nil _)⟩

theorem run_pull_mute : ∃ trace, system.Run (.initial (.pull .starting)) trace
    ⟨quiet, { Child.spawned .null with stdout := ⟨[], false⟩ }, .pull .waiting⟩ :=
  ⟨_, .cons (.pull .stat) <| .cons (.child .closeStdout) <| .cons (.child .closeStderr) <|
    .cons (.child (.exit rfl)) <| .cons (.pull (.sized ⟨rfl, rfl⟩)) <| .cons (.pull .spawn) <|
    .cons (.pull .announced) <| .cons (.child .closeStdout) <|
    .cons (.pull (.poll rfl)) <| .cons (.pull (.readEnd rfl)) <| .nil _⟩

/-- A stream that is canceled while its child writes: the child is killed and awaited. -/
theorem reached_iff_heeded_exec :
    (∀ u ∈ System.visited
        [(State.initial (.exec .starting), Action.handler false),
          (⟨quiet, .spawned .null, .exec (.reading false false)⟩, .cancel),
          (⟨raised, (Child.spawned .null).cancel, .exec (.reading false false)⟩, .handler false)]
        ⟨raised.look, (Child.spawned .null).cancel.kill, .exec .reaping⟩, Reached u) ↔
      ∀ p ∈ [(State.initial (.exec .starting), Action.handler false),
          (⟨quiet, .spawned .null, .exec (.reading false false)⟩, .cancel),
          (⟨raised, (Child.spawned .null).cancel, .exec (.reading false false)⟩, .handler false)],
        Heeded p.1 p.2 :=
  reached_iff_heeded ⟨_, List.mem_cons_self, rfl⟩
    (.cons (.exec .spawn) <| .cons (.cancel rfl rfl) <| .cons (.exec (.cancel rfl rfl)) <| .nil _)

/-- A program that closes its output and runs on, a `stat` that does not return, and a `cat`
that closes its output and runs on outlive the cancellation of their streams. -/
theorem canceled_not_reached :
    ∃ exec stat cat : List (State × Action),
      system.Run (.initial (.exec .starting)) exec ⟨raised, mute.cancel, .exec .waiting⟩ ∧
      system.Run (.initial (.pull .starting)) stat
        ⟨raised, (Child.spawned .null).cancel, .pull .sizing⟩ ∧
      system.Run (.initial (.pull .starting)) cat
        ⟨raised, Child.cancel { Child.spawned .null with stdout := ⟨[], false⟩ },
          .pull .waiting⟩ ∧
      ¬ Reached ⟨raised, mute.cancel, .exec .waiting⟩ ∧
      ¬ Reached ⟨raised, (Child.spawned .null).cancel, .pull .sizing⟩ ∧
      ¬ Reached ⟨raised, Child.cancel { Child.spawned .null with stdout := ⟨[], false⟩ },
          .pull .waiting⟩ := by
  obtain ⟨exec, hexec⟩ := run_exec_mute
  obtain ⟨stat, hstat⟩ := run_pull_sizing
  obtain ⟨cat, hcat⟩ := run_pull_mute
  refine ⟨_, _, _, hexec.append (.cons (.cancel rfl rfl) (.nil _)),
    hstat.append (.cons (.cancel rfl rfl) (.nil _)),
    hcat.append (.cons (.cancel rfl rfl) (.nil _)), ?_, ?_, ?_⟩
  · exact fun hreached => absurd (hreached rfl rfl rfl) (by decide)
  · exact fun hreached => absurd (hreached rfl rfl rfl) (by decide)
  · exact fun hreached => absurd (hreached rfl rfl rfl) (by decide)

end Runs

end SideWire.ProcessCancellation
