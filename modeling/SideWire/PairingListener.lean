import SideWire.Base.TaskPool
import SideWire.Base.TransitionSystem
import SideWire.PairingStore

/-!
`run_pairing_listener` on the device while one pairing PIN is on offer: the tasks of the
accepted connections, the PIN file, and the locks they share. The file is never written, and
operations on files succeed. A handler may fail or time out wherever it waits.
-/

namespace SideWire.PairingListener

open SideWire.TransitionSystem
open SideWire.TaskPool
open SideWire.PairingStore

def maxPairingConnections : Nat := 4
def maxPinFailures : Nat := 5

def isAsciiDigit (c : Char) : Bool := '0' ≤ c && c ≤ '9'

/-- `str::parse::<u64>`. -/
def parseU64 (text : Text) : Option Nat :=
  let digits := if text.head? = some '+' then text.tail else text
  if digits = [] ∨ digits.all isAsciiDigit = false then none
  else
    let value := digits.foldl (fun value c => value * 10 + (c.toNat - '0'.toNat)) 0
    if value < 2 ^ 64 then some value else none

/-- The PIN that a text names. -/
def pinLine (text : Text) : Option Text := (lines text).findSome? (stripStart "pin=".toList)

/-- The second up to which a text says that its PIN may be used. -/
def untilLine (text : Text) : Nat :=
  (((lines text).findSome? (stripStart "until=".toList)).bind parseU64).getD 0

def pairingPin (file : Option Text) (now : Nat) : Option Text :=
  match file with
  | none => none
  | some text =>
      match pinLine text with
      | none => none
      | some pin =>
          if untilLine text < now ∨ pin.length ≠ 6 ∨ pin.all isAsciiDigit = false then none
          else some pin

/-- What the guard knows of the failures on one PIN; the attempts of each address are left
out. -/
structure PairingGuard where
  currentPin : Option Text
  failures : Nat
  deriving DecidableEq

namespace PairingGuard

def new : PairingGuard := ⟨none, 0⟩

/-- One more failure, with the count starting anew on another PIN. -/
def fail (guard : PairingGuard) (pin : Text) : PairingGuard :=
  let guard := if guard.currentPin ≠ some pin then ⟨some pin, 0⟩ else guard
  { guard with failures := min 255 (guard.failures + 1) }

def clearSuccess (_guard : PairingGuard) : PairingGuard := ⟨none, 0⟩

end PairingGuard

/-- Where the task of a connection stands: in `handle_pair_connection` up to `completing`,
with the commit lock from `checking` on; then in `clear_success`, or from `failed` on in
`record_pair_failure`, with the guard from `counting` to `resetting`. A task that is
`leaving` still has its permit, and knows whether it has recorded a failure. -/
inductive Phase
  | opening
  | offering
  | exchanging
  | locking
  | checking
  | storing
  | removing
  | completing
  | clearing
  | failed
  | recording (pin : Text)
  | counting (pin : Text)
  | disabling
  | resetting
  | leaving (recorded : Bool)
  | gone (recorded : Bool)
  deriving DecidableEq

/-- One connection: the PIN that its handler has read, and whether it has called
`store_paired_host`. -/
structure Task where
  phase : Phase
  pin : Option Text
  stored : Bool
  deriving DecidableEq

structure State where
  file : Option Text
  now : Nat
  permits : Nat
  commitLocked : Bool
  guardLocked : Bool
  guard : PairingGuard
  tasks : List Task

def State.initial (text : Text) (now : Nat) : State where
  file := some text
  now := now
  permits := maxPairingConnections
  commitLocked := false
  guardLocked := false
  guard := .new
  tasks := []

inductive Action
  | listener
  | task
  | clock
  deriving DecidableEq

inductive Step : State → Action → State → Prop
  | tick {s : State} {now : Nat} (hclock : s.now ≤ now) :
      Step s .clock { s with now := now }
  | accept {s : State} {permits : Nat} (hpermits : s.permits = permits + 1)
      (hguard : s.guardLocked = false) :
      Step s .listener { s with
        permits := permits, tasks := s.tasks ++ [⟨.opening, none, false⟩] }
  -- `handle_pair_connection`
  | readPin {s : State} {task : Task} {tasks : List Task}
      (htask : Replaces { task with phase := .opening }
        { task with phase := .offering, pin := pairingPin s.file s.now } s.tasks tasks) :
      Step s .task { s with tasks := tasks }
  | offer {s : State} {task : Task} {pin : Text} {tasks : List Task}
      (hpin : task.pin = some pin)
      (htask : Replaces { task with phase := .offering } { task with phase := .exchanging }
        s.tasks tasks) :
      Step s .task { s with tasks := tasks }
  | offerFails {s : State} {task : Task} {tasks : List Task}
      (htask : Replaces { task with phase := .offering } { task with phase := .failed }
        s.tasks tasks) :
      Step s .task { s with tasks := tasks }
  | exchange {s : State} {task : Task} {tasks : List Task}
      (htask : Replaces { task with phase := .exchanging } { task with phase := .locking }
        s.tasks tasks) :
      Step s .task { s with tasks := tasks }
  | exchangeFails {s : State} {task : Task} {tasks : List Task}
      (htask : Replaces { task with phase := .exchanging } { task with phase := .failed }
        s.tasks tasks) :
      Step s .task { s with tasks := tasks }
  | lockCommit {s : State} {task : Task} {tasks : List Task} (hlock : s.commitLocked = false)
      (htask : Replaces { task with phase := .locking } { task with phase := .checking }
        s.tasks tasks) :
      Step s .task { s with tasks := tasks, commitLocked := true }
  | lockTimesOut {s : State} {task : Task} {tasks : List Task}
      (htask : Replaces { task with phase := .locking } { task with phase := .failed }
        s.tasks tasks) :
      Step s .task { s with tasks := tasks }
  | check {s : State} {task : Task} {pin : Text} {tasks : List Task}
      (hpin : task.pin = some pin) (hcheck : pairingPin s.file s.now = some pin)
      (htask : Replaces { task with phase := .checking } { task with phase := .storing }
        s.tasks tasks) :
      Step s .task { s with tasks := tasks }
  | checkFails {s : State} {task : Task} {tasks : List Task}
      (hcheck : pairingPin s.file s.now ≠ task.pin)
      (htask : Replaces { task with phase := .checking } { task with phase := .failed }
        s.tasks tasks) :
      Step s .task { s with tasks := tasks, commitLocked := false }
  | store {s : State} {task : Task} {tasks : List Task}
      (htask : Replaces { task with phase := .storing }
        { task with phase := .removing, stored := true } s.tasks tasks) :
      Step s .task { s with tasks := tasks }
  | removeFile {s : State} {task : Task} {tasks : List Task}
      (htask : Replaces { task with phase := .removing } { task with phase := .completing }
        s.tasks tasks) :
      Step s .task { s with tasks := tasks, file := none }
  | complete {s : State} {task : Task} {tasks : List Task}
      (htask : Replaces { task with phase := .completing } { task with phase := .clearing }
        s.tasks tasks) :
      Step s .task { s with tasks := tasks, commitLocked := false }
  | completeFails {s : State} {task : Task} {tasks : List Task}
      (htask : Replaces { task with phase := .completing } { task with phase := .failed }
        s.tasks tasks) :
      Step s .task { s with tasks := tasks, commitLocked := false }
  -- what the task does with the result
  | clearSuccess {s : State} {task : Task} {tasks : List Task}
      (hguard : s.guardLocked = false)
      (htask : Replaces { task with phase := .clearing } { task with phase := .leaving false }
        s.tasks tasks) :
      Step s .task { s with tasks := tasks, guard := s.guard.clearSuccess }
  | recordNothing {s : State} {task : Task} {tasks : List Task}
      (hfile : pairingPin s.file s.now = none)
      (htask : Replaces { task with phase := .failed } { task with phase := .leaving false }
        s.tasks tasks) :
      Step s .task { s with tasks := tasks }
  | record {s : State} {task : Task} {pin : Text} {tasks : List Task}
      (hfile : pairingPin s.file s.now = some pin)
      (htask : Replaces { task with phase := .failed } { task with phase := .recording pin }
        s.tasks tasks) :
      Step s .task { s with tasks := tasks }
  | lockGuard {s : State} {task : Task} {pin : Text} {tasks : List Task}
      (hguard : s.guardLocked = false)
      (htask : Replaces { task with phase := .recording pin }
        { task with phase := .counting pin } s.tasks tasks) :
      Step s .task { s with tasks := tasks, guardLocked := true }
  | count {s : State} {task : Task} {pin : Text} {tasks : List Task}
      (hfew : (s.guard.fail pin).failures < maxPinFailures)
      (htask : Replaces { task with phase := .counting pin }
        { task with phase := .leaving true } s.tasks tasks) :
      Step s .task { s with
        tasks := tasks, guard := s.guard.fail pin, guardLocked := false }
  | countLast {s : State} {task : Task} {pin : Text} {tasks : List Task}
      (hmany : maxPinFailures ≤ (s.guard.fail pin).failures)
      (htask : Replaces { task with phase := .counting pin } { task with phase := .disabling }
        s.tasks tasks) :
      Step s .task { s with tasks := tasks, guard := s.guard.fail pin }
  | disable {s : State} {task : Task} {tasks : List Task}
      (htask : Replaces { task with phase := .disabling } { task with phase := .resetting }
        s.tasks tasks) :
      Step s .task { s with tasks := tasks, file := none }
  | reset {s : State} {task : Task} {tasks : List Task}
      (htask : Replaces { task with phase := .resetting } { task with phase := .leaving true }
        s.tasks tasks) :
      Step s .task { s with
        tasks := tasks, guard := ⟨none, 0⟩, guardLocked := false }
  | leave {s : State} {task : Task} {recorded : Bool} {tasks : List Task}
      (htask : Replaces { task with phase := .leaving recorded }
        { task with phase := .gone recorded } s.tasks tasks) :
      Step s .task { s with tasks := tasks, permits := s.permits + 1 }

def system (text : Text) (now : Nat) : System State Action where
  init := fun s => s = .initial text now
  step := Step

end SideWire.PairingListener
