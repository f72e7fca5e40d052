import SideWire.Base.TaskPool
import SideWire.Base.TransitionSystem
import SideWire.PairingListener

/-!
Pairing runs between one host and one device: `run_pair` on the host and
`handle_pair_connection` on the device, with the record that each side keeps of the other.
The host is in one run at a time; the device may still be busy with a connection that the
host has left. Operations on files succeed, and both ends are who they say they are.
-/

namespace SideWire.PairingExchange

open SideWire.TransitionSystem
open SideWire.TaskPool
open SideWire.PairingStore
open SideWire.PairingListener (isAsciiDigit pairingPin)

/-- What the ends send each other. SPAKE2 gives both the key that the Noise messages need if
they have the same PIN; `initiation` and `response` say which PIN their key comes from. -/
inductive Message
  | banner (pairingAvailable : Bool)
  | start
  | reply
  | initiation (pin : Text)
  | response (pin : Text)
  | commit (sharedSecret : Key)
  | complete
  deriving DecidableEq

/-- Where `run_pair` stands, with the PIN that was typed in. -/
inductive HostPhase
  | awaitingBanner
  | readingPin
  | awaitingReply (pin : Text)
  | initiating (pin : Text)
  | awaitingResponse (pin : Text)
  | committing
  | awaitingComplete
  | saving
  | ended
  deriving DecidableEq

/-- Where `handle_pair_connection` stands, with the PIN it has read and the secret it has
received. It holds the commit lock from `checking` to `completing`. -/
inductive DevicePhase
  | opening
  | offering (pin : Option Text)
  | awaitingStart (pin : Text)
  | replying (pin : Text)
  | awaitingInitiation (pin : Text)
  | responding (pin : Text)
  | awaitingCommit (pin : Text)
  | locking (pin : Text) (secret : Key)
  | checking (pin : Text) (secret : Key)
  | storing (secret : Key)
  | removing
  | completing
  | ended (stored : Bool)
  deriving DecidableEq

/-- One connection: both ends, the secret that the host draws in this run, and the messages
that are written and not yet read. -/
structure Run where
  host : HostPhase
  device : DevicePhase
  secret : Key
  toDevice : List Message
  toHost : List Message
  deriving DecidableEq

def Run.opened (secret : Key) : Run := ⟨.awaitingBanner, .opening, secret, [], []⟩

/-- The host is still in the run. -/
def Run.attended (run : Run) : Bool :=
  match run.host with
  | .ended => false
  | _ => true

/-- A read, a write or the user may make `run_pair` give up. -/
def HostPhase.mayFail : HostPhase → Bool
  | .saving | .ended => false
  | _ => true

/-- The handler waits, holds no lock, and has stored nothing. -/
def DevicePhase.mayFail : DevicePhase → Bool
  | .offering _ | .awaitingStart _ | .replying _ | .awaitingInitiation _ | .responding _
  | .awaitingCommit _ | .locking _ _ => true
  | _ => false

/-- The device has called `store_paired_host` in this run. -/
def Run.stored (run : Run) : Bool :=
  match run.device with
  | .removing | .completing => true
  | .ended stored => stored
  | _ => false

def validPin (pin : Text) : Bool := pin.length == 6 && pin.all isAsciiDigit

/-- What the host does on the connection alone. -/
inductive HostMove : Run → Run → Prop
  | readBanner {device : DevicePhase} {secret : Key} {toDevice toHost : List Message} :
      HostMove ⟨.awaitingBanner, device, secret, toDevice, .banner true :: toHost⟩
        ⟨.readingPin, device, secret, toDevice, toHost⟩
  | start {device : DevicePhase} {secret : Key} {toDevice toHost : List Message} {pin : Text}
      (hpin : validPin pin = true) :
      HostMove ⟨.readingPin, device, secret, toDevice, toHost⟩
        ⟨.awaitingReply pin, device, secret, toDevice ++ [.start], toHost⟩
  | readReply {device : DevicePhase} {secret : Key} {toDevice toHost : List Message}
      {pin : Text} :
      HostMove ⟨.awaitingReply pin, device, secret, toDevice, .reply :: toHost⟩
        ⟨.initiating pin, device, secret, toDevice, toHost⟩
  | initiate {device : DevicePhase} {secret : Key} {toDevice toHost : List Message}
      {pin : Text} :
      HostMove ⟨.initiating pin, device, secret, toDevice, toHost⟩
        ⟨.awaitingResponse pin, device, secret, toDevice ++ [.initiation pin], toHost⟩
  | readResponse {device : DevicePhase} {secret : Key} {toDevice toHost : List Message}
      {pin : Text} :
      HostMove ⟨.awaitingResponse pin, device, secret, toDevice, .response pin :: toHost⟩
        ⟨.committing, device, secret, toDevice, toHost⟩
  | commit {device : DevicePhase} {secret : Key} {toDevice toHost : List Message} :
      HostMove ⟨.committing, device, secret, toDevice, toHost⟩
        ⟨.awaitingComplete, device, secret, toDevice ++ [.commit secret], toHost⟩
  | readComplete {device : DevicePhase} {secret : Key} {toDevice toHost : List Message} :
      HostMove ⟨.awaitingComplete, device, secret, toDevice, .complete :: toHost⟩
        ⟨.saving, device, secret, toDevice, toHost⟩

/-- What the device does on the connection alone. -/
inductive DeviceMove : Run → Run → Prop
  | offer {host : HostPhase} {secret : Key} {toDevice toHost : List Message} {pin : Text} :
      DeviceMove ⟨host, .offering (some pin), secret, toDevice, toHost⟩
        ⟨host, .awaitingStart pin, secret, toDevice, toHost ++ [.banner true]⟩
  | offerNothing {host : HostPhase} {secret : Key} {toDevice toHost : List Message} :
      DeviceMove ⟨host, .offering none, secret, toDevice, toHost⟩
        ⟨host, .ended false, secret, toDevice, toHost ++ [.banner false]⟩
  | readStart {host : HostPhase} {secret : Key} {toDevice toHost : List Message} {pin : Text} :
      DeviceMove ⟨host, .awaitingStart pin, secret, .start :: toDevice, toHost⟩
        ⟨host, .replying pin, secret, toDevice, toHost⟩
  | reply {host : HostPhase} {secret : Key} {toDevice toHost : List Message} {pin : Text} :
      DeviceMove ⟨host, .replying pin, secret, toDevice, toHost⟩
        ⟨host, .awaitingInitiation pin, secret, toDevice, toHost ++ [.reply]⟩
  | readInitiation {host : HostPhase} {secret : Key} {toDevice toHost : List Message}
      {pin : Text} :
      DeviceMove ⟨host, .awaitingInitiation pin, secret, .initiation pin :: toDevice, toHost⟩
        ⟨host, .responding pin, secret, toDevice, toHost⟩
  | respond {host : HostPhase} {secret : Key} {toDevice toHost : List Message} {pin : Text} :
      DeviceMove ⟨host, .responding pin, secret, toDevice, toHost⟩
        ⟨host, .awaitingCommit pin, secret, toDevice, toHost ++ [.response pin]⟩
  | readCommit {host : HostPhase} {secret received : Key} {toDevice toHost : List Message}
      {pin : Text} :
      DeviceMove ⟨host, .awaitingCommit pin, secret, .commit received :: toDevice, toHost⟩
        ⟨host, .locking pin received, secret, toDevice, toHost⟩
  | fail {run : Run} (hphase : run.device.mayFail = true) :
      DeviceMove run { run with device := .ended false }

/-- The PIN file, the commit lock of the device, and the record that each side has of the
other. -/
structure State where
  file : Option Text
  now : Nat
  commitLocked : Bool
  hostSecret : Option Key
  deviceSecret : Option Key
  runs : List Run

/-- Nothing is paired yet. -/
def State.initial (file : Option Text) (now : Nat) : State where
  file := file
  now := now
  commitLocked := false
  hostSecret := none
  deviceSecret := none
  runs := []

inductive Action
  | deviceStores (run : Run)
  | hostFails (run : Run)
  | other
  deriving DecidableEq

inductive Step : State → Action → State → Prop
  | tick {s : State} {now : Nat} (hclock : s.now ≤ now) :
      Step s .other { s with now := now }
  -- the user asks the device for a PIN, or lets one go
  | writeFile {s : State} {file : Option Text} :
      Step s .other { s with file := file }
  | connect {s : State} {secret : Key} (hidle : ∀ run ∈ s.runs, run.attended = false) :
      Step s .other { s with runs := s.runs ++ [.opened secret] }
  -- `run_pair`
  | host {s : State} {run run' : Run} {runs : List Run} (hmove : HostMove run run')
      (hrun : Replaces run run' s.runs runs) :
      Step s .other { s with runs := runs }
  | hostFails {s : State} {run : Run} {runs : List Run} (hphase : run.host.mayFail = true)
      (hrun : Replaces run { run with host := .ended } s.runs runs) :
      Step s (.hostFails run) { s with runs := runs }
  | save {s : State} {run : Run} {runs : List Run} (hphase : run.host = .saving)
      (hrun : Replaces run { run with host := .ended } s.runs runs) :
      Step s .other { s with runs := runs, hostSecret := some run.secret }
  -- `handle_pair_connection`
  | device {s : State} {run run' : Run} {runs : List Run} (hmove : DeviceMove run run')
      (hrun : Replaces run run' s.runs runs) :
      Step s .other { s with runs := runs }
  | readPin {s : State} {run : Run} {runs : List Run} (hphase : run.device = .opening)
      (hrun : Replaces run { run with device := .offering (pairingPin s.file s.now) }
        s.runs runs) :
      Step s .other { s with runs := runs }
  | lock {s : State} {run : Run} {pin : Text} {secret : Key} {runs : List Run}
      (hlock : s.commitLocked = false) (hphase : run.device = .locking pin secret)
      (hrun : Replaces run { run with device := .checking pin secret } s.runs runs) :
      Step s .other { s with runs := runs, commitLocked := true }
  | check {s : State} {run : Run} {pin : Text} {secret : Key} {runs : List Run}
      (hphase : run.device = .checking pin secret) (hpin : pairingPin s.file s.now = some pin)
      (hrun : Replaces run { run with device := .storing secret } s.runs runs) :
      Step s .other { s with runs := runs }
  | checkFails {s : State} {run : Run} {pin : Text} {secret : Key} {runs : List Run}
      (hphase : run.device = .checking pin secret) (hpin : pairingPin s.file s.now ≠ some pin)
      (hrun : Replaces run { run with device := .ended false } s.runs runs) :
      Step s .other { s with runs := runs, commitLocked := false }
  | store {s : State} {run : Run} {secret : Key} {runs : List Run}
      (hphase : run.device = .storing secret)
      (hrun : Replaces run { run with device := .removing } s.runs runs) :
      Step s (.deviceStores run) { s with runs := runs, deviceSecret := some secret }
  | removeFile {s : State} {run : Run} {runs : List Run} (hphase : run.device = .removing)
      (hrun : Replaces run { run with device := .completing } s.runs runs) :
      Step s .other { s with runs := runs, file := none }
  | complete {s : State} {run : Run} {runs : List Run} (hphase : run.device = .completing)
      (hrun : Replaces run
        { run with device := .ended true, toHost := run.toHost ++ [.complete] } s.runs runs) :
      Step s .other { s with runs := runs, commitLocked := false }
  | completeFails {s : State} {run : Run} {runs : List Run}
      (hphase : run.device = .completing)
      (hrun : Replaces run { run with device := .ended true } s.runs runs) :
      Step s .other { s with runs := runs, commitLocked := false }

def system : System State Action where
  init := fun s => ∃ file now, s = .initial file now
  step := Step

/-- No pairing run is in progress, on either side. -/
def State.Idle (s : State) : Prop :=
  ∀ run ∈ s.runs, run.host = .ended ∧ ∃ stored, run.device = .ended stored

/-- Where both sides have a record of the other, the secrets are equal. -/
def State.Agrees (s : State) : Prop :=
  ∀ a b, s.hostSecret = some a → s.deviceSecret = some b → a = b

end SideWire.PairingExchange
