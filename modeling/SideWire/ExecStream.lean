import SideWire.ConsoleOutput
import SideWire.ExecOutput

/-!
The output of a command on its way to the console: `handle_control_exec_stream` on the
server, once it has answered that the stream is ready, and the loop of `run_exec_client`.
-/

namespace SideWire.ExecStream

open SideWire.ByteString
open SideWire.ConsoleOutput (Str fromUtf8Lossy)
open SideWire.ExecOutput
open SideWire.FrameCodec
open SideWire.OrderedChannel
open SideWire.TransitionSystem

/-- Why the client returns an error: the texts of its `bail!`, and the calls under a `?`. -/
inductive Failure
  | remoteExitCode (code : Option Int)
  | remote (payload : Bytes)
  | unexpected (kind : FrameKind)
  | decode (message : String)
  | write
  | read

/-- Where the loop of `handle_control_exec_stream` stands. -/
inductive Relay
  | receiving
  | writing (frame : Frame)
  | ended

def Relay.hand : Relay → List Frame
  | .writing frame => [frame]
  | _ => []

/-- `done` of a frame. -/
def finishes (frame : Frame) : Bool := frame.kind == .execExit || frame.kind == .error

/-- The client has returned once it has a result. `disturbed` remembers that something has
failed or broken off on the way. -/
structure State where
  device : Device
  relay : Relay
  socket : Channel Frame
  printed : Output → Bytes
  client : Option (Except Failure Unit)
  disturbed : Bool

def State.initial : State := ⟨.initial, .receiving, .empty, fun _ => [], none, false⟩

inductive Action
  | device (action : ExecOutput.Action)
  | relay
  | client
  | fails

/-- The steps that the code takes by itself. -/
def Action.Own : Action → Prop
  | .device .handler | .relay | .client => True
  | _ => False

def disturbs : ExecOutput.Action → Bool
  | .fails | .cuts => true
  | _ => false

/-- `decode` for an `ExecExit`. -/
abbrev DecodeExit := Bytes → Except String (Option Int)

/-- What the client returns on an `ExecExit`. -/
def exitResult (decodeExit : DecodeExit) (payload : Bytes) : Except Failure Unit :=
  match decodeExit payload with
  | .error message => .error (.decode message)
  | .ok code => if code.getD 1 ≠ 0 then .error (.remoteExitCode code) else .ok ()

inductive Step (exec : Exec) (decodeExit : DecodeExit) : State → Action → State → Prop
  | device {s : State} {action : ExecOutput.Action} {device : Device}
      (hstep : ExecOutput.Step exec s.device action device)
      (hlocal : ∀ frame, action ≠ .host frame) :
      Step exec decodeExit s (.device action) { s with
        device := device, disturbed := s.disturbed || disturbs action }
  -- `handle_control_exec_stream`
  | recv {s : State} {frame : Frame} {device : Device} (hrelay : s.relay = .receiving)
      (hstep : ExecOutput.Step exec s.device (.host frame) device) :
      Step exec decodeExit s .relay { s with device := device, relay := .writing frame }
  | recvFails {s : State} (hrelay : s.relay = .receiving) (hcut : s.device.link.isCut = true) :
      Step exec decodeExit s .fails { s with relay := .ended, disturbed := true }
  | forward {s : State} {frame : Frame} (hrelay : s.relay = .writing frame) :
      Step exec decodeExit s .relay { s with
        relay := if finishes frame then .ended else .receiving
        socket := s.socket.put frame }
  | forwardFails {s : State} {frame : Frame} (hrelay : s.relay = .writing frame) :
      Step exec decodeExit s .fails { s with relay := .ended, disturbed := true }
  | cut {s : State} {kept : List Frame} (hkept : kept <+: s.socket.queue) :
      Step exec decodeExit s .fails { s with
        socket := s.socket.cut kept hkept, disturbed := true }
  -- `run_exec_client`
  | print {s : State} {frame : Frame} {rest : List Frame} {output : Output}
      (hclient : s.client = none) (hqueue : s.socket.queue = frame :: rest)
      (hkind : frame.kind = output.kind) :
      Step exec decodeExit s .client { s with
        socket := s.socket.take frame rest hqueue
        printed := Function.update s.printed output (s.printed output ++ frame.payload) }
  | printFails {s : State} {frame : Frame} {rest : List Frame} {output : Output} {part : Bytes}
      (hclient : s.client = none) (hqueue : s.socket.queue = frame :: rest)
      (hkind : frame.kind = output.kind) (hpart : part <+: frame.payload) :
      Step exec decodeExit s .fails { s with
        socket := s.socket.take frame rest hqueue
        printed := Function.update s.printed output (s.printed output ++ part)
        client := some (.error .write), disturbed := true }
  | exit {s : State} {frame : Frame} {rest : List Frame} (hclient : s.client = none)
      (hqueue : s.socket.queue = frame :: rest) (hkind : frame.kind = .execExit) :
      Step exec decodeExit s .client { s with
        socket := s.socket.take frame rest hqueue
        client := some (exitResult decodeExit frame.payload) }
  | exitFails {s : State} {frame : Frame} {rest : List Frame} (hclient : s.client = none)
      (hqueue : s.socket.queue = frame :: rest) (hkind : frame.kind = .execExit) :
      Step exec decodeExit s .fails { s with
        socket := s.socket.take frame rest hqueue
        client := some (.error .write), disturbed := true }
  | error {s : State} {frame : Frame} {rest : List Frame} (hclient : s.client = none)
      (hqueue : s.socket.queue = frame :: rest) (hkind : frame.kind = .error) :
      Step exec decodeExit s .client { s with
        socket := s.socket.take frame rest hqueue
        client := some (.error (.remote frame.payload)) }
  | unexpected {s : State} {frame : Frame} {rest : List Frame} (hclient : s.client = none)
      (hqueue : s.socket.queue = frame :: rest) (houtput : ¬ IsOutput frame)
      (hfinishes : finishes frame = false) :
      Step exec decodeExit s .client { s with
        socket := s.socket.take frame rest hqueue
        client := some (.error (.unexpected frame.kind)) }
  | readFails {s : State} (hclient : s.client = none)
      (hclosed : s.socket.isCut = true ∨ s.relay = .ended ∧ s.socket.queue = []) :
      Step exec decodeExit s .fails { s with client := some (.error .read), disturbed := true }

def system (exec : Exec) (decodeExit : DecodeExit) : System State Action where
  init s := s = .initial
  step := Step exec decodeExit

/-- The client has come to the exit code of the command. -/
def Exited : Except Failure Unit → Prop
  | .ok () | .error (.remoteExitCode _) => True
  | _ => False

structure Inv (exec : Exec) (decodeExit : DecodeExit) (s : State) : Prop where
  device : ExecOutput.Inv exec s.device
  forwarded : s.socket.sent ++ s.relay.hand <+: s.device.link.taken
  onward : s.relay ≠ .ended → s.socket.sent ++ s.relay.hand = s.device.link.taken
  printed : ∀ output, s.printed output <+: payloads output.kind s.socket.taken
  running : s.client = none → (∀ frame ∈ s.socket.taken, IsOutput frame) ∧
    ∀ output, s.printed output = payloads output.kind s.socket.taken
  exited : ∀ result, s.client = some result → Exited result →
    ∃ frame ∈ s.socket.taken, frame.kind = .execExit ∧
      result = exitResult decodeExit frame.payload ∧
      ∀ output, s.printed output = payloads output.kind s.socket.taken

section Steps

variable {exec : Exec} {decodeExit : DecodeExit} {s t : State} {a : Action}

theorem taken_of_local {d d' : Device} {action : ExecOutput.Action}
    (h : ExecOutput.Step exec d action d') (hlocal : ∀ frame, action ≠ .host frame) :
    d'.link.taken = d.link.taken := by
  cases h with
  | recv hqueue => exact absurd rfl (hlocal _)
  | _ => rfl

theorem taken_of_host {d d' : Device} {frame : Frame}
    (h : ExecOutput.Step exec d (.host frame) d') : d'.link.taken = d.link.taken ++ [frame] := by
  cases h with
  | recv hqueue => rfl

theorem payloads_concat (output : Output) (frames : List Frame) (frame : Frame) :
    payloads output.kind (frames ++ [frame]) = payloads output.kind frames ++
      (if frame.kind = output.kind then frame.payload else []) := by
  rw [payloads_append]
  simp [payloads]

theorem payloads_concat_of_not (output : Output) (frames : List Frame) {frame : Frame}
    (h : ¬ IsOutput frame) :
    payloads output.kind (frames ++ [frame]) = payloads output.kind frames := by
  rw [payloads_concat, if_neg fun hkind => h (isOutput_iff.mpr ⟨output, hkind⟩),
    List.append_nil]

theorem update_printed {printed : Output → Bytes} {taken : List Frame} {frame : Frame}
    {output : Output} {part : Bytes}
    (hprinted : ∀ output, printed output = payloads output.kind taken)
    (hkind : frame.kind = output.kind) (hpart : part <+: frame.payload) (other : Output) :
    Function.update printed output (printed output ++ part) other <+:
      payloads other.kind (taken ++ [frame]) := by
  rw [payloads_concat]
  by_cases heq : other = output
  · subst heq
    rw [Function.update_self, if_pos hkind, hprinted]
    exact (List.prefix_append_right_inj _).mpr hpart
  · rw [Function.update_of_ne heq, hprinted]
    exact List.prefix_append _ _

theorem update_printed_all {printed : Output → Bytes} {taken : List Frame} {frame : Frame}
    {output : Output} (hprinted : ∀ output, printed output = payloads output.kind taken)
    (hkind : frame.kind = output.kind) (other : Output) :
    Function.update printed output (printed output ++ frame.payload) other =
      payloads other.kind (taken ++ [frame]) := by
  rw [payloads_concat]
  by_cases heq : other = output
  · subst heq
    rw [Function.update_self, if_pos hkind, hprinted]
  · have hne : frame.kind ≠ other.kind := fun hother =>
      heq (kind_injective (hother.symm.trans hkind))
    rw [Function.update_of_ne heq, if_neg hne, List.append_nil, hprinted]

theorem not_exited_of_error {failure : Failure} (h : ∀ code, failure ≠ .remoteExitCode code) :
    ¬ Exited (.error failure) := by
  cases failure with
  | remoteExitCode code => exact absurd rfl (h code)
  | _ => exact id

theorem Inv.gives {frame : Frame} {rest : List Frame} {failure : Failure} {disturbed : Bool}
    {printed : Output → Bytes} (h : Inv exec decodeExit s)
    (hqueue : s.socket.queue = frame :: rest)
    (hprinted : ∀ output, printed output <+: payloads output.kind (s.socket.taken ++ [frame]))
    (hfailure : ∀ code, failure ≠ .remoteExitCode code) :
    Inv exec decodeExit { s with
      socket := s.socket.take frame rest hqueue, printed := printed
      client := some (.error failure), disturbed := disturbed } where
  device := h.device
  forwarded := h.forwarded
  onward := h.onward
  printed := hprinted
  running := nofun
  exited result hresult hexited := by
    obtain rfl := Option.some.inj hresult
    exact absurd hexited (not_exited_of_error hfailure)

theorem Inv.printed_concat (h : Inv exec decodeExit s) (frame : Frame) (output : Output) :
    s.printed output <+: payloads output.kind (s.socket.taken ++ [frame]) := by
  rw [payloads_append]
  exact (h.printed output).trans (List.prefix_append _ _)

theorem Inv.relayStep (h : Inv exec decodeExit s) (hstep : Step exec decodeExit s .relay t) :
    Inv exec decodeExit t := by
  cases hstep with
  | @recv frame device hrelay hstep =>
      have honward : s.socket.sent ++ [frame] = device.link.taken := by
        have hsent := h.onward (by simp [hrelay])
        rw [taken_of_host hstep, ← hsent, hrelay]
        simp [Relay.hand]
      exact ⟨h.device.step hstep, honward ▸ List.prefix_refl _, fun _ => honward, h.printed,
        h.running, h.exited⟩
  | @forward frame hrelay =>
      have honward := h.onward (by simp [hrelay])
      rw [hrelay, Relay.hand] at honward
      refine ⟨h.device, ?_, fun hended => ?_, h.printed, h.running, h.exited⟩
      · split <;> simp [Relay.hand, honward]
      · split <;> simp [Relay.hand, honward]

theorem Inv.clientStep (h : Inv exec decodeExit s) (hstep : Step exec decodeExit s .client t) :
    Inv exec decodeExit t := by
  cases hstep with
  | @print frame rest output hclient hqueue hkind =>
      obtain ⟨houtputs, hprinted⟩ := h.running hclient
      have hupdate := update_printed_all hprinted hkind
      refine ⟨h.device, h.forwarded, h.onward, fun other => (hupdate other) ▸ List.prefix_refl _,
        fun _ => ⟨?_, hupdate⟩, fun result hresult => absurd hresult (by simp [hclient])⟩
      exact List.forall_mem_append.mpr
        ⟨houtputs, List.forall_mem_singleton.mpr (isOutput_iff.mpr ⟨output, hkind⟩)⟩
  | @exit frame rest hclient hqueue hkind =>
      obtain ⟨houtputs, hprinted⟩ := h.running hclient
      refine ⟨h.device, h.forwarded, h.onward, h.printed_concat frame, nofun, ?_⟩
      intro result hresult _
      refine ⟨frame, by simp, hkind, (Option.some.inj hresult).symm, fun output => ?_⟩
      rw [hprinted, Channel.taken_take,
        payloads_concat_of_not output _ (not_isOutput_exit hkind)]
  | @error frame rest hclient hqueue hkind =>
      exact h.gives hqueue (h.printed_concat frame) nofun
  | @unexpected frame rest hclient hqueue houtput hfinishes =>
      exact h.gives hqueue (h.printed_concat frame) nofun

theorem Inv.failsStep (h : Inv exec decodeExit s) (hstep : Step exec decodeExit s .fails t) :
    Inv exec decodeExit t := by
  have hshort : s.socket.sent ++ Relay.ended.hand <+: s.device.link.taken :=
    ((List.prefix_append_right_inj _).mpr (List.nil_prefix)).trans h.forwarded
  cases hstep with
  | recvFails hrelay hcut | forwardFails hrelay =>
      exact ⟨h.device, hshort, fun hended => absurd rfl hended, h.printed, h.running, h.exited⟩
  | cut hkept => exact ⟨h.device, h.forwarded, h.onward, h.printed, h.running, h.exited⟩
  | @printFails frame rest output part hclient hqueue hkind hpart =>
      exact h.gives hqueue (update_printed (h.running hclient).2 hkind hpart) nofun
  | @exitFails frame rest hclient hqueue hkind =>
      exact h.gives hqueue (h.printed_concat frame) nofun
  | readFails hclient hclosed =>
      refine ⟨h.device, h.forwarded, h.onward, h.printed, nofun, fun result hresult hexited => ?_⟩
      obtain rfl := Option.some.inj hresult
      exact hexited.elim

theorem Inv.step (h : Inv exec decodeExit s) (hstep : Step exec decodeExit s a t) :
    Inv exec decodeExit t := by
  cases a with
  | device action =>
      cases hstep with
      | @device _ device hstep hlocal =>
          have htaken := taken_of_local hstep hlocal
          exact ⟨h.device.step hstep, htaken ▸ h.forwarded, fun hended => htaken ▸ h.onward hended,
            h.printed, h.running, h.exited⟩
  | relay => exact h.relayStep hstep
  | client => exact h.clientStep hstep
  | fails => exact h.failsStep hstep

theorem inv_of_reachable (h : (system exec decodeExit).Reachable s) : Inv exec decodeExit s := by
  refine h.invariant ?_ fun _ _ _ hinv hstep => hinv.step hstep
  rintro _ rfl
  exact ⟨ExecOutput.inv_of_reachable ⟨_, rfl, .refl⟩, List.prefix_refl _, fun _ => rfl,
    fun _ => List.prefix_refl _, fun _ => ⟨nofun, fun _ => rfl⟩, nofun⟩

theorem Inv.taken_link (h : Inv exec decodeExit s) : s.socket.taken <+: s.device.link.taken :=
  s.socket.taken_prefix.trans ((List.prefix_append _ _).trans h.forwarded)

end Steps

/-- A decoder reads back the exit codes that were encoded. -/
def Reads (exec : Exec) (decodeExit : DecodeExit) : Prop :=
  ∀ code payload, exec.encodeExit code = .ok payload → decodeExit payload = .ok code

/-- The result that the client returns for an exit code. -/
def codeResult (code : Option Int) : Except Failure Unit :=
  if code.getD 1 ≠ 0 then .error (.remoteExitCode code) else .ok ()

section Outcome

variable {exec : Exec} {decodeExit : DecodeExit} {s : State}

theorem Reads.exitResult_eq (h : Reads exec decodeExit) {code : Option Int} {payload : Bytes}
    (hencode : exec.encodeExit code = .ok payload) :
    exitResult decodeExit payload = codeResult code := by
  rw [exitResult, h code payload hencode]
  rfl

theorem payloads_complete {d : Device} {front : List Frame} {code : Option Int} {payload : Bytes}
    (h : Complete exec d front code payload) (output : Output) :
    payloads output.kind (front ++ [exec.exitFrame payload]) = (d.command.pipe output).written := by
  rw [payloads_append, payloads_exitFrame, List.append_nil, h.bytes output]

theorem Inv.outcome (h : Inv exec decodeExit s) (hreads : Reads exec decodeExit)
    {result : Except Failure Unit} (hresult : s.client = some result) (hexited : Exited result) :
    ∃ front code payload, Complete exec s.device front code payload ∧
      s.device.link.taken = front ++ [exec.exitFrame payload] ∧ result = codeResult code ∧
      ∀ output, s.printed output = (s.device.command.pipe output).written := by
  obtain ⟨frame, hmem, hkind, rfl, hprinted⟩ := h.exited result hresult hexited
  obtain ⟨front, code, payload, hcomplete, hlink⟩ :=
    h.device.complete_of_taken (h.taken_link.mem hmem) hkind
  have htaken : s.socket.taken = front ++ [exec.exitFrame payload] :=
    Channel.eq_of_prefix_of_last (hlink ▸ h.taken_link) hcomplete.no_exit hmem hkind
  have hframe := hcomplete.eq_exitFrame (htaken ▸ hmem) hkind
  refine ⟨front, code, payload, hcomplete, hlink, ?_, fun output => ?_⟩
  · rw [hframe]
    exact hreads.exitResult_eq hcomplete.encode
  · rw [hprinted, htaken, payloads_complete hcomplete]

end Outcome

/-- Whatever the command, the handler, the server and the client do, and in whatever order: the
console has the beginning of each output, with nothing lost in between, doubled or moved, and
once the client has come to an exit code, it is that of the command, which is then over, and
all of its output has been printed. -/
theorem printed_faithful {exec : Exec} {decodeExit : DecodeExit} (hreads : Reads exec decodeExit)
    {s : State} (h : (system exec decodeExit).Reachable s) :
    (∀ output, s.printed output <+: (s.device.command.pipe output).written) ∧
      ∀ result, s.client = some result → Exited result →
        ∃ code, s.device.command.status = .exited code ∧ result = codeResult code ∧
          ∀ output, (s.device.command.pipe output).Drained ∧
            s.printed output = (s.device.command.pipe output).written := by
  have hinv := inv_of_reachable h
  constructor
  · intro output
    have hlink : s.socket.taken <+: s.device.link.sent :=
      hinv.taken_link.trans s.device.link.taken_prefix
    calc s.printed output <+: payloads output.kind s.socket.taken := hinv.printed output
      _ <+: payloads output.kind s.device.link.sent := payloads_prefix _ hlink
      _ <+: (s.device.command.pipe output).written := hinv.device.behind output
  · intro result hresult hexited
    obtain ⟨front, code, payload, hcomplete, -, hcode, hprinted⟩ :=
      hinv.outcome hreads hresult hexited
    exact ⟨code, hcomplete.status, hcode, fun output =>
      ⟨hcomplete.drained output, hprinted output⟩⟩

/-- Exit codes that take a single byte. -/
def smallExec : Exec where
  streamId := 1
  encodeExit
    | none => .ok [0]
    | some code =>
        if 0 ≤ code ∧ code < 64 then .ok [1, UInt8.ofNat (2 * code.toNat)]
        else .error "large exit code"

def decodeSmall : DecodeExit
  | [0] => .ok none
  | [1, byte] => .ok (some (byte.toNat / 2))
  | _ => .error "unexpected end"

theorem reads_small : Reads smallExec decodeSmall := by
  rintro (_ | code) payload hencode
  · obtain rfl := Except.ok.inj hencode
    rfl
  · simp only [smallExec] at hencode
    split at hencode
    · rename_i hsmall
      obtain rfl := Except.ok.inj hencode
      simp [decodeSmall]
      omega
    · cases hencode

theorem eq_of_codeResult {code code' : Option Int}
    (h : Except.error (.remoteExitCode code) = codeResult code') : code = code' := by
  unfold codeResult at h
  split at h <;> cases h
  rfl

/-- A command prints two letters and exits with code 3. -/
theorem exists_exited : ∃ s, (system smallExec decodeSmall).Reachable s ∧
    s.client = some (.error (.remoteExitCode (some 3))) ∧
    s.printed .stdout = [0x68, 0x69] := by
  exact ⟨_, ⟨.initial, rfl,
    System.Leads.head (.device (.spawn rfl) fun _ => nofun) <|
    System.Leads.head
      (.device (@ExecOutput.Step.write _ _ .stdout [0x68, 0x69] rfl) fun _ => nofun) <|
    System.Leads.head (.device (@ExecOutput.Step.read _ _ _ .stdout [0x68, 0x69] []
      rfl rfl trivial rfl ⟨by simp, by decide⟩) fun _ => nofun) <|
    System.Leads.head (.device (.send rfl) fun _ => nofun) <|
    System.Leads.head (.recv rfl (.recv rfl)) <| System.Leads.head (.forward rfl) <|
    System.Leads.head (@Step.print _ _ _ _ _ .stdout rfl rfl rfl) <|
    -- the command is over, and closes what it wrote to
    System.Leads.head (.device (.exit (some 3) rfl) fun _ => nofun) <|
    System.Leads.head (.device (@ExecOutput.Step.close _ _ .stdout) fun _ => nofun) <|
    System.Leads.head (.device (@ExecOutput.Step.close _ _ .stderr) fun _ => nofun) <|
    System.Leads.head (.device (@ExecOutput.Step.eof _ _ _ .stdout
      rfl rfl trivial ⟨rfl, rfl⟩) fun _ => nofun) <|
    System.Leads.head (.device (@ExecOutput.Step.eof _ _ _ .stderr
      rfl rfl (Or.inl rfl) ⟨rfl, rfl⟩) fun _ => nofun) <|
    System.Leads.head
      (.device (.leave rfl fun output => by cases output <;> rfl) fun _ => nofun) <|
    System.Leads.head (.device (.wait rfl rfl rfl) fun _ => nofun) <|
    System.Leads.head (.device (.sendExit rfl) fun _ => nofun) <|
    System.Leads.head (.recv rfl (.recv rfl)) <| System.Leads.head (.forward rfl) <|
    .single (.exit rfl rfl rfl)⟩, rfl, rfl⟩

theorem printed_faithful_exited : ∃ s, (system smallExec decodeSmall).Reachable s ∧
    s.device.command.status = .exited (some 3) ∧
    (s.device.command.pipe .stdout).written = [0x68, 0x69] := by
  obtain ⟨s, h, hclient, hprinted⟩ := exists_exited
  obtain ⟨-, hexited⟩ := printed_faithful reads_small h
  obtain ⟨code, hstatus, hcode, hall⟩ := hexited _ hclient trivial
  refine ⟨s, h, eq_of_codeResult hcode ▸ hstatus, ?_⟩
  rw [← (hall .stdout).2, hprinted]

/-! `remote_exec`, which collects the output instead. -/

/-- The loop of `remote_exec` over the frames that `recv` hands out, with `none` where it waits
for more. -/
def remoteExecLoop (decodeExit : DecodeExit) (stdout stderr : Bytes) :
    List Frame → Option (Except Failure (Str × Str × Option Int))
  | [] => none
  | response :: rest =>
      match response.kind with
      | .execStdout => remoteExecLoop decodeExit (stdout ++ response.payload) stderr rest
      | .execStderr => remoteExecLoop decodeExit stdout (stderr ++ response.payload) rest
      | .execExit =>
          match decodeExit response.payload with
          | .error message => some (.error (.decode message))
          | .ok code => some (.ok (fromUtf8Lossy stdout, fromUtf8Lossy stderr, code))
      | .error => some (.error (.remote response.payload))
      | _ => remoteExecLoop decodeExit stdout stderr rest

def remoteExec (decodeExit : DecodeExit) :
    List Frame → Option (Except Failure (Str × Str × Option Int)) :=
  remoteExecLoop decodeExit [] []

section Collecting

variable {decodeExit : DecodeExit}

theorem payloads_cons (kind : FrameKind) (frame : Frame) (frames : List Frame) :
    payloads kind (frame :: frames) =
      (if frame.kind = kind then frame.payload else []) ++ payloads kind frames := rfl

theorem remoteExecLoop_outputs (stdout stderr : Bytes) {front : List Frame}
    (hfront : ∀ frame ∈ front, IsOutput frame) (back : List Frame) :
    remoteExecLoop decodeExit stdout stderr (front ++ back) =
      remoteExecLoop decodeExit (stdout ++ payloads .execStdout front)
        (stderr ++ payloads .execStderr front) back := by
  induction front generalizing stdout stderr with
  | nil => simp [payloads]
  | cons frame front ih =>
      obtain ⟨hframe, hfront⟩ := List.forall_mem_cons.mp hfront
      rcases hframe with hkind | hkind
      · rw [List.cons_append, remoteExecLoop, hkind]
        simp only [ih _ _ hfront, payloads_cons, hkind]
        simp
      · rw [List.cons_append, remoteExecLoop, hkind]
        simp only [ih _ _ hfront, payloads_cons, hkind]
        simp

theorem remoteExec_exit {exec : Exec} (hreads : Reads exec decodeExit) {d : Device}
    {front : List Frame} {code : Option Int} {payload : Bytes}
    (h : Complete exec d front code payload) :
    remoteExec decodeExit (front ++ [exec.exitFrame payload]) =
      some (.ok (fromUtf8Lossy (d.command.pipe .stdout).written,
        fromUtf8Lossy (d.command.pipe .stderr).written, code)) := by
  have hstdout : payloads .execStdout front = (d.command.pipe .stdout).written := h.bytes .stdout
  have hstderr : payloads .execStderr front = (d.command.pipe .stderr).written := h.bytes .stderr
  rw [remoteExec, remoteExecLoop_outputs _ _ h.outputs, hstdout, hstderr]
  simp [remoteExecLoop, Exec.exitFrame, hreads code payload h.encode]

theorem exit_of_remoteExecLoop {frames : List Frame} {stdout stderr : Bytes}
    {answer : Str × Str × Option Int}
    (h : remoteExecLoop decodeExit stdout stderr frames = some (.ok answer)) :
    ∃ frame ∈ frames, frame.kind = .execExit := by
  induction frames generalizing stdout stderr with
  | nil => cases h
  | cons frame frames ih =>
      have hlater : (∃ frame ∈ frames, frame.kind = .execExit) →
          ∃ other ∈ frame :: frames, other.kind = .execExit := by
        rintro ⟨other, hmem, hkind⟩
        exact ⟨other, List.mem_cons_of_mem _ hmem, hkind⟩
      rw [remoteExecLoop] at h
      cases hkind : frame.kind with
      | execExit => exact ⟨frame, List.mem_cons_self, hkind⟩
      | error =>
          rw [hkind] at h
          cases h
      | _ =>
          rw [hkind] at h
          exact hlater (ih h)

end Collecting

/-- Collecting the output and streaming it come to the same, however it was cut into frames and
mixed: an answer of `remote_exec` is the text of all that the command wrote, with its exit code,
and where the client has come to an exit code, what it printed is what would have been collected
from the same frames. -/
theorem remoteExec_agrees {exec : Exec} {decodeExit : DecodeExit} (hreads : Reads exec decodeExit)
    {s : State} (h : (system exec decodeExit).Reachable s) :
    (∀ answer, remoteExec decodeExit s.device.link.taken = some (.ok answer) →
        ∃ code, s.device.command.status = .exited code ∧
          (∀ output, (s.device.command.pipe output).Drained) ∧
          answer = (fromUtf8Lossy (s.device.command.pipe .stdout).written,
            fromUtf8Lossy (s.device.command.pipe .stderr).written, code)) ∧
      ∀ result, s.client = some result → Exited result →
        ∃ code, result = codeResult code ∧
          remoteExec decodeExit s.device.link.taken =
            some (.ok (fromUtf8Lossy (s.printed .stdout), fromUtf8Lossy (s.printed .stderr),
              code)) := by
  have hinv := inv_of_reachable h
  constructor
  · intro answer hanswer
    obtain ⟨frame, hmem, hkind⟩ := exit_of_remoteExecLoop hanswer
    obtain ⟨front, code, payload, hcomplete, htaken⟩ :=
      hinv.device.complete_of_taken hmem hkind
    rw [htaken, remoteExec_exit hreads hcomplete, Option.some.injEq, Except.ok.injEq] at hanswer
    exact ⟨code, hcomplete.status, hcomplete.drained, hanswer.symm⟩
  · intro result hresult hexited
    obtain ⟨front, code, payload, hcomplete, hlink, hcode, hprinted⟩ :=
      hinv.outcome hreads hresult hexited
    refine ⟨code, hcode, ?_⟩
    rw [hlink, remoteExec_exit hreads hcomplete, hprinted, hprinted]

theorem remoteExec_agrees_exited : ∃ s, (system smallExec decodeSmall).Reachable s ∧
    remoteExec decodeSmall s.device.link.taken =
      some (.ok (fromUtf8Lossy [0x68, 0x69], fromUtf8Lossy (s.printed .stderr), some 3)) := by
  obtain ⟨s, h, hclient, hprinted⟩ := exists_exited
  obtain ⟨-, hexited⟩ := remoteExec_agrees reads_small h
  obtain ⟨code, hcode, hcollected⟩ := hexited _ hclient trivial
  refine ⟨s, h, ?_⟩
  rw [hcollected, hprinted, eq_of_codeResult hcode]

end SideWire.ExecStream
