import SideWire.ExecStream

namespace SideWire.ExecStream

open SideWire.ByteString
open SideWire.ExecOutput
open SideWire.FrameCodec
open SideWire.OrderedChannel
open SideWire.ProcessCancellation (execBufferSize)
open SideWire.TransitionSystem

/-- The command is over, and nobody has its pipes any more. -/
structure Ended (command : Command) (code : Option Int) : Prop where
  closed : ∀ output, (command.pipe output).isOpen = false
  status : command.status = .exited code

/-- What is known of a state while nothing has failed or broken off. -/
structure Calm (exec : Exec) (s : State) : Prop where
  link : s.device.link.isCut = false
  socket : s.socket.isCut = false
  handler : s.device.phase ≠ .failing
  complete : s.device.phase = .ended →
    ∃ front code payload, Complete exec s.device front code payload
  forwarded : s.socket.sent ++ s.relay.hand = s.device.link.taken
  ended : s.relay = .ended → ∃ frame ∈ s.socket.sent, frame.kind = .execExit

def readingWork (done : Output → Bool) : Nat :=
  9 + (!done .stdout).toNat + (!done .stderr).toNat

def phaseWork : Phase → Nat
  | .starting => 12
  | .reading done => readingWork done
  | .sending _ _ done => readingWork done + 5
  | .waiting => 8
  | .exiting _ => 7
  | .failing | .ended => 0

/-- What is left to do, with a weight for each place that a byte or a frame has yet to leave. -/
def deviceWork (d : Device) : Nat :=
  6 * ((d.command.pipe .stdout).data.length + (d.command.pipe .stderr).data.length) +
    phaseWork d.phase + 4 * d.link.queue.length

def State.work (s : State) : Nat :=
  deviceWork s.device + 3 * s.relay.hand.length + 2 * s.socket.queue.length

section Progress

variable {exec : Exec} {decodeExit : DecodeExit} {s t : State} {a : Action}

theorem complete_of_step {d d' : Device} {action : ExecOutput.Action}
    (hinv : ExecOutput.Inv exec d) (hstep : ExecOutput.Step exec d action d')
    (hcalm : disturbs action = false)
    (h : d.phase = .ended → ∃ front code payload, Complete exec d front code payload)
    (hended : d'.phase = .ended) :
    ∃ front code payload, Complete exec d' front code payload := by
  have hinv' := hinv.step hstep
  have hexit : ∃ frame ∈ d'.link.sent, frame.kind = .execExit := by
    cases hstep with
    | @sendExit payload hphase => exact ⟨exec.exitFrame payload, by simp, rfl⟩
    | write | close | exit | recv =>
        obtain ⟨front, code, payload, hcomplete⟩ := h hended
        have hmem := hcomplete.exit_mem
        exact ⟨_, hmem, rfl⟩
    | fail | sendError | dropError | cut => cases hcalm
    | spawn | read | eof | send | leave | wait => cases hended
  obtain ⟨frame, hmem, hkind⟩ := hexit
  exact hinv'.complete_of_exit hmem hkind

theorem calm_of_device {d d' : Device} {action : ExecOutput.Action}
    (hstep : ExecOutput.Step exec d action d') (hcalm : disturbs action = false) :
    d'.link.isCut = d.link.isCut ∧ (d.phase ≠ .failing → d'.phase ≠ .failing) := by
  cases hstep with
  | fail | sendError | dropError | cut => cases hcalm
  | spawn | read | eof | send | leave | wait | sendExit => exact ⟨rfl, fun _ => nofun⟩
  | write | close | exit | recv => exact ⟨rfl, id⟩

theorem isOutput_or_exit {d : Device} (hinv : ExecOutput.Inv exec d)
    (hhandler : d.phase ≠ .failing)
    (hcomplete : d.phase = .ended → ∃ front code payload, Complete exec d front code payload)
    {frame : Frame} (hmem : frame ∈ d.link.sent) : IsOutput frame ∨ frame.kind = .execExit := by
  by_cases hrunning : d.phase.Running
  · exact .inl ((hinv.running hrunning).outputs frame hmem)
  cases hphase : d.phase with
  | failing => exact absurd hphase hhandler
  | ended =>
      obtain ⟨front, code, payload, hcomplete⟩ := hcomplete hphase
      rw [hcomplete.sent, List.mem_append, List.mem_singleton] at hmem
      rcases hmem with hmem | rfl
      · exact .inl (hcomplete.outputs frame hmem)
      · exact .inr rfl
  | _ => simp [hphase, Phase.Running] at hrunning

theorem Calm.kind (h : Calm exec s) (hinv : Inv exec decodeExit s) {frame : Frame}
    (hmem : frame ∈ s.device.link.taken) : IsOutput frame ∨ frame.kind = .execExit :=
  isOutput_or_exit hinv.device h.handler h.complete (Channel.mem_sent hmem)

theorem exit_of_finishes {frame : Frame} (hkind : IsOutput frame ∨ frame.kind = .execExit)
    (hfinishes : finishes frame = true) : frame.kind = .execExit := by
  rcases hkind with (hkind | hkind) | hkind
  · simp [finishes, hkind] at hfinishes
  · simp [finishes, hkind] at hfinishes
  · exact hkind

theorem Calm.step (hinv : Inv exec decodeExit s)
    (hcalm : s.disturbed = false → Calm exec s) (hstep : Step exec decodeExit s a t)
    (hdisturbed : t.disturbed = false) : Calm exec t := by
  cases hstep with
  | @device action device hstep hlocal =>
      obtain ⟨hbefore, haction⟩ := Bool.or_eq_false_iff.mp hdisturbed
      obtain ⟨hlink, hsocket, hhandler, hcomplete, hforwarded, hended⟩ := hcalm hbefore
      obtain ⟨hcut, hfailing⟩ := calm_of_device hstep haction
      exact ⟨hcut.trans hlink, hsocket, hfailing hhandler,
        complete_of_step hinv.device hstep haction hcomplete,
        hforwarded.trans (taken_of_local hstep hlocal).symm, hended⟩
  | @recv frame device hrelay hstep =>
      obtain ⟨hlink, hsocket, hhandler, hcomplete, hforwarded, hended⟩ := hcalm hdisturbed
      obtain ⟨hcut, hfailing⟩ := calm_of_device hstep rfl
      refine ⟨hcut.trans hlink, hsocket, hfailing hhandler,
        complete_of_step hinv.device hstep rfl hcomplete, ?_, nofun⟩
      rw [hrelay] at hforwarded
      simpa [taken_of_host hstep, Relay.hand] using hforwarded
  | @forward frame hrelay =>
      have hnow := hcalm hdisturbed
      have hforwarded := hnow.forwarded
      have hkind : IsOutput frame ∨ frame.kind = .execExit :=
        hnow.kind hinv (by simp [← hforwarded, hrelay, Relay.hand])
      rw [hrelay, Relay.hand] at hforwarded
      refine ⟨hnow.link, hnow.socket, hnow.handler, hnow.complete, ?_, fun hover => ?_⟩
      · split <;> simpa [Relay.hand] using hforwarded
      · cases hfinishes : finishes frame with
        | false => simp [hfinishes] at hover
        | true => exact ⟨frame, by simp, exit_of_finishes hkind hfinishes⟩
  | print | exit | error | unexpected =>
      obtain ⟨hlink, hsocket, hhandler, hcomplete, hforwarded, hended⟩ := hcalm hdisturbed
      exact ⟨hlink, hsocket, hhandler, hcomplete, hforwarded, hended⟩
  | recvFails | forwardFails | cut | printFails | exitFails | readFails => cases hdisturbed

theorem calm_of_reachable (h : (system exec decodeExit).Reachable s)
    (hdisturbed : s.disturbed = false) : Calm exec s := by
  revert hdisturbed
  refine h.invariant_of (P := Inv exec decodeExit)
    (Q := fun s => s.disturbed = false → Calm exec s) (fun _ => inv_of_reachable) ?_ ?_
  · rintro _ rfl -
    exact ⟨rfl, rfl, nofun, nofun, rfl, nofun⟩
  · intro u b v hinv hcalm hstep hdisturbed
    exact Calm.step hinv hcalm hstep hdisturbed

/-- The handler goes on, and the command stays as it is. -/
structure Advances (exec : Exec) (code : Option Int) (d d' : Device) : Prop where
  step : ExecOutput.Step exec d .handler d'
  less : deviceWork d' < deviceWork d
  ended : Ended d'.command code
  written : ∀ output, (d'.command.pipe output).written = (d.command.pipe output).written

theorem advances_of_unread {d : Device} {code : Option Int} {done : Output → Bool}
    {output : Output} (hended : Ended d.command code) (hphase : d.phase = .reading done)
    (hdone : done output = false) (hturn : d.Turn done output) :
    ∃ d', Advances exec code d d' := by
  by_cases hdata : (d.command.pipe output).data = []
  · refine ⟨_, .eof hphase hdone hturn ⟨hdata, hended.closed output⟩, ?_, hended, fun _ => rfl⟩
    cases output <;> simp [deviceWork, phaseWork, readingWork, hphase, hdone]
  · have hpositive : 0 < (d.command.pipe output).data.length := List.length_pos_iff.mpr hdata
    have hchunk : (d.command.pipe output).data.take execBufferSize ≠ [] := by
      simp [hdata, execBufferSize]
    refine ⟨_, .read hphase hdone hturn (List.take_append_drop execBufferSize _).symm
      ⟨hchunk, List.length_take_le _ _⟩, ?_, ⟨fun other => ?_, hended.status⟩, fun other => ?_⟩
    · cases output <;>
        simp only [deviceWork, phaseWork, hphase, Command.setPipe, Function.update_self,
          List.length_drop, execBufferSize] at hpositive ⊢ <;>
        simp <;> omega
    · by_cases heq : other = output
      · subst heq
        rw [Command.pipe_setPipe_self]
        exact hended.closed other
      · rw [Command.pipe_setPipe_of_ne _ _ heq]
        exact hended.closed other
    · by_cases heq : other = output
      · subst heq
        rw [Command.pipe_setPipe_self, Pipe.written, Pipe.written, List.append_assoc,
          List.take_append_drop]
      · rw [Command.pipe_setPipe_of_ne _ _ heq]

theorem handler_advances {d : Device} {code : Option Int} (hinv : ExecOutput.Inv exec d)
    (hended : Ended d.command code) {payload : Bytes} (hencode : exec.encodeExit code = .ok payload)
    (hcut : d.link.isCut = false) (hhandler : d.phase ≠ .failing) (hover : d.phase ≠ .ended) :
    ∃ d', Advances exec code d d' := by
  cases hphase : d.phase with
  | starting =>
      have hunborn := (hinv.starting hphase).2
      exact absurd hended.status (by simp [hunborn])
  | reading done =>
      by_cases hstdout : done .stdout = true
      · by_cases hstderr : done .stderr = true
        · refine ⟨_, .leave hphase fun output => by cases output <;> assumption, ?_, hended,
            fun _ => rfl⟩
          simp [deviceWork, phaseWork, readingWork, hphase]
          omega
        · have hturn : d.Turn done .stderr := Or.inl hstdout
          exact advances_of_unread hended hphase (by simpa using hstderr) hturn
      · have hopen : done .stdout = false := by simpa using hstdout
        exact advances_of_unread hended hphase hopen trivial
  | sending output chunk done =>
      refine ⟨_, .send hphase, ?_, hended, fun _ => rfl⟩
      simp [deviceWork, phaseWork, hphase, Channel.queue_put _ hcut]
      omega
  | waiting =>
      refine ⟨_, .wait hphase hended.status hencode, ?_, hended, fun _ => rfl⟩
      simp [deviceWork, phaseWork, hphase]
  | exiting payload =>
      refine ⟨_, .sendExit hphase, ?_, hended, fun _ => rfl⟩
      simp [deviceWork, phaseWork, hphase, Channel.queue_put _ hcut]
      omega
  | failing => exact absurd hphase hhandler
  | ended => exact absurd hphase hover

/-- One step of the code, after which there is less to do, or the client has the exit code. -/
structure Goes (exec : Exec) (decodeExit : DecodeExit) (code : Option Int) (s t : State) :
    Prop where
  own : (system exec decodeExit).NextBy Action.Own s t
  ended : Ended t.device.command code
  written : ∀ output,
    (t.device.command.pipe output).written = (s.device.command.pipe output).written
  calm : t.disturbed = false
  goal : t.client = none ∧ t.work < s.work ∨
    ∃ frame ∈ t.socket.taken, frame.kind = .execExit ∧
      t.client = some (exitResult decodeExit frame.payload)

theorem goes_of_queued {code : Option Int} (hinv : Inv exec decodeExit s) (hcalm : Calm exec s)
    (hdisturbed : s.disturbed = false) (hclient : s.client = none)
    (hended : Ended s.device.command code) {frame : Frame} {rest : List Frame}
    (hqueue : s.socket.queue = frame :: rest) : ∃ t, Goes exec decodeExit code s t := by
  have hsent : frame ∈ s.socket.sent := Channel.mem_sent_of_mem_queue (by simp [hqueue])
  have htaken : frame ∈ s.device.link.taken := by
    rw [← hcalm.forwarded]
    exact List.mem_append_left _ hsent
  rcases hcalm.kind hinv htaken with hkind | hkind
  · obtain ⟨output, hkind⟩ := isOutput_iff.mp hkind
    refine ⟨_, ⟨.client, trivial, .print hclient hqueue hkind⟩, hended, fun _ => rfl, hdisturbed,
      .inl ⟨hclient, ?_⟩⟩
    simp [State.work, hqueue]
  · exact ⟨_, ⟨.client, trivial, .exit hclient hqueue hkind⟩, hended, fun _ => rfl, hdisturbed,
      .inr ⟨frame, by simp, hkind, rfl⟩⟩

theorem hand_forwarded (frame : Frame) :
    (if finishes frame then Relay.ended else Relay.receiving).hand = [] := by
  split <;> rfl

theorem deviceWork_recv {d : Device} {frame : Frame} {rest : List Frame}
    (hqueue : d.link.queue = frame :: rest) :
    deviceWork { d with link := d.link.take frame rest hqueue } + 4 = deviceWork d := by
  simp [deviceWork, hqueue]
  omega

theorem handler_ne_host (frame : Frame) :
    ExecOutput.Action.handler ≠ ExecOutput.Action.host frame := fun heq => by cases heq

/-- While the client waits, something goes on. -/
theorem goes {code : Option Int} {payload : Bytes} (hinv : Inv exec decodeExit s)
    (hcalm : Calm exec s) (hdisturbed : s.disturbed = false) (hclient : s.client = none)
    (hended : Ended s.device.command code) (hencode : exec.encodeExit code = .ok payload) :
    ∃ t, Goes exec decodeExit code s t := by
  have hwaits : ∀ frame ∈ s.socket.taken, frame.kind ≠ .execExit := fun frame hmem hkind =>
    not_isOutput_exit hkind ((hinv.running hclient).1 frame hmem)
  cases hsocket : s.socket.queue with
  | cons frame rest => exact goes_of_queued hinv hcalm hdisturbed hclient hended hsocket
  | nil =>
      have htaken : s.socket.taken = s.socket.sent := Channel.taken_eq_sent hcalm.socket hsocket
      cases hrelay : s.relay with
      | ended =>
          obtain ⟨frame, hmem, hkind⟩ := hcalm.ended hrelay
          exact absurd hkind (hwaits frame (htaken ▸ hmem))
      | writing frame =>
          refine ⟨_, ⟨.relay, trivial, .forward hrelay⟩, hended, fun _ => rfl, hdisturbed,
            .inl ⟨hclient, ?_⟩⟩
          simp only [State.work, hrelay, hand_forwarded, Channel.queue_put _ hcalm.socket]
          simp only [Relay.hand, List.length_append, List.length_singleton, List.length_nil]
          omega
      | receiving =>
          cases hlink : s.device.link.queue with
          | cons frame rest =>
              refine ⟨_, ⟨.relay, trivial, .recv hrelay (.recv hlink)⟩, hended, fun _ => rfl,
                hdisturbed, .inl ⟨hclient, ?_⟩⟩
              have hwork := deviceWork_recv hlink
              simp only [State.work, hrelay, Relay.hand, List.length_nil, List.length_singleton]
              omega
          | nil =>
              have hnot : s.device.phase ≠ .ended := by
                intro hphase
                obtain ⟨front, code', payload', hcomplete⟩ := hcalm.complete hphase
                have hall : s.socket.taken = s.device.link.sent := by
                  rw [htaken, ← Channel.taken_eq_sent hcalm.link hlink, ← hcalm.forwarded, hrelay]
                  simp [Relay.hand]
                have hmem := hcomplete.exit_mem
                exact hwaits _ (hall ▸ hmem) rfl
              obtain ⟨d, hadvances⟩ :=
                handler_advances hinv.device hended hencode hcalm.link hcalm.handler hnot
              refine ⟨_, ⟨.device .handler, trivial, .device hadvances.step handler_ne_host⟩,
                hadvances.ended, hadvances.written, by simp [hdisturbed, disturbs],
                .inl ⟨hclient, ?_⟩⟩
              have hless := hadvances.less
              simp only [State.work]
              omega

theorem comes_through {code : Option Int} {payload : Bytes}
    (h : (system exec decodeExit).Reachable s) (hdisturbed : s.disturbed = false)
    (hclient : s.client = none) (hended : Ended s.device.command code)
    (hencode : exec.encodeExit code = .ok payload) :
    ∃ t, (system exec decodeExit).LeadsBy Action.Own s t ∧ Ended t.device.command code ∧
      (∀ output,
        (t.device.command.pipe output).written = (s.device.command.pipe output).written) ∧
      ∃ frame ∈ t.socket.taken, frame.kind = .execExit ∧
        t.client = some (exitResult decodeExit frame.payload) := by
  induction hwork : s.work using Nat.strong_induction_on generalizing s with
  | _ work ih =>
      obtain ⟨t, ⟨⟨a, hown, hstep⟩, hended', hwritten, hcalm, hgoal⟩⟩ :=
        goes (inv_of_reachable h) (calm_of_reachable h hdisturbed) hdisturbed hclient hended hencode
      rcases hgoal with ⟨hclient', hless⟩ | hgoal
      · obtain ⟨u, hleads, hended'', hwritten', hgoal⟩ :=
          ih t.work (hwork ▸ hless) (h.leads (.single hstep)) hcalm hclient' hended' rfl
        exact ⟨u, .head hown hstep hleads, hended'',
          fun output => (hwritten' output).trans (hwritten output), hgoal⟩
      · exact ⟨t, .head hown hstep .refl, hended', hwritten, hgoal⟩

end Progress

theorem exited_codeResult (code : Option Int) : Exited (codeResult code) := by
  unfold codeResult
  split <;> trivial

/-- As long as nothing fails or breaks off: once a command is over and its outputs are closed,
the handler, the server and the client get by themselves to where the client returns the
outcome of the command, having printed all that it wrote. -/
theorem output_comes_through {exec : Exec} {decodeExit : DecodeExit}
    (hreads : Reads exec decodeExit) {s : State} (h : (system exec decodeExit).Reachable s)
    (hdisturbed : s.disturbed = false) (hclient : s.client = none) {code : Option Int}
    (hended : Ended s.device.command code) {payload : Bytes}
    (hencode : exec.encodeExit code = .ok payload) :
    ∃ t, (system exec decodeExit).LeadsBy Action.Own s t ∧ t.client = some (codeResult code) ∧
      ∀ output, t.printed output = (s.device.command.pipe output).written := by
  obtain ⟨t, hleads, hended', hwritten, frame, hmem, hkind, hclient'⟩ :=
    comes_through h hdisturbed hclient hended hencode
  have hinv := inv_of_reachable (h.leads hleads.leads)
  obtain ⟨front, code', payload', hcomplete, hlink⟩ :=
    hinv.device.complete_of_taken (hinv.taken_link.mem hmem) hkind
  have hframe := hcomplete.eq_exitFrame (hlink ▸ hinv.taken_link.mem hmem) hkind
  have hcode : code' = code := by
    simpa using hcomplete.status.symm.trans hended'.status
  have hresult : t.client = some (codeResult code) := by
    rw [hclient', hframe, ← hcode]
    exact congrArg some (hreads.exitResult_eq hcomplete.encode)
  obtain ⟨_, _, _, _, _, _, hprinted⟩ := hinv.outcome hreads hresult (exited_codeResult code)
  exact ⟨t, hleads, hresult, fun output => (hprinted output).trans (hwritten output)⟩

theorem exists_ended : ∃ s, (system smallExec decodeSmall).Reachable s ∧ s.disturbed = false ∧
    s.client = none ∧ Ended s.device.command (some 3) ∧
    (s.device.command.pipe .stderr).written = [0x6e, 0x6f] := by
  exact ⟨_, ⟨.initial, rfl,
    System.Leads.head (.device (.spawn rfl) fun _ => nofun) <|
    System.Leads.head
      (.device (@ExecOutput.Step.write _ _ .stderr [0x6e, 0x6f] rfl) fun _ => nofun) <|
    System.Leads.head (.device (.exit (some 3) rfl) fun _ => nofun) <|
    System.Leads.head (.device (@ExecOutput.Step.close _ _ .stdout) fun _ => nofun) <|
    .single (.device (@ExecOutput.Step.close _ _ .stderr) fun _ => nofun)⟩,
    rfl, rfl, ⟨fun output => by cases output <;> rfl, rfl⟩, rfl⟩

theorem output_comes_through_ended : ∃ s t, (system smallExec decodeSmall).Reachable s ∧
    (system smallExec decodeSmall).LeadsBy Action.Own s t ∧
    t.client = some (codeResult (some 3)) ∧ t.printed .stderr = [0x6e, 0x6f] := by
  obtain ⟨s, h, hdisturbed, hclient, hended, hwritten⟩ := exists_ended
  obtain ⟨t, hleads, hresult, hprinted⟩ :=
    output_comes_through reads_small h hdisturbed hclient hended (@rfl _ (Except.ok [1, 6]))
  exact ⟨s, t, h, hleads, hresult, (hprinted .stderr).trans hwritten⟩

end SideWire.ExecStream
