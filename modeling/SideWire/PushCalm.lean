import SideWire.PushInvariants

namespace SideWire.PushTransfer

open SideWire.TransitionSystem
open SideWire.CreditWindow
open SideWire.ByteString
open SideWire.FlowControl

/-- Nothing has ended the stream from outside so far. -/
structure Calm (s : State) : Prop where
  live : s.host.live = true
  connected : s.connected = true
  hostCancel : s.hostCancel = false
  overflowed : s.overflowed = false

/-- The steps up to `unregister`, during which the stream has a route. -/
def DevicePhase.registered : DevicePhase → Bool
  | .reporting _ | .finishing _ | .ended _ => false
  | _ => true

def DevicePhase.result : DevicePhase → Option (Except HandlerError Unit)
  | .returning result | .reporting result | .finishing result | .ended result =>
      some result
  | _ => none

theorem Calm.back {plan : Plan} {s t : State} {a : Actor} (h : Step plan s a t)
    (ht : Calm t) : Calm s := by
  obtain ⟨hlive, hconnected, hcancel, hoverflowed⟩ := ht
  cases h with
  | recvReady hphase | tryRecvEmpty hphase | tryRecv hphase | recvDone hphase
  | takeCredit hphase | park hphase | resume hphase | sendChunk hphase
  | sendEnd hphase | sentChunk hphase | sentEnd hphase | readChunk hphase
  | readEof hphase | readFails hphase =>
      exact ⟨by rw [hphase]; rfl, hconnected, hcancel, hoverflowed⟩
  | hostCanceled | hostClosed | dropStream => simp [HostPhase.live] at hlive
  | deliverFull | deliverCancel => simp at hcancel
  | deliverUpdate => exact ⟨by simpa using hlive, hconnected, hcancel, hoverflowed⟩
  | rejectUpdate | close => simp at hconnected
  | routeFull => simp at hoverflowed
  | _ => exact ⟨hlive, hconnected, hcancel, hoverflowed⟩

/-- No cancellation is set, spawned or under way, and the handler can only have
failed on its file. -/
structure Undisturbed (s : State) : Prop where
  hostRoute : s.hostRoute = true
  hostCanceling : s.hostCanceling = 0
  deviceCanceled : s.deviceCanceled = false
  cancelWatch : s.cancelWatch = false
  canceling : s.canceling = .idle
  toHost : .streamCancel ∉ s.toHost
  toDevice : .streamCancel ∉ s.toDevice
  routed : s.device.registered = true → s.routed = true
  cause : ∀ why, s.device.result = some (.error why) →
    why = .create ∨ why = .write ∨ why = .flush

theorem mem_inbox_cases {plan : Plan} {s : State} (ho : Ordered plan s)
    {frame : StreamFrame} (h : frame ∈ s.inbox) :
    (∃ chunk ∈ plan.reads.chunks, frame = .fileChunk chunk) ∨ frame = .fileEnd := by
  apply plan.reads.mem_frames
  rw [← ho.frames]
  simp [h]

theorem accounting_bound {plan : Plan} {s : State} (ho : Ordered plan s)
    (hh : Handled plan s) {bytes : Nat} (hphase : s.device = .accounting bytes) :
    s.consumed + bytes < fileFlowUpdateThreshold + fileBufferSize := by
  have hagrees := hh.agrees
  rw [hphase] at hagrees
  have hmem : bytes ∈ lengthsOf s.written := by
    rw [← hagrees.2]
    simp
  obtain ⟨chunk, hchunk, rfl⟩ := List.mem_map.mp hmem
  have hsized := (plan.reads.sized chunk ((written_isPrefix ho hh).subset hchunk)).2
  have hpending := unreported_lt fileWindow s.accounted
  rw [fileWindow_threshold, ← hh.consumed] at hpending
  omega

theorem accountFileWindow_ne_error {plan : Plan} {s : State} (ho : Ordered plan s)
    (hh : Handled plan s) {bytes : Nat} (hphase : s.device = .accounting bytes)
    {message : String} : accountFileWindow s.consumed bytes ≠ .error message := by
  have hlt := accounting_bound ho hh hphase
  have hbound : fileFlowUpdateThreshold + fileBufferSize ≤ usizeBound := by decide
  rw [accountFileWindow_eq (by omega)]
  simp

theorem DevicePhase.result_returning_error {error : HandlerError} {P : HandlerError → Prop}
    (herror : P error) :
    ∀ why, (DevicePhase.returning (.error error)).result = some (.error why) → P why := by
  intro why hwhy
  obtain rfl : error = why := by simpa [DevicePhase.result] using hwhy
  exact herror

theorem Undisturbed.step {plan : Plan} {s t : State} {a : Actor}
    (ho : Ordered plan s) (hh : Handled plan s)
    (hs : Calm s → Undisturbed s) (h : Step plan s a t) (ht : Calm t) :
    Undisturbed t := by
  have hbefore := hs (ht.back h)
  have htoHost := hbefore.toHost
  have htoDevice := hbefore.toDevice
  have hcause := hbefore.cause
  have hrouted : ∀ {phase : DevicePhase}, s.device = phase → phase.registered = true →
      s.routed = true := by
    rintro _ rfl hregistered
    exact hbefore.routed hregistered
  cases h with
  | dropStream => exact absurd ht.live (by simp [HostPhase.live])
  | sendChunk | sendEnd => exact { hbefore with toDevice := by simp [htoDevice] }
  | deliver _ hwire | deliverUpdate _ hwire | deliverStray _ hwire =>
      simp only [hwire, List.mem_cons, not_or] at htoHost
      exact { hbefore with toHost := htoHost.2 }
  | deliverFull | deliverCancel => exact absurd ht.hostCancel (by simp)
  | rejectUpdate | close => exact absurd ht.connected (by simp)
  | sendHostCancel _ hpending => cases hbefore.hostCanceling.symm.trans hpending
  | route _ hwire =>
      simp only [hwire, List.mem_cons, not_or] at htoDevice
      exact { hbefore with toDevice := htoDevice.2 }
  | routeFull => exact absurd ht.overflowed (by simp)
  | unsupported _ hwire =>
      simp only [hwire, List.mem_cons, not_or] at htoDevice
      exact { hbefore with
        deviceCanceled := rfl, toHost := by simp [htoHost], toDevice := htoDevice.2 }
  | unsupportedCanceled _ _ _ _ hcanceled | flushCanceled _ _ hcanceled
  | sendCanceled _ hcanceled => cases hbefore.deviceCanceled.symm.trans hcanceled
  | sendStopped _ hconnected => exact absurd ht.connected (by simp [hconnected])
  | reportNothing _ hmute =>
      rcases hmute with hcanceled | hconnected
      · cases hbefore.deviceCanceled.symm.trans hcanceled
      · exact absurd ht.connected (by simp [hconnected])
  | serveCancel _ hwire => simp [hwire] at htoDevice
  | serveEnds hconnected => exact absurd ht.connected (by simp [hconnected])
  | markCanceled hpending => cases hbefore.canceling.symm.trans hpending
  | sendDeviceCancel _ hpending => cases hbefore.canceling.symm.trans hpending
  | create hphase | flush hphase =>
      exact { hbefore with
        toHost := by simp [htoHost], routed := fun _ => hrouted hphase rfl
        cause := by simp [DevicePhase.result] }
  | createFails hphase =>
      exact { hbefore with
        routed := fun _ => hrouted hphase rfl
        cause := DevicePhase.result_returning_error (.inl rfl) }
  | writeFails hphase =>
      exact { hbefore with
        routed := fun _ => hrouted hphase rfl
        cause := DevicePhase.result_returning_error (.inr (.inl rfl)) }
  | flushFails hphase =>
      exact { hbefore with
        routed := fun _ => hrouted hphase rfl
        cause := DevicePhase.result_returning_error (.inr (.inr rfl)) }
  | grant hphase _ hupdate | accountReport hphase _ _ hupdate =>
      have hnot := streamCancel_not_mem_windowUpdate hupdate
      exact { hbefore with
        toHost := by simp [htoHost, hnot], routed := fun _ => hrouted hphase rfl
        cause := by simp [DevicePhase.result] }
  | recv hphase _ hinbox =>
      refine { hbefore with routed := fun _ => hrouted hphase rfl, cause := ?_ }
      rcases mem_inbox_cases ho (by rw [hinbox]; exact List.mem_cons_self) with
        ⟨chunk, -, rfl⟩ | rfl <;> simp [DevicePhase.onFrame, DevicePhase.result]
  | recvDisconnected hphase _ _ hunrouted =>
      cases (hrouted hphase rfl).symm.trans hunrouted
  | recvCanceled _ hcanceled => cases hbefore.cancelWatch.symm.trans hcanceled
  | write hphase | accountOnly hphase =>
      exact { hbefore with
        routed := fun _ => hrouted hphase rfl, cause := by simp [DevicePhase.result] }
  | accountFails hphase haccount =>
      exact absurd haccount (accountFileWindow_ne_error ho hh hphase)
  | unregister hphase | reportOk hphase =>
      rw [hphase] at hcause
      exact { hbefore with routed := fun h => (by cases h), cause := hcause }
  | finish hphase =>
      rw [hphase] at hcause
      exact { hbefore with
        deviceCanceled := rfl, routed := fun h => (by cases h), cause := hcause }
  | reportError hphase =>
      rw [hphase] at hcause
      exact { hbefore with
        toHost := by simp [htoHost], routed := fun h => (by cases h), cause := hcause }
  | _ => exact { hbefore with }

theorem undisturbed_of_reachable {plan : Plan} {s : State}
    (h : (system plan).Reachable s) (hcalm : Calm s) : Undisturbed s := by
  refine h.invariant_of (P := fun u => Ordered plan u ∧ Handled plan u)
    (Q := fun u => Calm u → Undisturbed u) ?_ ?_ ?_ hcalm
  · intro u hu
    exact ⟨ordered_of_reachable hu, handled_of_reachable hu⟩
  · rintro u rfl -
    exact ⟨rfl, rfl, rfl, rfl, rfl, by simp [State.initial], by simp [State.initial],
      fun _ => rfl, by simp [State.initial, DevicePhase.result]⟩
  · rintro u a v ⟨ho, hh⟩ hs huv
    exact Undisturbed.step ho hh hs huv

@[simp] theorem HostPhase.wake_eq_awaitingReady_iff {phase : HostPhase} :
    phase.wake = .awaitingReady ↔ phase = .awaitingReady := by
  cases phase <;> simp [HostPhase.wake]

/-- The file has been created, so that `FileMeta` has been sent. -/
def DevicePhase.created : DevicePhase → Bool
  | .opening => false
  | phase => match phase.result with
    | some (.error .create) => false
    | _ => true

/-- All frames under way to `remote_push`. -/
def State.mail (s : State) : List StreamFrame := s.hostQueue ++ s.toHost

/-- The `FileMeta` frames that may be under way. -/
def State.awaited (s : State) : Nat :=
  if s.device.created = true ∧ s.host = .awaitingReady then 1 else 0

/-- The frames a device sends for a push. -/
def isReply : StreamFrame → Bool
  | .fileChunk _ => false
  | .windowUpdate bytes => 0 < bytes
  | .fileMeta size => size == 0
  | _ => true

/-- What the frames under way to the host can be. -/
structure Posted (s : State) : Prop where
  reply : ∀ frame ∈ s.mail, isReply frame = true
  data : ∀ frame ∈ s.hostQueue, frame.isData = true
  ends : .fileEnd ∈ s.mail →
    s.device.result = some (.ok ()) ∨ s.device.result = some (.error .canceled)
  waiting : s.host.live = true → s.device.created = false → s.host = .awaitingReady
  metas : s.host.live = true → s.mail.count (.fileMeta 0) ≤ s.awaited

/-- What a step other than `create`, `flush` and the host's receives has to
show. -/
theorem Posted.of_mail {s t : State} (hs : Posted s)
    (hmail : ∀ frame ∈ t.mail, frame ∈ s.mail ∨ isReply frame = true ∧ frame ≠ .fileEnd)
    (hdata : ∀ frame ∈ t.hostQueue, frame.isData = true)
    (hhost : t.host.live = true → s.host.live = true ∧
      (t.host = .awaitingReady ↔ s.host = .awaitingReady))
    (hresult : t.device.result = s.device.result ∨ s.device.result = none)
    (hcreated : s.device.created = true → t.device.created = true)
    (hmeta : t.mail.count (.fileMeta 0) ≤ s.mail.count (.fileMeta 0)) : Posted t := by
  refine ⟨?_, hdata, ?_, ?_, ?_⟩
  · intro frame hframe
    rcases hmail frame hframe with hold | ⟨hnew, -⟩
    · exact hs.reply frame hold
    · exact hnew
  · intro hmem
    have hbefore := hs.ends ((hmail _ hmem).resolve_right fun hnew => hnew.2 rfl)
    rcases hresult with heq | hnone
    · rwa [heq]
    · simp [hnone] at hbefore
  · intro hlive hnot
    obtain ⟨hbefore, hiff⟩ := hhost hlive
    apply hiff.mpr (hs.waiting hbefore _)
    by_contra htrue
    simp [hcreated (by simpa using htrue)] at hnot
  · intro hlive
    obtain ⟨hbefore, hiff⟩ := hhost hlive
    have hmetas := hs.metas hbefore
    have hawaited : s.awaited ≤ t.awaited := by
      unfold State.awaited
      split_ifs with hsome hnone
      · exact Nat.le_refl _
      · exact absurd ⟨hcreated hsome.1, hiff.mpr hsome.2⟩ hnone
      · exact Nat.zero_le _
      · exact Nat.zero_le _
    omega

section Posted

variable {s : State} {frame : StreamFrame} {queue : List StreamFrame} {completed : Bool}

theorem Posted.recvReady (hs : Posted s) (hphase : s.host = .awaitingReady)
    (hqueue : s.hostQueue = frame :: queue) :
    Posted { s with host := .onReady frame, hostQueue := queue, completed := completed } := by
  have hdata := hs.data
  have hreply := hs.reply
  have hends := hs.ends
  have hmetas := hs.metas (by rw [hphase]; rfl)
  rw [hqueue] at hdata
  simp only [State.mail, State.awaited, hqueue, List.cons_append] at hreply hends hmetas
  refine ⟨fun f hf => hreply f (List.mem_cons_of_mem _ hf),
    fun f hf => hdata f (by simp [hf]), ?_, ?_, ?_⟩
  · exact fun hmem => hends (List.mem_cons_of_mem _ hmem)
  · intro hlive hnot
    rcases HostPhase.onReady_cases frame with ⟨⟨size, rfl⟩, -⟩ | ⟨why, hnext⟩
    · obtain rfl : size = 0 := by simpa [isReply] using hreply _ List.mem_cons_self
      simp [hnot] at hmetas
    · simp [hnext, HostPhase.live] at hlive
  · intro hlive
    rcases HostPhase.onReady_cases frame with ⟨⟨size, rfl⟩, -⟩ | ⟨why, hnext⟩
    · obtain rfl : size = 0 := by simpa [isReply] using hreply _ List.mem_cons_self
      simp only [List.count_cons_self] at hmetas
      split at hmetas <;> simp only [State.mail] <;> omega
    · simp [hnext, HostPhase.live] at hlive

theorem Posted.take (hs : Posted s) (hqueue : s.hostQueue = frame :: queue) {phase : HostPhase}
    (hhost : phase.live = true → s.host.live = true ∧
      (phase = .awaitingReady ↔ s.host = .awaitingReady)) :
    Posted { s with host := phase, hostQueue := queue, completed := completed } := by
  have hdata := hs.data
  rw [hqueue] at hdata
  refine hs.of_mail ?_ (fun f hf => hdata f (by simp [hf])) hhost (.inl rfl) id ?_
  · intro f hf
    simp only [State.mail, hqueue, List.cons_append]
    exact .inl (List.mem_cons_of_mem _ hf)
  · simp only [State.mail, hqueue, List.cons_append]
    exact List.count_le_count_cons

theorem Posted.create (hs : Posted s) (hphase : s.device = .opening) :
    Posted { s with device := .granting, toHost := s.toHost ++ [.fileMeta 0] } := by
  refine ⟨?_, hs.data, ?_, ?_, ?_⟩
  · intro f hf
    simp only [State.mail, ← List.append_assoc, List.mem_append, List.mem_singleton] at hf
    rcases hf with hf | rfl
    · exact hs.reply f (List.mem_append.mpr hf)
    · rfl
  · intro hmem
    have hbefore := hs.ends (by simpa [State.mail] using hmem)
    simp [hphase, DevicePhase.result] at hbefore
  · simp [DevicePhase.created, DevicePhase.result]
  · intro hlive
    have hready := hs.waiting hlive (by rw [hphase]; rfl)
    have hmetas := hs.metas hlive
    simp only [State.awaited, hphase, DevicePhase.created] at hmetas
    simp [State.mail, State.awaited, hready, DevicePhase.created,
      DevicePhase.result, ← List.append_assoc] at hmetas ⊢
    omega

theorem Posted.flush (hs : Posted s) (hphase : s.device = .flushing)
    {result : Except HandlerError Unit} (hresult : result = .ok () ∨ result = .error .canceled) :
    Posted { s with device := .returning result, toHost := s.toHost ++ [.fileEnd] } := by
  refine ⟨?_, hs.data, ?_, ?_, ?_⟩
  · intro f hf
    simp only [State.mail, ← List.append_assoc, List.mem_append, List.mem_singleton] at hf
    rcases hf with hf | rfl
    · exact hs.reply f (List.mem_append.mpr hf)
    · rfl
  · intro _
    simpa [DevicePhase.result] using hresult
  · rcases hresult with rfl | rfl <;> simp [DevicePhase.created, DevicePhase.result]
  · intro hlive
    have hmetas := hs.metas hlive
    simp only [State.awaited, hphase, DevicePhase.created, DevicePhase.result] at hmetas
    rcases hresult with rfl | rfl <;>
    simpa [State.mail, State.awaited, DevicePhase.created, DevicePhase.result,
      ← List.append_assoc, List.count_append] using hmetas

theorem Posted.of_mail_append {s t : State} (hs : Posted s) (hmail : t.mail = s.mail ++ [frame])
    (hreply : isReply frame = true) (hkind : frame ≠ .fileEnd ∧ frame ≠ .fileMeta 0)
    (hqueue : t.hostQueue = s.hostQueue) (hhost : t.host = s.host)
    (hresult : t.device.result = s.device.result)
    (hcreated : s.device.created = true → t.device.created = true) : Posted t := by
  refine hs.of_mail ?_ (hqueue ▸ hs.data) (fun hlive => ⟨hhost ▸ hlive, by rw [hhost]⟩)
    (.inl hresult) hcreated ?_
  · intro f hf
    rw [hmail, List.mem_append, List.mem_singleton] at hf
    rcases hf with hf | rfl
    · exact .inl hf
    · exact .inr ⟨hreply, hkind.1⟩
  · rw [hmail, List.count_append, List.count_singleton, beq_false_of_ne hkind.2]
    simp

end Posted

theorem Posted.step {plan : Plan} {s t : State} {a : Actor}
    (hs : Posted s) (h : Step plan s a t) : Posted t := by
  have hdata := hs.data
  have hold : ∀ frame ∈ s.mail,
      frame ∈ s.mail ∨ isReply frame = true ∧ frame ≠ .fileEnd := fun _ hmem => .inl hmem
  have hkeep : ∀ phase : HostPhase, phase.live = true →
      phase.live = true ∧ (phase = .awaitingReady ↔ phase = .awaitingReady) :=
    fun _ hlive => ⟨hlive, Iff.rfl⟩
  cases h with
  | recvReady hphase _ hqueue => exact hs.recvReady hphase hqueue
  | @tryRecv frame queue hphase _ hqueue =>
      obtain ⟨why, hnext⟩ := HostPhase.onUpload_cases frame
      exact hs.take hqueue (by simp [hnext, HostPhase.live])
  | @recvDone frame queue hphase _ hqueue =>
      refine hs.take hqueue ?_
      rcases HostPhase.onDone_cases frame with ⟨rfl, -⟩ | ⟨why, hnext⟩
      · simp [HostPhase.onDone, hphase, HostPhase.live]
      · simp [hnext, HostPhase.live]
  | readChunk hphase | readEof hphase | readFails hphase | takeCredit hphase
  | park hphase | resume hphase | sendChunk hphase | sendEnd hphase | sentChunk hphase
  | sentEnd hphase | tryRecvEmpty hphase =>
      refine hs.of_mail hold hdata ?_ (.inl rfl) id (Nat.le_refl _)
      simp [hphase, HostPhase.live]
  | hostCanceled | hostClosed | dropStream =>
      refine hs.of_mail hold hdata ?_ (.inl rfl) id (Nat.le_refl _)
      simp [HostPhase.live]
  | @deliver frame rest _ hwire hdata' =>
      refine hs.of_mail ?_ ?_ (hkeep _) (.inl rfl) id ?_
      · intro f hf
        exact .inl (by simpa [State.mail, hwire] using hf)
      · simpa [or_imp, forall_and, hdata'] using hdata
      · simp [State.mail, hwire]
  | @deliverFull frame rest _ hwire | @deliverStray frame rest _ hwire
  | @deliverUpdate bytes rest _ _ hwire | @rejectUpdate bytes rest _ _ hwire
  | @deliverCancel rest _ hwire =>
      refine hs.of_mail ?_ hdata (by simp) (.inl rfl) id ?_
      · intro f hf
        simp only [State.mail, hwire, List.mem_append, List.mem_cons] at hf ⊢
        tauto
      · simp only [State.mail, hwire, List.count_append]
        exact Nat.add_le_add_left List.count_le_count_cons _
  | close => exact hs.of_mail hold hdata (by simp) (.inl rfl) id (Nat.le_refl _)
  | unsupported | sendDeviceCancel =>
      exact hs.of_mail_append (List.append_assoc _ _ _).symm rfl (by simp) rfl rfl rfl id
  | create hphase => exact hs.create hphase
  | grant hphase _ hupdate | accountReport hphase _ _ hupdate =>
      refine hs.of_mail ?_ hdata (hkeep _) (.inr (by rw [hphase]; rfl)) ?_ ?_
      · intro f hf
        simp only [State.mail, List.mem_append] at hf ⊢
        rcases hf with hf | hf | hf
        · exact .inl (.inl hf)
        · exact .inl (.inr hf)
        · obtain ⟨rfl, hpos⟩ := eq_of_mem_windowUpdate hupdate hf
          exact .inr ⟨decide_eq_true hpos, by simp⟩
      · simp [DevicePhase.created, DevicePhase.result]
      · simp [State.mail, ← List.append_assoc, List.count_append,
          count_windowUpdate hupdate (by simp : ∀ n, StreamFrame.fileMeta 0 ≠ .windowUpdate n)]
  | flush hphase => exact hs.flush hphase (.inl rfl)
  | flushCanceled hphase => exact hs.flush hphase (.inr rfl)
  | reportError hphase =>
      refine hs.of_mail_append (List.append_assoc _ _ _).symm rfl (by simp) rfl rfl ?_ ?_ <;>
        rw [hphase]
      · rfl
      · exact id
  | createFails hphase =>
      refine hs.of_mail hold hdata (hkeep _) (.inr (by rw [hphase]; rfl)) ?_ (Nat.le_refl _)
      simp [hphase, DevicePhase.created]
  | @recv frame rest hphase =>
      refine hs.of_mail hold hdata (hkeep _) (.inr (by rw [hphase]; rfl)) ?_ (Nat.le_refl _)
      cases frame <;> simp [DevicePhase.onFrame, DevicePhase.created, DevicePhase.result]
  | recvDisconnected hphase | recvCanceled hphase | write hphase | writeFails hphase
  | accountOnly hphase | accountFails hphase | flushFails hphase =>
      refine hs.of_mail hold hdata (hkeep _) (.inr (by rw [hphase]; rfl)) ?_ (Nat.le_refl _)
      simp [DevicePhase.created, DevicePhase.result]
  | sendCanceled hphase | sendStopped hphase =>
      refine hs.of_mail hold hdata (hkeep _) (.inr ?_) ?_ (Nat.le_refl _)
      · cases hdevice : s.device <;> simp_all [DevicePhase.sends, DevicePhase.result]
      · simp [DevicePhase.created, DevicePhase.result]
  | unregister hphase | reportOk hphase | reportNothing hphase | finish hphase =>
      refine hs.of_mail hold hdata (hkeep _) (.inl (by rw [hphase]; rfl)) ?_ (Nat.le_refl _)
      rw [hphase]
      exact id
  | _ => exact hs.of_mail hold hdata (hkeep _) (.inl rfl) id (Nat.le_refl _)

theorem posted_of_reachable {plan : Plan} {s : State}
    (h : (system plan).Reachable s) : Posted s := by
  refine h.invariant (P := Posted) ?_ (fun _ _ _ hs hstep => hs.step hstep)
  rintro s rfl
  refine ⟨?_, ?_, ?_, ?_, ?_⟩ <;> simp [State.initial, State.mail]

/-- The `Error` frames the handler itself has sent. -/
def DevicePhase.reported : DevicePhase → Nat
  | .finishing (.error _) | .ended (.error _) => 1
  | _ => 0

theorem count_error_step {plan : Plan} {s t : State} {a : Actor}
    (hs : Undisturbed s) (heq : s.mail.count .error = s.unserved.length + s.device.reported)
    (h : Step plan s a t) (ht : Calm t) :
    t.mail.count .error = t.unserved.length + t.device.reported := by
  simp only [State.mail] at heq ⊢
  cases h with
  | @recvReady frame queue hphase _ hqueue =>
      rcases HostPhase.onReady_cases frame with ⟨⟨size, rfl⟩, -⟩ | ⟨why, hnext⟩
      · simpa [hqueue] using heq
      · exact absurd ht.live (by simp [hnext, HostPhase.live])
  | @tryRecv frame queue hphase _ hqueue =>
      obtain ⟨why, hnext⟩ := HostPhase.onUpload_cases frame
      exact absurd ht.live (by simp [hnext, HostPhase.live])
  | @recvDone frame queue hphase _ hqueue =>
      rcases HostPhase.onDone_cases frame with ⟨rfl, -⟩ | ⟨why, hnext⟩
      · simpa [hqueue] using heq
      · exact absurd ht.live (by simp [hnext, HostPhase.live])
  | deliver _ hwire | deliverUpdate _ hwire => simpa [hwire] using heq
  | deliverFull | deliverCancel => exact absurd ht.hostCancel (by simp)
  | rejectUpdate => exact absurd ht.connected (by simp)
  | deliverStray _ _ hroute => simp [hs.hostRoute] at hroute
  | routeFull => exact absurd ht.overflowed (by simp)
  | unsupported =>
      simp only [List.count_append, List.count_singleton_self, List.length_append,
        List.length_singleton] at heq ⊢
      omega
  | unsupportedCanceled _ _ _ _ hcanceled | flushCanceled _ _ hcanceled
  | sendCanceled _ hcanceled => simp [hs.deviceCanceled] at hcanceled
  | sendStopped _ hconnected => exact absurd ht.connected (by simp [hconnected])
  | reportNothing _ hmute =>
      have hconnected : s.connected = true := ht.connected
      simp [hs.deviceCanceled, hconnected] at hmute
  | sendDeviceCancel _ hpending => simp [hs.canceling] at hpending
  | grant hphase _ hupdate | accountReport hphase _ _ hupdate =>
      simp only [hphase, DevicePhase.reported, List.count_append,
        count_windowUpdate hupdate (by simp : ∀ n, StreamFrame.error ≠ .windowUpdate n)]
        at heq ⊢
      omega
  | create hphase | flush hphase =>
      simp only [hphase, DevicePhase.reported, List.count_append] at heq ⊢
      simpa using heq
  | reportError hphase =>
      simp only [hphase, DevicePhase.reported, List.count_append,
        List.count_singleton_self] at heq ⊢
      omega
  | @recv frame rest hphase =>
      rw [hphase] at heq
      cases frame <;> exact heq
  | createFails hphase | recvDisconnected hphase | recvCanceled hphase
  | write hphase | writeFails hphase | accountOnly hphase | accountFails hphase
  | flushFails hphase | unregister hphase | reportOk hphase =>
      rw [hphase] at heq
      exact heq
  | @finish result hphase =>
      rw [hphase] at heq
      cases result <;> exact heq
  | _ => exact heq

/-- As long as nobody cancels, every late frame and a failed handler leave one
`Error` each on the way to the host. -/
theorem count_error {plan : Plan} {s : State} (h : (system plan).Reachable s)
    (hcalm : Calm s) :
    s.mail.count .error = s.unserved.length + s.device.reported := by
  refine h.invariant_of (P := fun u => (system plan).Reachable u)
    (Q := fun u => Calm u → u.mail.count .error = u.unserved.length + u.device.reported)
    (fun _ hu => hu) ?_ ?_ hcalm
  · rintro u rfl -
    rfl
  · intro u a v hu hbefore huv hv
    have hcalm := hv.back huv
    exact count_error_step (undisturbed_of_reachable hu hcalm) (hbefore hcalm) huv hv

/-- A canceled stream is on its way to be noticed, a parked host lacks credit,
and the queues keep to their capacity. -/
structure Guarded (s : State) : Prop where
  route : s.host ≠ .gone → s.hostRoute = false → s.hostCancel = true
  overflow : s.host ≠ .gone → s.overflowed = true →
    s.canceling ≠ .idle ∨ .streamCancel ∈ s.toHost ∨ s.hostCancel = true
  parked : ∀ chunk, s.host = .parked chunk false →
    s.hostCancel = false ∧ s.credit.available < chunk.length
  hostQueue : s.hostQueue.length ≤ routeCapacity
  inbox : s.inbox.length ≤ routeCapacity

theorem HostPhase.wake_ne_parked (phase : HostPhase) (chunk : Bytes) :
    phase.wake ≠ .parked chunk false := by
  cases phase <;> simp [HostPhase.wake]

@[simp] theorem HostPhase.wake_eq_gone_iff {phase : HostPhase} :
    phase.wake = .gone ↔ phase = .gone := by
  cases phase <;> simp [HostPhase.wake]

theorem Guarded.step {plan : Plan} {s t : State} {a : Actor}
    (hs : Guarded s) (h : Step plan s a t) : Guarded t := by
  obtain ⟨hroute, hoverflow, hparked, hhostQueue, hinbox⟩ := hs
  cases h with
  | @recvReady frame queue hphase _ hqueue =>
      refine ⟨fun _ => hroute (by simp [hphase]), fun _ => hoverflow (by simp [hphase]),
        ?_, ?_, hinbox⟩
      · cases frame <;> simp [HostPhase.onReady]
      · rw [hqueue, List.length_cons] at hhostQueue
        exact Nat.le_of_succ_le hhostQueue
  | @tryRecv frame queue hphase _ hqueue =>
      refine ⟨fun _ => hroute (by simp [hphase]), fun _ => hoverflow (by simp [hphase]),
        ?_, ?_, hinbox⟩
      · cases frame <;> simp [HostPhase.onUpload]
      · rw [hqueue, List.length_cons] at hhostQueue
        exact Nat.le_of_succ_le hhostQueue
  | @recvDone frame queue hphase _ hqueue =>
      refine ⟨fun _ => hroute (by simp [hphase]), fun _ => hoverflow (by simp [hphase]),
        ?_, ?_, hinbox⟩
      · cases frame <;> simp [HostPhase.onDone]
      · rw [hqueue, List.length_cons] at hhostQueue
        exact Nat.le_of_succ_le hhostQueue
  | readChunk hphase | readEof hphase | readFails hphase | takeCredit hphase
  | resume hphase | sendChunk hphase | sendEnd hphase | sentChunk hphase
  | sentEnd hphase | tryRecvEmpty hphase =>
      exact ⟨fun _ => hroute (by simp [hphase]), fun _ => hoverflow (by simp [hphase]),
        by simp, hhostQueue, hinbox⟩
  | @park chunk hphase hcancel _ htake =>
      refine ⟨fun _ => hroute (by simp [hphase]), fun _ => hoverflow (by simp [hphase]),
        ?_, hhostQueue, hinbox⟩
      intro chunk' heq
      obtain rfl : chunk = chunk' := by simpa using heq
      exact ⟨hcancel, FlowCredit.tryTake_eq_none_iff.mp htake⟩
  | hostCanceled hphase | hostClosed hphase =>
      have hpresent : s.host ≠ .gone := by
        intro hgone
        simp [hgone, HostPhase.looksAtCancel, HostPhase.looksAtClosed,
          HostPhase.running] at hphase
      exact ⟨fun _ => hroute hpresent, fun _ => hoverflow hpresent, by simp, hhostQueue,
        hinbox⟩
  | dropStream => exact ⟨by simp, by simp, by simp, hhostQueue, hinbox⟩
  | deliver _ hwire _ _ hroom =>
      refine ⟨hroute, fun hpresent hover => ?_, hparked, ?_, hinbox⟩
      · have hbefore := hoverflow hpresent hover
        rw [hwire, List.mem_cons] at hbefore
        rcases hbefore with hcanceling | (rfl | hmem) | hcancel
        · exact .inl hcanceling
        · simp [StreamFrame.isData] at *
        · exact .inr (.inl hmem)
        · exact .inr (.inr hcancel)
      · simp only [List.length_append, List.length_singleton]
        omega
  | deliverFull | deliverCancel =>
      exact ⟨by simp, by simp, fun chunk heq => absurd heq (HostPhase.wake_ne_parked _ _),
        hhostQueue, hinbox⟩
  | deliverUpdate _ hwire | rejectUpdate _ hwire =>
      refine ⟨by simpa using hroute, fun hpresent hover => ?_,
        fun chunk heq => absurd heq (HostPhase.wake_ne_parked _ _), hhostQueue, hinbox⟩
      have hbefore := hoverflow (by simpa using hpresent) hover
      simpa [hwire] using hbefore
  | deliverStray _ _ hunrouted =>
      exact ⟨hroute, fun hpresent _ => .inr (.inr (hroute hpresent hunrouted)), hparked,
        hhostQueue, hinbox⟩
  | close =>
      exact ⟨by simpa using hroute, by simpa using hoverflow,
        fun chunk heq => absurd heq (HostPhase.wake_ne_parked _ _), hhostQueue, hinbox⟩
  | route _ _ _ _ hroom =>
      refine ⟨hroute, hoverflow, hparked, hhostQueue, ?_⟩
      simp only [List.length_append, List.length_singleton]
      omega
  | routeFull => exact ⟨hroute, by simp, hparked, hhostQueue, hinbox⟩
  | markCanceled => exact ⟨hroute, by simp, hparked, hhostQueue, hinbox⟩
  | sendDeviceCancel => exact ⟨hroute, by simp, hparked, hhostQueue, hinbox⟩
  | recv _ _ hframes =>
      rw [hframes, List.length_cons] at hinbox
      exact ⟨hroute, hoverflow, hparked, hhostQueue, Nat.le_of_succ_le hinbox⟩
  | unsupported | create | grant | accountReport | flush | flushCanceled | reportError =>
      refine ⟨hroute, fun hpresent hover => ?_, hparked, hhostQueue, hinbox⟩
      exact (hoverflow hpresent hover).imp_right
        (Or.imp_left (List.mem_append_left _))
  | _ => exact ⟨hroute, hoverflow, hparked, hhostQueue, hinbox⟩

theorem guarded_of_reachable {plan : Plan} {s : State}
    (h : (system plan).Reachable s) : Guarded s := by
  refine h.invariant (P := Guarded) ?_ (fun _ _ _ hs hstep => hs.step hstep)
  rintro s rfl
  refine ⟨?_, ?_, ?_, ?_, ?_⟩ <;> simp [State.initial]

end SideWire.PushTransfer
