import SideWire.Base.SharedWire
import SideWire.PullRuns

namespace SideWire.PullTransfer

open SideWire.TransitionSystem
open SideWire.ByteString
open SideWire.FlowControl
open SideWire.SharedWire

/-- What a handler has sent that has sent a `FileEnd`. -/
def DevicePhase.Concludes (plan : Plan) (size : Nat) (emitted : List StreamFrame) :
    DevicePhase → Prop
  | .returning _ | .reporting _ => emitted = plan.frames size
  | .finishing _ | .ended _ =>
      emitted = plan.frames size ∨ emitted = plan.frames size ++ [.error]
  | _ => False

@[simp] theorem DevicePhase.concludes_wake {plan : Plan} {size : Nat}
    {emitted : List StreamFrame} {phase : DevicePhase} :
    phase.wake.Concludes plan size emitted ↔ phase.Concludes plan size emitted := by
  cases phase <;> rfl

@[simp] theorem DevicePhase.wake_eq_ending {phase : DevicePhase} :
    phase.wake = .ending ↔ phase = .ending := by
  cases phase <;> simp [DevicePhase.wake]

theorem DevicePhase.Concludes.frames {plan : Plan} {size : Nat} {emitted : List StreamFrame}
    {phase : DevicePhase} (h : phase.Concludes plan size emitted) :
    emitted = plan.frames size ∨ emitted = plan.frames size ++ [.error] := by
  cases phase with
  | returning | reporting => exact .inl h
  | finishing | ended => exact h
  | _ => exact nomatch h

/-- What the end of the file and the end of the pull rest on. -/
structure Concluding (plan : Plan) (s : State) : Prop where
  eof : s.device = .ending → s.unread = []
  ends : .fileEnd ∈ s.emitted →
    s.unread = [] ∧ s.device.Concludes plan s.declared s.emitted
  canceled : s.hostCancel = s.overflowed
  calm : .fileEnd ∈ s.popped → s.overflowed = false

theorem Concluding.length_le {plan : Plan} {s : State} (hs : Concluding plan s)
    {rest : List StreamFrame} (hsplit : s.popped ++ rest = s.emitted)
    (hmem : .fileEnd ∈ s.popped) : rest.length ≤ 1 := by
  by_contra hlong
  obtain ⟨_, hconcludes⟩ := hs.ends (hsplit ▸ List.mem_append_left _ hmem)
  have hlength := congrArg List.length hsplit
  have hframes : (.fileMeta s.declared :: chunksOf plan.reads.chunks) <+: s.emitted := by
    rcases hconcludes.frames with heq | heq
    · exact heq ▸ ⟨[plan.last], rfl⟩
    · exact heq ▸ ⟨[plan.last, .error], by simp [Plan.frames, FileReads.framesWith]⟩
  have hall : s.emitted.length ≤ plan.reads.chunks.length + 3 := by
    rcases hconcludes.frames with heq | heq
    · simp [heq, Plan.frames]
    · simp [heq, Plan.frames]
  have hpopped : s.popped <+: .fileMeta s.declared :: chunksOf plan.reads.chunks := by
    refine List.prefix_of_prefix_length_le ⟨rest, hsplit⟩ hframes ?_
    simp only [List.length_append, List.length_cons, chunksOf, List.length_map] at hlength ⊢
    omega
  have hbefore := hpopped.subset hmem
  simp [chunksOf] at hbefore

theorem Concluding.not_emitted {plan : Plan} {s : State} (hs : Concluding plan s)
    (hresult : s.device.result = none) : .fileEnd ∉ s.emitted := by
  intro hmem
  obtain ⟨_, hconcludes⟩ := hs.ends hmem
  cases hdevice : s.device with
  | returning | reporting | finishing | ended =>
      rw [hdevice] at hresult
      exact nomatch hresult
  | _ =>
      rw [hdevice] at hconcludes
      exact hconcludes

theorem DevicePhase.result_of_sends {phase : DevicePhase} (h : phase.sends = true) :
    phase.result = none := by
  cases phase <;> simp_all [DevicePhase.sends, DevicePhase.result]

theorem Concluding.of_device {plan : Plan} {s t : State} (hs : Concluding plan s)
    (heof : t.device = .ending → t.unread = [])
    (hends : .fileEnd ∈ t.emitted →
      t.unread = [] ∧ t.device.Concludes plan t.declared t.emitted)
    (hcancel : t.hostCancel = s.hostCancel) (hover : t.overflowed = s.overflowed)
    (hpopped : t.popped = s.popped) : Concluding plan t := by
  refine ⟨heof, hends, by rw [hcancel, hover, hs.canceled], ?_⟩
  rw [hpopped, hover]
  exact hs.calm

theorem Concluding.step {plan : Plan} {s t : State} {a : Actor} (hsent : Sent plan s)
    (hs : Concluding plan s) (h : Step plan s a t) : Concluding plan t := by
  have heof := hs.eof
  have hends := hs.ends
  have hcanceled := hs.canceled
  have hcalm := hs.calm
  cases h with
  | sendMeta hphase | sendChunk hphase =>
      have hnone := hs.not_emitted (by rw [hphase]; rfl)
      refine hs.of_device nofun ?_ rfl rfl rfl
      intro hmem
      simp [hnone] at hmem
  | openFails hphase | sentOk hphase | readCanceled hphase | readChunk hphase
  | readFails hphase | takeCredit hphase | park hphase | resume hphase =>
      have hnone := hs.not_emitted (by rw [hphase]; rfl)
      exact hs.of_device nofun (fun hmem => absurd hmem hnone) rfl rfl rfl
  | readEof hphase _ hunread =>
      have hnone := hs.not_emitted (by rw [hphase]; rfl)
      exact hs.of_device (fun _ => hunread) (fun hmem => absurd hmem hnone) rfl rfl rfl
  | sendEnd hphase | sendEndCanceled hphase =>
      have hemits := hsent.emits
      rw [hphase] at hemits
      exact hs.of_device nofun (fun _ => ⟨heof hphase, hemits⟩) rfl rfl rfl
  | sendCanceled hphase | sendStopped hphase =>
      have hnone := hs.not_emitted (DevicePhase.result_of_sends hphase)
      exact hs.of_device nofun (fun hmem => absurd hmem hnone) rfl rfl rfl
  | unregister hphase =>
      rw [hphase] at hends
      exact hs.of_device nofun hends rfl rfl rfl
  | reportOk hphase | reportNothing hphase =>
      rw [hphase] at hends
      exact hs.of_device nofun (fun hmem => (hends hmem).imp_right .inl) rfl rfl rfl
  | reportError hphase =>
      rw [hphase] at hends
      refine hs.of_device nofun ?_ rfl rfl rfl
      intro hmem
      have hbefore : .fileEnd ∈ s.emitted := by simpa using hmem
      refine (hends hbefore).imp_right ?_
      rintro (hall : s.emitted = _)
      exact .inr (congrArg (· ++ [.error]) hall)
  | finish hphase =>
      rw [hphase] at hends
      exact hs.of_device nofun hends rfl rfl rfl
  | deliverUpdate | rejectUpdate | serveCancel | serveEnds | close =>
      exact hs.of_device (by simpa using heof) (by simpa using hends) rfl rfl rfl
  | @deliverFull frame rest _ _ _ hfull =>
      refine ⟨heof, hends, rfl, ?_⟩
      intro hmem
      have hsplit : s.popped ++ (s.hostQueue ++ s.lost ++ s.toHost) = s.emitted := by
        simpa using hsent.split
      have hlength := hs.length_le hsplit hmem
      have hcapacity : routeCapacity = 16 := rfl
      simp only [List.length_append] at hlength
      omega
  | recvMeta _ hcancel | recv _ hcancel =>
      exact ⟨heof, hends, hcanceled, fun _ => hcanceled ▸ hcancel⟩
  | _ => exact ⟨heof, hends, hcanceled, hcalm⟩

theorem concluding_of_reachable {plan : Plan} {s : State}
    (h : (system plan).Reachable s) : Concluding plan s := by
  refine h.invariant_of (P := Sent plan) (Q := Concluding plan)
    (fun _ hu => sent_of_reachable hu) ?_ (fun _ _ _ hu hs hstep => hs.step hu hstep)
  rintro s rfl
  exact ⟨nofun, fun hmem => (nomatch hmem), rfl, fun _ => rfl⟩

/-- The bytes that `remote_pull` counts, and returns when all goes well. -/
def State.total (s : State) : Nat := (lengthsOf s.written).sum

/-- What holds once `remote_pull` has returned `Ok`. -/
structure Faithful (plan : Plan) (s : State) : Prop where
  written : s.written = plan.reads.chunks
  unread : s.unread = []
  total : s.total = s.declared
  popped : s.popped = .fileMeta s.declared :: plan.reads.frames
  overflowed : s.overflowed = false
  hostCancel : s.hostCancel = false

/-- `remote_pull` returns `Ok` at the end of the file, when it has as many bytes as the
`FileMeta` says. -/
theorem Step.flush_of_succeeded {plan : Plan} {s t : State} {a : Actor}
    (h : Step plan s a t) (hrunning : s.host.running = true) (hsucceeded : t.host = .succeeded) :
    s.host = .flushing ∧ s.total = s.expected ∧ t = { s with host := .succeeded } := by
  have hbefore : s.host ≠ .succeeded := by
    intro heq
    rw [heq] at hrunning
    exact nomatch hrunning
  cases h with
  | flush hphase hsize => exact ⟨hphase, hsize, rfl⟩
  | @recvMeta frame => cases frame <;> exact nomatch hsucceeded
  | @recv frame => cases frame <;> exact nomatch hsucceeded
  | createFile | createFails | grant | updateSent | write | writeFails | accountOnly
  | accountReport | accountFails | sizeMismatch | flushFails | hostCanceled | hostClosed
  | dropStream => exact nomatch hsucceeded
  | _ => exact absurd hsucceeded hbefore

/-- When `remote_pull` returns `Ok`, it has written all that the handler has read, as many
bytes as the handler has declared, and the stream has come to its end. -/
theorem faithful_of_succeeded {plan : Plan} {s t : State} {a : Actor}
    (h : (system plan).Reachable s) (hstep : Step plan s a t) (hrunning : s.host.running = true)
    (hsucceeded : t.host = .succeeded) : Faithful plan t := by
  obtain ⟨hphase, htotal, rfl⟩ := hstep.flush_of_succeeded hrunning hsucceeded
  have hconcluding := concluding_of_reachable h
  have hagrees := (handled_of_reachable h).agrees
  rw [hphase] at hagrees
  have hpopped := hagrees.1
  have hend : .fileEnd ∈ s.popped := by simp [hpopped]
  have hsplit : s.popped ++ (s.hostQueue ++ s.lost ++ s.toHost) = s.emitted := by
    simpa using (sent_of_reachable h).split
  obtain ⟨hunread, hconcludes⟩ := hconcluding.ends (hsplit ▸ List.mem_append_left _ hend)
  obtain ⟨tail, hemitted⟩ : ∃ tail, s.emitted = plan.frames s.declared ++ tail := by
    rcases hconcludes.frames with heq | heq
    · exact ⟨[], by simpa using heq⟩
    · exact ⟨[.error], heq⟩
  rw [hemitted, hpopped] at hsplit
  simp only [Plan.frames, FileReads.framesWith, List.cons_append, List.append_assoc,
    List.cons.injEq, StreamFrame.fileMeta.injEq] at hsplit
  obtain ⟨hsize, hsplit⟩ := hsplit
  obtain ⟨hwritten, -, -⟩ := chunksOf_append_inj (by simp) plan.last_ne_fileChunk hsplit
  refine ⟨hwritten, hunread, htotal.trans hsize, ?_, hconcluding.calm hend, ?_⟩
  · rw [hpopped, hsize, hwritten]
    rfl
  · exact hconcluding.canceled.trans (hconcluding.calm hend)

theorem exists_succeeded (plan : Plan) (hfails : plan.failsAt = none)
    (hreads : plan.readFails = false) :
    ∃ s a t, (system plan).Reachable s ∧ Step plan s a t ∧ s.host.running = true ∧
      t.host = .succeeded := by
  have hlimit : plan.reads.chunks.length ≤ plan.limit := by simp [Plan.limit, hfails]
  obtain ⟨s, hs, hsize⟩ := exists_synced plan plan.reads.sizes.sum (Nat.le_refl _) hlimit
  obtain ⟨⟨hroute, hconnected⟩, -, -, htoHost, -, hhostQueue, hreceiving⟩ := hs.quiet
  have huntroubled := untroubled_of_reachable hs.reachable ⟨hroute, hconnected⟩
  have hunread : s.unread = [] := by rw [hs.unread, List.drop_length]
  have htotal : (lengthsOf s.written).sum = s.expected := by
    rw [hs.expected, hsize, hs.written, List.take_length]
    rfl
  have hwire : s.toHost ++ [.fileEnd] = .fileEnd :: [] := by rw [htoHost, List.nil_append]
  have hqueue : s.hostQueue ++ [.fileEnd] = .fileEnd :: [] := by
    rw [hhostQueue, List.nil_append]
  have hroom : s.hostQueue.length < routeCapacity := by
    rw [hhostQueue]
    decide
  have hrun : (system plan).Leads s _ :=
    .head (Step.readEof hs.reading huntroubled.cancelWatch hunread hreads)
      (.head (Step.sendEnd rfl hconnected)
        (.head (Step.deliver hconnected hwire hroute hroom)
          (.single (Step.recv hreceiving huntroubled.hostCancel hqueue))))
  exact ⟨_, _, _, hs.reachable.leads hrun, Step.flush rfl htotal, rfl, rfl⟩

theorem wiresMove (plan : Plan) : WiresMove (system plan) State.toDevice State.toHost := by
  intro s a t hstep
  cases hstep with
  | grant | accountReport | sendHostCancel => exact ⟨.send _ _, .stay _⟩
  | sendMeta | sendChunk | sendEnd | sendEndCanceled | reportError =>
      exact ⟨.stay _, .send _ _⟩
  | deliverUpdate _ hwire | rejectUpdate _ hwire | dropUpdate _ hwire | serveCancel _ hwire =>
      exact ⟨hwire ▸ .take _ _, .stay _⟩
  | deliver _ hwire | deliverFull _ hwire | deliverStray _ hwire =>
      exact ⟨.stay _, hwire ▸ .take _ _⟩
  | _ => exact ⟨.stay _, .stay _⟩

end SideWire.PullTransfer
