import SideWire.Base.SharedWire
import SideWire.PushRuns

namespace SideWire.PushTransfer

open SideWire.TransitionSystem
open SideWire.ByteString
open SideWire.FlowControl
open SideWire.SharedWire

/-- The phases after the end of the file. -/
def HostPhase.pastEof : HostPhase → Bool
  | .ending | .sent true | .awaitingDone | .succeeded => true
  | _ => false

@[simp] theorem HostPhase.pastEof_wake (phase : HostPhase) :
    phase.wake.pastEof = phase.pastEof := by
  cases phase <;> rfl

/-- What the end of the file and the end of the push rest on. -/
structure Concluding (s : State) : Prop where
  eof : s.host.pastEof = true → s.unread = []
  ends : .fileEnd ∈ s.mail → s.popped = chunksOf s.written ++ [.fileEnd]
  overflow : s.overflowed = true → s.unserved ≠ []

theorem Concluding.of_mail {s t : State} (hs : Concluding s)
    (heof : t.host.pastEof = true → s.host.pastEof = true ∧ t.unread = s.unread)
    (hmail : .fileEnd ∈ t.mail → .fileEnd ∈ s.mail)
    (hpopped : t.popped = s.popped) (hwritten : t.written = s.written)
    (hoverflowed : t.overflowed = true → s.overflowed = true)
    (hunserved : s.unserved ≠ [] → t.unserved ≠ []) : Concluding t := by
  refine ⟨?_, ?_, fun hover => hunserved (hs.overflow (hoverflowed hover))⟩
  · intro hpast
    obtain ⟨hbefore, hunread⟩ := heof hpast
    exact hunread.trans (hs.eof hbefore)
  · intro hmem
    rw [hpopped, hwritten]
    exact hs.ends (hmail hmem)

theorem Posted.fileEnd_not_mem {s : State} (hs : Posted s) (hresult : s.device.result = none) :
    .fileEnd ∉ s.mail := by
  intro hmem
  rcases hs.ends hmem with hsome | hsome
  · exact nomatch hresult.symm.trans hsome
  · exact nomatch hresult.symm.trans hsome

theorem Concluding.step {plan : Plan} {s t : State} {a : Actor} (hposted : Posted s)
    (hhandled : Handled plan s) (hs : Concluding s) (h : Step plan s a t) : Concluding t := by
  cases h with
  | @recvReady frame queue _ _ hqueue =>
      refine hs.of_mail ?_ ?_ rfl rfl id id
      · rcases HostPhase.onReady_cases frame with ⟨-, hnext⟩ | ⟨why, hnext⟩ <;>
          simp [hnext, HostPhase.pastEof]
      · intro hmem
        simp only [State.mail, hqueue, List.cons_append]
        exact List.mem_cons_of_mem _ hmem
  | @tryRecv frame queue _ _ hqueue =>
      obtain ⟨why, hnext⟩ := HostPhase.onUpload_cases frame
      refine hs.of_mail (by simp [hnext, HostPhase.pastEof]) ?_ rfl rfl id id
      intro hmem
      simp only [State.mail, hqueue, List.cons_append]
      exact List.mem_cons_of_mem _ hmem
  | @recvDone frame queue hphase _ hqueue =>
      refine hs.of_mail (fun _ => ⟨by rw [hphase]; rfl, rfl⟩) ?_ rfl rfl id id
      intro hmem
      simp only [State.mail, hqueue, List.cons_append]
      exact List.mem_cons_of_mem _ hmem
  | readEof hphase hunread => exact ⟨fun _ => hunread, hs.ends, hs.overflow⟩
  | sendEnd hphase | sentEnd hphase =>
      exact hs.of_mail (fun _ => ⟨by rw [hphase]; rfl, rfl⟩) id rfl rfl id id
  | readChunk | readFails | takeCredit | park | resume | sendChunk | sentChunk | tryRecvEmpty
  | hostCanceled | hostClosed | dropStream =>
      exact hs.of_mail (by simp [HostPhase.pastEof]) id rfl rfl id id
  | deliver _ hwire =>
      refine hs.of_mail (fun hpast => ⟨hpast, rfl⟩) ?_ rfl rfl id id
      simp [State.mail, hwire]
  | deliverFull _ hwire | deliverUpdate _ hwire | rejectUpdate _ hwire | deliverCancel _ hwire
  | deliverStray _ hwire =>
      refine hs.of_mail (by simp) ?_ rfl rfl id id
      simp only [State.mail, hwire, List.mem_append, List.mem_cons]
      tauto
  | close => exact hs.of_mail (by simp) id rfl rfl id id
  | routeFull =>
      exact ⟨hs.eof, hs.ends, fun _ => by simp⟩
  | unsupportedCanceled =>
      exact hs.of_mail (fun hpast => ⟨hpast, rfl⟩) id rfl rfl id (by simp)
  | unsupported =>
      refine hs.of_mail (fun hpast => ⟨hpast, rfl⟩) ?_ rfl rfl id (by simp)
      simp [State.mail]
  | create | sendDeviceCancel | reportError =>
      refine hs.of_mail (fun hpast => ⟨hpast, rfl⟩) ?_ rfl rfl id id
      simp [State.mail]
  | grant _ _ hupdate | accountReport _ _ _ hupdate =>
      refine hs.of_mail (fun hpast => ⟨hpast, rfl⟩) ?_ rfl rfl id id
      simp only [State.mail, List.mem_append]
      rintro (hmem | hmem | hmem)
      · exact .inl hmem
      · exact .inr hmem
      · cases (eq_of_mem_windowUpdate hupdate hmem).1
  | recv hphase | write hphase =>
      have hnone := hposted.fileEnd_not_mem (by rw [hphase]; rfl)
      exact ⟨hs.eof, fun hmem => absurd hmem hnone, hs.overflow⟩
  | flush hphase | flushCanceled hphase =>
      have hagrees := hhandled.agrees
      rw [hphase] at hagrees
      exact ⟨hs.eof, fun _ => hagrees.1, hs.overflow⟩
  | _ => exact hs.of_mail (fun hpast => ⟨hpast, rfl⟩) id rfl rfl id id

theorem concluding_of_reachable {plan : Plan} {s : State}
    (h : (system plan).Reachable s) : Concluding s := by
  refine h.invariant_of (P := fun u => Posted u ∧ Handled plan u) (Q := Concluding)
    (fun _ hu => ⟨posted_of_reachable hu, handled_of_reachable hu⟩) ?_
    (fun _ _ _ hu hs hstep => hs.step hu.1 hu.2 hstep)
  rintro s rfl
  exact ⟨fun hpast => (nomatch hpast), fun hmem => (nomatch hmem), fun hover => nomatch hover⟩

@[simp] theorem HostPhase.wake_eq_succeeded {phase : HostPhase} :
    phase.wake = .succeeded ↔ phase = .succeeded := by
  cases phase <;> simp [HostPhase.wake]

/-- `remote_push` returns `Ok` when it takes a `FileEnd` from the queue of a stream that is not
canceled. -/
theorem Step.recvDone_of_succeeded {plan : Plan} {s t : State} {a : Actor}
    (h : Step plan s a t) (hrunning : s.host.running = true) (hsucceeded : t.host = .succeeded) :
    s.host = .awaitingDone ∧ s.hostCancel = false ∧ .fileEnd ∈ s.hostQueue ∧
      t = { s with
        host := .succeeded, hostQueue := t.hostQueue, completed := t.completed } := by
  have hbefore : s.host ≠ .succeeded := by
    intro heq
    rw [heq] at hrunning
    exact nomatch hrunning
  cases h with
  | @recvDone frame queue hphase hcancel hqueue =>
      rcases HostPhase.onDone_cases frame with ⟨rfl, hnext⟩ | ⟨why, hnext⟩
      · exact ⟨hphase, hcancel, by simp [hqueue], by rw [hnext]⟩
      · exact nomatch hnext.symm.trans hsucceeded
  | @recvReady frame =>
      rcases HostPhase.onReady_cases frame with ⟨-, hnext⟩ | ⟨why, hnext⟩
      · exact nomatch hnext.symm.trans hsucceeded
      · exact nomatch hnext.symm.trans hsucceeded
  | @tryRecv frame =>
      obtain ⟨why, hnext⟩ := HostPhase.onUpload_cases frame
      exact nomatch hnext.symm.trans hsucceeded
  | deliverFull | deliverUpdate | rejectUpdate | deliverCancel | close =>
      exact absurd (HostPhase.wake_eq_succeeded.mp hsucceeded) hbefore
  | readChunk | readEof | readFails | takeCredit | park | resume | sendChunk | sendEnd
  | sentChunk | sentEnd | tryRecvEmpty | hostCanceled | hostClosed | dropStream =>
      exact nomatch hsucceeded
  | _ => exact absurd hsucceeded hbefore

/-- What holds once `remote_push` has returned `Ok`. -/
structure Faithful (plan : Plan) (s : State) : Prop where
  written : s.written = plan.reads.chunks
  unread : s.unread = []
  popped : s.popped = plan.reads.frames
  overflowed : s.overflowed = false
  hostCancel : s.hostCancel = false

/-- When `remote_push` returns `Ok`, the handler has written all that the host has read, and
the stream has come to its end. -/
theorem faithful_of_succeeded {plan : Plan} {s t : State} {a : Actor}
    (h : (system plan).Reachable s) (hstep : Step plan s a t) (hrunning : s.host.running = true)
    (hsucceeded : t.host = .succeeded) : Faithful plan t := by
  obtain ⟨hphase, hcancel, hqueue, ht⟩ := hstep.recvDone_of_succeeded hrunning hsucceeded
  have hconcluding := concluding_of_reachable h
  have hpopped := hconcluding.ends (List.mem_append_left _ hqueue)
  have hframes := (ordered_of_reachable h).frames
  simp only [hpopped, List.append_assoc, List.singleton_append] at hframes
  obtain ⟨hwritten, -, hrest⟩ := chunksOf_append_inj (by simp) (by simp) hframes
  obtain ⟨-, hrest⟩ := List.append_eq_nil_iff.mp hrest
  have hunserved := (List.append_eq_nil_iff.mp hrest).1
  rw [ht]
  refine ⟨hwritten, hconcluding.eof (by rw [hphase]; rfl), ?_, ?_, hcancel⟩
  · exact hpopped.trans (congrArg (chunksOf · ++ [.fileEnd]) hwritten)
  · rw [← Bool.not_eq_true]
    exact fun hover => hconcluding.overflow hover hunserved

theorem exists_succeeded (plan : Plan) (hfails : plan.failsAt = none) :
    ∃ s a t, (system plan).Reachable s ∧ Step plan s a t ∧ s.host.running = true ∧
      t.host = .succeeded := by
  have hlimit : plan.reads.chunks.length ≤ plan.limit := by simp [Plan.limit, hfails]
  obtain ⟨s, hs⟩ := exists_synced plan (Nat.le_refl _) hlimit
  obtain ⟨⟨-, hconnected, hcancel, -⟩, -, htoDevice, htoHost, hinbox, hreceiving⟩ := hs.quiet
  have hundisturbed := undisturbed_of_reachable hs.reachable hs.quiet.calm
  have hunread : s.unread = [] := by rw [hs.unread, List.drop_length]
  have hwire : s.toDevice ++ [.fileEnd] = .fileEnd :: [] := by rw [htoDevice, List.nil_append]
  have hnext : s.inbox ++ [.fileEnd] = .fileEnd :: [] := by rw [hinbox, List.nil_append]
  have hback : s.toHost ++ [.fileEnd] = .fileEnd :: [] := by rw [htoHost, List.nil_append]
  have hqueue : s.hostQueue ++ [.fileEnd] = .fileEnd :: [] := by
    rw [hs.hostQueue, List.nil_append]
  have hroom : s.inbox.length < routeCapacity := by
    rw [hinbox]
    decide
  have hhostRoom : s.hostQueue.length < routeCapacity := by
    rw [hs.hostQueue]
    decide
  have hrun : (system plan).Leads s _ := .head (Step.readEof hs.reading hunread)
    (.head (Step.sendEnd rfl hconnected)
      (.head (Step.sentEnd rfl hcancel hconnected)
        (.head (Step.route hconnected hwire rfl hs.routed hroom)
          (.head (Step.recv hreceiving hundisturbed.cancelWatch hnext)
            (.head (Step.flush rfl hconnected)
              (.single (Step.deliver hconnected hback rfl hundisturbed.hostRoute hhostRoom)))))))
  exact ⟨_, _, _, hs.reachable.leads hrun, Step.recvDone rfl hcancel hqueue, rfl, rfl⟩

theorem wiresMove (plan : Plan) : WiresMove (system plan) State.toDevice State.toHost := by
  intro s a t hstep
  cases hstep with
  | sendChunk | sendEnd | sendHostCancel => exact ⟨.send _ _, .stay _⟩
  | create | grant | accountReport | flush | flushCanceled | sendDeviceCancel | reportError =>
      exact ⟨.stay _, .send _ _⟩
  | unsupported _ hwire => exact ⟨hwire ▸ .take _ _, .send _ _⟩
  | route _ hwire | routeFull _ hwire | unsupportedCanceled _ hwire | serveCancel _ hwire =>
      exact ⟨hwire ▸ .take _ _, .stay _⟩
  | deliver _ hwire | deliverFull _ hwire | deliverUpdate _ hwire | rejectUpdate _ hwire
  | deliverCancel _ hwire | deliverStray _ hwire => exact ⟨.stay _, hwire ▸ .take _ _⟩
  | _ => exact ⟨.stay _, .stay _⟩

end SideWire.PushTransfer
