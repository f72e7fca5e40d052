import SideWire.PushRuns

/-!
A push whose write fails on the device. The host looks at its queue only between
two chunks, so it notices the failure as long as it does not run out of credit
first.
-/

namespace SideWire.PushTransfer

open SideWire.TransitionSystem
open SideWire.CreditWindow
open SideWire.ByteString
open SideWire.FlowControl

/-- `handle_push` has ended with an error that lies in the host's queue, the
connection is open, and no frame is under way or about to be sent by a spawned
task. -/
structure Refused (s : State) : Prop where
  running : s.host.running = true
  connected : s.connected = true
  ended : ∃ why, s.device = .ended (.error why)
  queued : .error ∈ s.hostQueue
  toDevice : s.toDevice = []
  toHost : s.toHost = []
  hostTasks : s.hostCanceling = 0
  deviceTasks : s.canceling = .idle

/-- The host does not wait for credit, and its own steps take it to the error, or
to the cancellation if the stream has been canceled. -/
structure Answers (plan : Plan) (s : State) : Prop where
  awake : ∀ chunk, s.host ≠ .parked chunk false
  observes : ∃ t, (system plan).LeadsBy (· = .host) s t ∧
    (t.host = .failed .remoteError ∨ s.hostCancel = true ∧ t.host = .failed .canceled)

/-- The frames that can follow a failing chunk without filling a queue: those
left in the inbox, and those answered by one `Error` each next to the one of the
handler. -/
def lateCapacity : Nat := routeCapacity + (routeCapacity - 1)

/-- The failing chunk and the ones that can come late fit into what is left of
the window. -/
def Plan.FitsLate (plan : Plan) : Prop :=
  ∀ k, plan.failsAt = some k →
    unreported fileWindow (plan.reads.sizes.take k) +
      ((plan.reads.sizes.drop k).take (lateCapacity + 2)).sum ≤ fileFlowWindow

theorem HostPhase.live_of_running {phase : HostPhase} (h : phase.running = true) :
    phase.live = true := by
  cases phase <;> simp_all [HostPhase.running, HostPhase.live]

theorem Refused.calm {plan : Plan} {s : State} (h : (system plan).Reachable s)
    (hrefused : Refused s) (hcancel : s.hostCancel = false) : Calm s := by
  have hlive := HostPhase.live_of_running hrefused.running
  refine ⟨hlive, hrefused.connected, hcancel, ?_⟩
  by_contra hover
  have hpresent : s.host ≠ .gone := by
    intro hgone
    simp [hgone, HostPhase.live] at hlive
  have hguarded := (guarded_of_reachable h).overflow hpresent (by simpa using hover)
  simp [hrefused.deviceTasks, hrefused.toHost, hcancel] at hguarded

theorem sum_take_of_frames {reads : FileReads} (before after : List StreamFrame)
    (h : before ++ after = reads.frames) :
    (reads.sizes.take before.length).sum = bytesOf before := by
  rw [← reads.bytesOf_take_frames, ← h, List.take_left']
  rfl

theorem count_fileEnd_frames (reads : FileReads) :
    reads.frames.count .fileEnd = 1 := by
  have hnone : (chunksOf reads.chunks).count .fileEnd = 0 := by
    rw [List.count_eq_zero]
    simp [chunksOf]
  simp [FileReads.frames, FileReads.framesWith, hnone]

theorem failed_write {plan : Plan} {s : State} (h : (system plan).Reachable s)
    (hcalm : Calm s) {why : HandlerError} (hended : s.device = .ended (.error why))
    {chunk : Bytes} {woken : Bool} (hparked : s.host = .parked chunk woken) :
    (∃ failed, s.popped = chunksOf s.written ++ [.fileChunk failed]) ∧
      s.accounted = lengthsOf s.written ∧ plan.failsAt = some s.written.length := by
  have ho := ordered_of_reachable h
  have hcause := (undisturbed_of_reachable h hcalm).cause why (by rw [hended]; rfl)
  have hagrees := (handled_of_reachable h).agrees
  rw [hended] at hagrees
  rcases hcause with rfl | rfl | rfl
  · have hready := (posted_of_reachable h).waiting hcalm.live (by rw [hended]; rfl)
    simp [hparked] at hready
  · exact hagrees
  · have hunsent := ho.unsent _ (by rw [hparked]; rfl)
    have hcount := congrArg (List.count .fileEnd) ho.frames
    rw [count_fileEnd_frames, hunsent, hagrees.1] at hcount
    have hmarker : 0 < (.fileChunk chunk :: framesOf s.unread).count .fileEnd :=
      List.count_pos_iff.mpr (by simp [framesOf])
    simp only [List.count_append, List.count_singleton_self] at hcount
    omega

theorem opened_of_taken {plan : Plan} {s : State} (h : (system plan).Reachable s)
    (htaken : s.accounted.sum < s.taken) : s.opened = true := by
  by_contra hclosed
  have hbalanced := Ledger.balanced_of_reachable fileWindow (ledger_of_reachable h)
  have htotal := hbalanced.total_le
  simp only [Ledger.total, State.ledger, hclosed, if_false] at htotal
  omega

theorem not_parked {plan : Plan} (hfits : plan.FitsLate) {s : State}
    (h : (system plan).Reachable s) (hrefused : Refused s) (chunk : Bytes) :
    s.host ≠ .parked chunk false := by
  intro hparked
  have ho := ordered_of_reachable h
  have hh := handled_of_reachable h
  have hguarded := guarded_of_reachable h
  obtain ⟨hcancel, hlack⟩ := hguarded.parked chunk hparked
  have hcalm := hrefused.calm h hcancel
  obtain ⟨why, hended⟩ := hrefused.ended
  obtain ⟨⟨failed, hpopped⟩, haccounted, hfails⟩ := failed_write h hcalm hended hparked
  -- Every late frame has its own `Error` in the host's queue.
  have hlate : s.unserved.length + 1 ≤ routeCapacity := by
    have herrors := count_error h hcalm
    rw [hended, State.mail, hrefused.toHost, List.append_nil] at herrors
    have hcount : s.hostQueue.count .error ≤ s.hostQueue.length := List.count_le_length
    have hqueue := hguarded.hostQueue
    simp only [DevicePhase.reported] at herrors
    omega
  have hunsent := ho.unsent _ (by rw [hparked]; rfl)
  have hframes := ho.frames
  rw [hrefused.toDevice, hunsent] at hframes
  simp only [List.filter_nil, List.append_nil] at hframes
  have hafter := sum_take_of_frames
    (s.popped ++ s.inbox ++ s.unserved ++ [StreamFrame.fileChunk chunk]) (framesOf s.unread)
    (by rw [← hframes]; simp)
  have hexact := (spent_of_reachable h).exact hcalm.live
  have hle := hh.accounted_le
  have hfailed : 1 ≤ failed.length := by
    have hmem : StreamFrame.fileChunk failed ∈ plan.reads.frames := by
      rw [← hframes, hpopped]
      simp
    rcases plan.reads.mem_frames hmem with ⟨chunk', hchunk, heq⟩ | heq
    · obtain rfl := StreamFrame.fileChunk.inj heq
      exact (plan.reads.sized failed hchunk).1
    · cases heq
  have hopened : s.opened = true := by
    apply opened_of_taken h
    have hsent := (spent_of_reachable h).sent_le ho
    rw [hpopped, bytesOf_append, bytesOf_chunksOf, ← haccounted] at hsent
    simp only [bytesOf_cons, bytesOf_nil, StreamFrame.chunkBytes] at hsent
    omega
  have htotal := total_eq h hcalm hopened
  have hwindow := hfits s.written.length hfails
  have hlength : s.accounted.length = s.written.length := by
    simp [haccounted, lengthsOf]
  have htake := accounted_eq_take ho hh
  rw [hlength] at htake
  have hsplit := sum_take_add plan.reads.sizes s.written.length (lateCapacity + 2)
  have hinbox := hguarded.inbox
  have hcover : (s.popped ++ s.inbox ++ s.unserved ++ [StreamFrame.fileChunk chunk]).length ≤
      s.written.length + (lateCapacity + 2) := by
    simp only [hpopped, List.length_append, chunksOf, List.length_map,
      List.length_singleton, lateCapacity]
    omega
  have hmono := sum_take_mono plan.reads.sizes hcover
  rw [← htake] at hwindow hsplit
  simp only [hunsent, hparked, HostPhase.held, ← hframes, bytesOf_append, bytesOf_cons,
    bytesOf_nil, StreamFrame.chunkBytes, hrefused.toHost, grantsOf_nil]
    at hafter hexact htotal
  omega

/-- The host's own steps lead to the error it was sent. -/
def Observes (plan : Plan) (s : State) : Prop :=
  ∃ t, (system plan).LeadsBy (· = .host) s t ∧ t.host = .failed .remoteError

theorem Observes.head {plan : Plan} {s t : State} (h : Step plan s .host t)
    (ht : Observes plan t) : Observes plan s := by
  obtain ⟨u, hrun, hu⟩ := ht
  exact ⟨u, .head rfl h hrun, hu⟩

/-- An active host with an `Error` next in its queue. -/
structure Told (s : State) : Prop where
  connected : s.connected = true
  hostCancel : s.hostCancel = false
  queue : ∃ queue, s.hostQueue = .error :: queue

theorem Told.observes_of_receives {plan : Plan} {s : State} (hs : Told s)
    (hphase : s.host.receives = true) : Observes plan s := by
  obtain ⟨queue, hqueue⟩ := hs.queue
  cases hhost : s.host with
  | awaitingReady =>
      exact .head (.recvReady hhost hs.hostCancel hqueue) ⟨_, .refl, rfl⟩
  | checking => exact .head (.tryRecv hhost hs.hostCancel hqueue) ⟨_, .refl, rfl⟩
  | awaitingDone =>
      exact .head (.recvDone hhost hs.hostCancel hqueue) ⟨_, .refl, rfl⟩
  | _ => simp [hhost, HostPhase.receives] at hphase

theorem Told.observes_of_sent {plan : Plan} {s : State} (hs : Told s) {last : Bool}
    (hphase : s.host = .sent last) : Observes plan s := by
  obtain ⟨hconnected, hcancel, hqueue⟩ := hs
  cases last with
  | false =>
      refine .head (.sentChunk hphase hcancel hconnected) ?_
      exact Told.observes_of_receives ⟨hconnected, hcancel, hqueue⟩ rfl
  | true =>
      refine .head (.sentEnd hphase hcancel hconnected) ?_
      exact Told.observes_of_receives ⟨hconnected, hcancel, hqueue⟩ rfl

theorem Told.observes_of_sending {plan : Plan} {s : State} (hs : Told s)
    {chunk : Bytes} (hphase : s.host = .sending chunk) : Observes plan s := by
  refine .head (.sendChunk hphase hs.connected) ?_
  exact Told.observes_of_sent ⟨hs.connected, hs.hostCancel, hs.queue⟩ rfl

theorem Told.observes_of_ending {plan : Plan} {s : State} (hs : Told s)
    (hphase : s.host = .ending) : Observes plan s := by
  refine .head (.sendEnd hphase hs.connected) ?_
  exact Told.observes_of_sent ⟨hs.connected, hs.hostCancel, hs.queue⟩ rfl

/-- After the failure only the `FileMeta` can be ahead of an `Error`. -/
theorem head_of_refused {plan : Plan} {s : State} (h : (system plan).Reachable s)
    (hrefused : Refused s) (hcancel : s.hostCancel = false) :
    ∃ frame queue, s.hostQueue = frame :: queue ∧
      (frame = .error ∨ frame = .fileMeta 0 ∧ s.host = .awaitingReady) := by
  have hcalm := hrefused.calm h hcancel
  have hposted := posted_of_reachable h
  obtain ⟨why, hended⟩ := hrefused.ended
  cases hqueue : s.hostQueue with
  | nil => simpa [hqueue] using hrefused.queued
  | cons frame queue =>
      have hmem : frame ∈ s.mail := by simp [State.mail, hqueue]
      have hdata := hposted.data frame (by simp [hqueue])
      have hreply := hposted.reply frame hmem
      refine ⟨frame, queue, rfl, ?_⟩
      cases frame with
      | error => exact .inl rfl
      | fileMeta size =>
          obtain rfl : size = 0 := by simpa [isReply] using hreply
          have hmetas := hposted.metas hcalm.live
          have hpos := List.count_pos_iff.mpr hmem
          by_cases hready : s.host = .awaitingReady
          · exact .inr ⟨rfl, hready⟩
          · simp only [State.awaited, hready, and_false, if_false] at hmetas
            omega
      | fileEnd =>
          have hcause := (undisturbed_of_reachable h hcalm).cause why (by rw [hended]; rfl)
          have hends := hposted.ends hmem
          rcases hcause with rfl | rfl | rfl <;> simp [hended, DevicePhase.result] at hends
      | fileChunk payload => simp [isReply] at hreply
      | windowUpdate bytes => simp [StreamFrame.isData] at hdata
      | streamCancel => simp [StreamFrame.isData] at hdata

theorem observes_of_acquiring {plan : Plan} (hfits : plan.FitsLate) {s : State}
    (h : (system plan).Reachable s) (hrefused : Refused s)
    (hcancel : s.hostCancel = false) {chunk : Bytes}
    (hphase : s.host = .acquiring chunk) : Observes plan s := by
  obtain ⟨frame, queue, hqueue, hhead⟩ := head_of_refused h hrefused hcancel
  obtain rfl : frame = .error := by
    rcases hhead with heq | ⟨-, hready⟩
    · exact heq
    · simp [hphase] at hready
  cases htake : s.credit.tryTake chunk.length with
  | some credit =>
      refine .head (.takeCredit hphase hcancel hrefused.connected htake) ?_
      exact Told.observes_of_sending ⟨hrefused.connected, hcancel, queue, hqueue⟩ rfl
  | none =>
      have hpark : Step plan s .host { s with host := .parked chunk false } :=
        .park hphase hcancel hrefused.connected htake
      have hstuck := not_parked hfits (h.leads (.single hpark))
        ⟨rfl, hrefused.connected, hrefused.ended, hrefused.queued, hrefused.toDevice,
          hrefused.toHost, hrefused.hostTasks, hrefused.deviceTasks⟩ chunk
      exact absurd rfl hstuck

theorem observes_of_reading {plan : Plan} (hfits : plan.FitsLate) {s : State}
    (h : (system plan).Reachable s) (hrefused : Refused s)
    (hcancel : s.hostCancel = false) (hphase : s.host = .reading) :
    Observes plan s := by
  obtain ⟨frame, queue, hqueue, hhead⟩ := head_of_refused h hrefused hcancel
  obtain rfl : frame = .error := by
    rcases hhead with heq | ⟨-, hready⟩
    · exact heq
    · simp [hphase] at hready
  cases hunread : s.unread with
  | nil =>
      refine .head (.readEof hphase hunread) ?_
      exact Told.observes_of_ending ⟨hrefused.connected, hcancel, queue, hqueue⟩ rfl
  | cons chunk rest =>
      have hread : Step plan s .host _ := .readChunk hphase hunread
      refine .head hread ?_
      exact observes_of_acquiring hfits (h.leads (.single hread))
        ⟨rfl, hrefused.connected, hrefused.ended, hrefused.queued, hrefused.toDevice,
          hrefused.toHost, hrefused.hostTasks, hrefused.deviceTasks⟩ hcancel rfl

theorem observes_of_refused {plan : Plan} (hfits : plan.FitsLate) {s : State}
    (h : (system plan).Reachable s) (hrefused : Refused s)
    (hcancel : s.hostCancel = false) : Observes plan s := by
  obtain ⟨frame, queue, hqueue, hhead⟩ := head_of_refused h hrefused hcancel
  have hframe : s.host ≠ .awaitingReady → frame = .error := by
    intro hne
    exact hhead.resolve_right fun hmeta => hne hmeta.2
  have htold : s.host ≠ .awaitingReady → Told s := by
    intro hne
    obtain rfl := hframe hne
    exact ⟨hrefused.connected, hcancel, queue, hqueue⟩
  have hrunning := hrefused.running
  cases hphase : s.host with
  | awaitingReady =>
      rcases hhead with rfl | ⟨rfl, -⟩
      · exact Told.observes_of_receives ⟨hrefused.connected, hcancel, queue, hqueue⟩
          (by rw [hphase]; rfl)
      · have hready : Step plan s .host _ := .recvReady hphase hcancel hqueue
        have hqueued := hrefused.queued
        rw [hqueue] at hqueued
        refine .head hready (observes_of_reading hfits (h.leads (.single hready)) ?_ hcancel
          rfl)
        exact ⟨rfl, hrefused.connected, hrefused.ended, by simpa using hqueued,
          hrefused.toDevice, hrefused.toHost, hrefused.hostTasks, hrefused.deviceTasks⟩
  | reading => exact observes_of_reading hfits h hrefused hcancel hphase
  | acquiring chunk => exact observes_of_acquiring hfits h hrefused hcancel hphase
  | parked chunk woken =>
      cases woken with
      | false => exact absurd hphase (not_parked hfits h hrefused chunk)
      | true =>
          have hresume : Step plan s .host _ := .resume hphase
          refine .head hresume (observes_of_acquiring hfits (h.leads (.single hresume)) ?_
            hcancel rfl)
          exact ⟨rfl, hrefused.connected, hrefused.ended, hrefused.queued,
            hrefused.toDevice, hrefused.toHost, hrefused.hostTasks, hrefused.deviceTasks⟩
  | sending chunk => exact (htold (by simp [hphase])).observes_of_sending hphase
  | sent last => exact (htold (by simp [hphase])).observes_of_sent hphase
  | checking =>
      exact (htold (by simp [hphase])).observes_of_receives (by rw [hphase]; rfl)
  | ending => exact (htold (by simp [hphase])).observes_of_ending hphase
  | awaitingDone =>
      exact (htold (by simp [hphase])).observes_of_receives (by rw [hphase]; rfl)
  | succeeded | failed | gone => simp [hphase, HostPhase.running] at hrunning

theorem cancels_of_running {plan : Plan} {s : State} (h : (system plan).Reachable s)
    (hrunning : s.host.running = true) (hcancel : s.hostCancel = true) :
    ∃ t, (system plan).LeadsBy (· = .host) s t ∧ t.host = .failed .canceled := by
  have hlooks : ∀ u : State, u.host.looksAtCancel = true → u.hostCancel = true →
      ∃ t, (system plan).LeadsBy (· = .host) u t ∧ t.host = .failed .canceled :=
    fun u hphase hu => ⟨_, .head rfl (Step.hostCanceled hphase hu) .refl, rfl⟩
  cases hphase : s.host with
  | reading =>
      cases hunread : s.unread with
      | nil =>
          obtain ⟨t, hrun, ht⟩ := hlooks { s with host := .ending } rfl hcancel
          exact ⟨t, .head rfl (Step.readEof hphase hunread) hrun, ht⟩
      | cons chunk rest =>
          obtain ⟨t, hrun, ht⟩ :=
            hlooks { s with host := .acquiring chunk, unread := rest } rfl hcancel
          exact ⟨t, .head rfl (Step.readChunk hphase hunread) hrun, ht⟩
  | parked chunk woken =>
      cases woken with
      | false =>
          have hguarded := (guarded_of_reachable h).parked chunk hphase
          simp [hcancel] at hguarded
      | true => exact hlooks s (by rw [hphase]; rfl) hcancel
  | succeeded | failed | gone => simp [hphase, HostPhase.running] at hrunning
  | _ => exact hlooks s (by rw [hphase]; rfl) hcancel

theorem answers_of_fitsLate {plan : Plan} (hfits : plan.FitsLate) {s : State}
    (h : (system plan).Reachable s) (hrefused : Refused s) : Answers plan s := by
  refine ⟨not_parked hfits h hrefused, ?_⟩
  cases hcancel : s.hostCancel with
  | false =>
      obtain ⟨t, hrun, ht⟩ := observes_of_refused hfits h hrefused hcancel
      exact ⟨t, hrun, .inl ht⟩
  | true =>
      obtain ⟨t, hrun, ht⟩ := cancels_of_running h hrefused.running hcancel
      exact ⟨t, hrun, .inr ⟨rfl, ht⟩⟩

theorem leads_write_fails {plan : Plan} (first : Bytes) (late : List StreamFrame) {s : State}
    (hwire : s.toDevice = .fileChunk first :: late) (hphase : s.device = .receiving)
    (hfails : plan.failsAt = some s.written.length) (hundisturbed : Undisturbed s)
    (hconnected : s.connected = true) (hinbox : s.inbox = []) :
    (system plan).Leads s { s with
      toDevice := late
      device := .returning (.error .write)
      popped := s.popped ++ [.fileChunk first] } := by
  have hrouted := hundisturbed.routed (by rw [hphase]; rfl)
  have hhead : s.inbox ++ [.fileChunk first] = .fileChunk first :: [] := by
    rw [hinbox]
    rfl
  have hroom : s.inbox.length < routeCapacity := by
    rw [hinbox]
    decide
  refine System.Leads.to_eq (.head (Step.route hconnected hwire rfl hrouted hroom)
    (.head (Step.recv hphase hundisturbed.cancelWatch hhead)
      (.single (Step.writeFails rfl hfails)))) ?_
  apply State.ext <;> simp [hinbox]

theorem leads_report {plan : Plan} {s : State} {why : HandlerError}
    (hphase : s.device = .returning (.error why)) (hconnected : s.connected = true) :
    (system plan).Leads s { s with
      device := .ended (.error why)
      routed := false
      toHost := s.toHost ++ [.error]
      deviceCanceled := false } :=
  .head (Step.unregister hphase) (.head (Step.reportError rfl hconnected)
    (.single (Step.finish rfl)))

theorem leads_refused {plan : Plan} (first : Bytes) (late : List Bytes) {s : State}
    (hundisturbed : Undisturbed s) (hwire : s.toDevice = chunksOf (first :: late))
    (hphase : s.device = .receiving) (hfails : plan.failsAt = some s.written.length)
    (hlate : late.length ≤ lateCapacity) (hconnected : s.connected = true)
    (hinbox : s.inbox = []) (htoHost : s.toHost = []) (hqueue : s.hostQueue = []) :
    ∃ t, (system plan).Leads s t ∧ t.device = .ended (.error .write) ∧
      .error ∈ t.hostQueue ∧ t = { s with
        device := t.device, hostQueue := t.hostQueue, inbox := t.inbox
        routed := t.routed, popped := t.popped, unserved := t.unserved
        toDevice := [], toHost := [] } := by
  have hrouted := hundisturbed.routed (by rw [hphase]; rfl)
  have hlength : (chunksOf late).length = late.length := List.length_map _
  have hcapacity : lateCapacity = routeCapacity + (routeCapacity - 1) := rfl
  have hpos : 0 < routeCapacity := by decide
  have hsplit := List.take_append_drop routeCapacity (chunksOf late)
  have hfailed := leads_write_fails first (chunksOf late) hwire hphase hfails hundisturbed
    hconnected hinbox
  have hqueued := hfailed.trans (leads_route plan ((chunksOf late).take routeCapacity)
    ((chunksOf late).drop routeCapacity) hsplit.symm
    (fun f hf => isData_of_mem_chunksOf f (List.mem_of_mem_take hf))
    (by exact hconnected) (by exact hrouted) (by
      simp only [hinbox, List.length_nil, List.length_take]
      omega))
  have hreported := hqueued.trans (leads_report rfl (by exact hconnected))
  have hanswered := hreported.trans
    (leads_unsupported plan ((chunksOf late).drop routeCapacity) rfl
      (fun f hf => isData_of_mem_chunksOf f (List.mem_of_mem_drop hf))
      (by exact hconnected) rfl rfl)
  have hdelivered := hanswered.trans (leads_deliver plan
    (s.toHost ++ [.error] ++ List.replicate ((chunksOf late).drop routeCapacity).length .error)
    rfl
    (by
      intro frame hframe
      simp only [htoHost, List.nil_append, List.mem_append, List.mem_singleton,
        List.mem_replicate] at hframe
      rcases hframe with rfl | ⟨-, rfl⟩ <;> rfl)
    (by exact hconnected) (by exact hundisturbed.hostRoute) (by
      simp only [hqueue, htoHost, List.length_append, List.length_replicate,
        List.length_drop, List.length_nil, List.length_singleton, hlength]
      omega))
  refine ⟨_, hdelivered, rfl, by simp, ?_⟩
  apply State.ext <;> simp [hundisturbed.deviceCanceled]

/-- The host runs out of credit while the failure is on its way. -/
theorem exists_stuck (plan : Plan) {k : Nat} (hfails : plan.failsAt = some k)
    (hexceeds : fileFlowWindow < unreported fileWindow (plan.reads.sizes.take k) +
      ((plan.reads.sizes.drop k).take (lateCapacity + 2)).sum) :
    ∃ s, (system plan).Reachable s ∧ Refused s ∧ ∃ chunk, s.host = .parked chunk false := by
  have hpending := unreported_lt fileWindow (plan.reads.sizes.take k)
  have hthreshold : fileFlowUpdateThreshold ≤ fileFlowWindow := by decide
  rw [fileWindow_threshold] at hpending
  have hbudget : fileFlowWindow - unreported fileWindow (plan.reads.sizes.take k) <
      ((plan.reads.sizes.drop k).take (lateCapacity + 2)).sum := by omega
  obtain ⟨m, hm, hcovered, hnext⟩ := exists_first_exceeding hbudget
  simp only [List.length_take, List.length_drop, FileReads.length_sizes] at hm
  have htake : ((plan.reads.sizes.drop k).take (lateCapacity + 2)).take m =
      (plan.reads.sizes.drop k).take m := by
    rw [List.take_take, Nat.min_eq_left (by omega)]
  obtain ⟨s, hs⟩ := exists_synced plan (by omega : k ≤ plan.reads.chunks.length)
    (by simp [Plan.limit, hfails])
  have hcredit := hs.credit
  have hsize : ((plan.reads.sizes.drop k).take (lateCapacity + 2))[m] =
      plan.reads.chunks[k + m].length := by
    simp [List.getElem_take, List.getElem_drop, FileReads.sizes, lengthsOf]
  rw [hsize, htake] at hnext
  rw [htake] at hcovered
  have hsized := (plan.reads.sized _ (List.getElem_mem (by omega : k + m <
    plan.reads.chunks.length))).2
  have hfull := credit_of_quiescent hs.reachable hs.quiet
  obtain ⟨late, rfl⟩ : ∃ late, m = late + 1 := by
    refine Nat.exists_eq_add_one_of_ne_zero ?_
    rintro rfl
    simp only [List.take_zero, List.sum_nil] at hnext
    omega
  obtain ⟨t, hup, ht⟩ := hs.leads_upload (late + 1) (by omega)
  have hhost : t.host = .reading := (congrArg State.host ht).trans hs.reading
  have hunread : t.unread = plan.reads.chunks[k + (late + 1)] ::
      plan.reads.chunks.drop (k + (late + 1) + 1) :=
    (congrArg State.unread ht).trans (List.drop_eq_getElem_cons (by omega))
  have hconnected : t.connected = true :=
    (congrArg State.connected ht).trans hs.quiet.calm.connected
  have hcancel : t.hostCancel = false :=
    (congrArg State.hostCancel ht).trans hs.quiet.calm.hostCancel
  have hlack : t.credit.tryTake plan.reads.chunks[k + (late + 1)].length = none := by
    rw [FlowCredit.tryTake_eq_none_iff, congrArg State.credit ht]
    simp only
    omega
  have hread : Step plan t .host _ := .readChunk hhost hunread
  have hreach := (hs.reachable.leads hup).leads
    (.head hread (.single (Step.park rfl hcancel hconnected hlack)))
  have hwire : t.toDevice = chunksOf (plan.reads.chunks[k] ::
      (plan.reads.chunks.drop (k + 1)).take late) := by
    rw [congrArg State.toDevice ht, List.drop_eq_getElem_cons (by omega : k <
      plan.reads.chunks.length), List.take_succ_cons]
  have hundisturbed := undisturbed_of_reachable hreach ⟨rfl, hconnected, hcancel,
    (congrArg State.overflowed ht).trans hs.quiet.calm.overflowed⟩
  have hwritten : t.written.length = k := by
    rw [congrArg State.written ht]
    exact hs.length_written (by omega)
  obtain ⟨u, hrun, hended, hqueued, hu⟩ := leads_refused _ _ hundisturbed hwire
    ((congrArg State.device ht).trans hs.quiet.receiving) (by rw [hwritten]; exact hfails)
    (by rw [List.length_take, List.length_drop]; omega) hconnected
    ((congrArg State.inbox ht).trans hs.quiet.inbox)
    ((congrArg State.toHost ht).trans hs.quiet.toHost)
    ((congrArg State.hostQueue ht).trans hs.hostQueue)
  have hparked := congrArg State.host hu
  refine ⟨u, hreach.leads hrun, ⟨?_, (congrArg State.connected hu).trans hconnected,
    ⟨_, hended⟩, hqueued, congrArg State.toDevice hu, congrArg State.toHost hu,
    (congrArg State.hostCanceling hu).trans hundisturbed.hostCanceling,
    (congrArg State.canceling hu).trans hundisturbed.canceling⟩, _, hparked⟩
  rw [hparked]
  rfl

/-- The host always answers a failed push if and only if what can come after the
failing chunk fits into the window. -/
theorem always_answers_iff (plan : Plan) :
    (∀ s, (system plan).Reachable s → Refused s → Answers plan s) ↔ plan.FitsLate := by
  constructor
  · intro hanswers k hfails
    by_contra hexceeds
    obtain ⟨s, hreach, hrefused, chunk, hparked⟩ := exists_stuck plan hfails (by omega)
    exact (hanswers s hreach hrefused).awake chunk hparked
  · intro hfits s h hrefused
    exact answers_of_fitsLate hfits h hrefused

end SideWire.PushTransfer
