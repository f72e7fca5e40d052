import SideWire.PullInvariants

namespace SideWire.PullTransfer

open SideWire.TransitionSystem
open SideWire.CreditWindow
open SideWire.ByteString
open SideWire.FlowControl

/-- Updates under way grant something, a running handler is registered, and a
parked one lacks credit. -/
structure Guarded (s : State) : Prop where
  positive : ∀ bytes, .windowUpdate bytes ∈ s.toDevice → 0 < bytes
  registered : s.device.result = none → s.registered = true
  parked : ∀ chunk, s.device = .parked chunk false → s.credit.available < chunk.length

theorem DevicePhase.wake_ne_parked (phase : DevicePhase) (chunk : Bytes) :
    phase.wake ≠ .parked chunk false := by
  cases phase <;> simp [DevicePhase.wake]

theorem Guarded.step {plan : Plan} {s t : State} {a : Actor} (hs : Guarded s)
    (h : Step plan s a t) : Guarded t := by
  obtain ⟨hpositive, hregistered, hparked⟩ := hs
  cases h with
  | openFails | readCanceled | readFails | sendEnd | sendEndCanceled | sendCanceled
  | sendStopped | unregister | reportOk | reportError | reportNothing | finish =>
      exact ⟨hpositive, by simp [DevicePhase.result], by simp⟩
  | sendMeta hphase | sentOk hphase | readChunk hphase | readEof hphase
  | takeCredit hphase | resume hphase | sendChunk hphase =>
      exact ⟨hpositive, fun _ => hregistered (by rw [hphase]; rfl), by simp⟩
  | @park chunk hphase _ _ htake =>
      refine ⟨hpositive, fun _ => hregistered (by rw [hphase]; rfl), ?_⟩
      intro chunk' heq
      obtain rfl : chunk = chunk' := by simpa using heq
      exact FlowCredit.tryTake_eq_none_iff.mp htake
  | deliverUpdate _ hwire | rejectUpdate _ hwire | serveCancel _ hwire =>
      refine ⟨fun bytes hmem => hpositive bytes (by simp [hwire, hmem]),
        by simpa using hregistered, ?_⟩
      exact fun chunk heq => absurd heq (DevicePhase.wake_ne_parked _ _)
  | dropUpdate _ hwire =>
      exact ⟨fun bytes hmem => hpositive bytes (by simp [hwire, hmem]), hregistered, hparked⟩
  | serveEnds | close =>
      refine ⟨hpositive, by simpa using hregistered, ?_⟩
      exact fun chunk heq => absurd heq (DevicePhase.wake_ne_parked _ _)
  | sendHostCancel =>
      exact ⟨fun bytes hmem => hpositive bytes (by simpa using hmem), hregistered, hparked⟩
  | grant _ _ hupdate | accountReport _ _ _ hupdate =>
      refine ⟨?_, hregistered, hparked⟩
      intro bytes hmem
      rcases List.mem_append.mp hmem with hold | hnew
      · exact hpositive bytes hold
      · obtain ⟨heq, hpos⟩ := eq_of_mem_windowUpdate hupdate hnew
        obtain rfl := StreamFrame.windowUpdate.inj heq
        exact hpos
  | _ => exact ⟨hpositive, hregistered, hparked⟩

theorem guarded_of_reachable {plan : Plan} {s : State}
    (h : (system plan).Reachable s) : Guarded s := by
  refine h.invariant (P := Guarded) ?_ (fun _ _ _ hs hstep => hs.step hstep)
  rintro s rfl
  refine ⟨?_, ?_, ?_⟩ <;> simp [State.initial]

theorem credit_conserved {plan : Plan} {s : State} (h : (system plan).Reachable s) :
    s.taken ≤ s.granted ∧ s.credit.available = s.granted - s.taken := by
  have hledger := (spent_of_reachable h).ledger
  omega

theorem credit_le {plan : Plan} {s : State} (h : (system plan).Reachable s) :
    s.credit.available + grantsOf s.toDevice ≤ fileFlowWindow := by
  have hbalanced := Ledger.balanced_of_reachable fileWindow (ledger_of_reachable h)
  have htotal := hbalanced.total_le_size
  simp only [Ledger.total, State.ledger, fileWindow_size] at htotal
  omega

theorem update_accepted {plan : Plan} {s : State} (h : (system plan).Reachable s)
    {bytes : Nat} {rest : List StreamFrame}
    (hwire : s.toDevice = .windowUpdate bytes :: rest) :
    ∃ credit, s.credit.add bytes = .ok credit := by
  have hpos := (guarded_of_reachable h).positive bytes (by simp [hwire])
  have hle := credit_le h
  have hbound : fileFlowWindow ≤ maxFlowCredit := by decide
  rw [hwire, grantsOf_cons, StreamFrame.grantBytes] at hle
  exact ⟨⟨s.credit.available + bytes⟩, FlowCredit.add_eq_ok_iff.mpr ⟨hpos, by omega, rfl⟩⟩

/-- Neither side has failed, no chunk and no update is under way, and the host
has consumed everything. -/
structure Quiescent (s : State) : Prop where
  route : Open s
  running : s.device.result = none
  held : s.device.held = 0
  toHost : s.toHost = []
  toDevice : s.toDevice = []
  hostQueue : s.hostQueue = []
  receiving : s.host = .receiving

theorem Quiescent.popped {plan : Plan} {s : State} (h : (system plan).Reachable s)
    (hquiet : Quiescent s) : s.popped = s.emitted := by
  have hsent := sent_of_reachable h
  have hsplit := hsent.split
  rw [hquiet.hostQueue, hsent.kept hquiet.route.hostRoute, hquiet.toHost] at hsplit
  simpa using hsplit

theorem Quiescent.taken {plan : Plan} {s : State} (h : (system plan).Reachable s)
    (hquiet : Quiescent s) : s.taken = s.accounted.sum := by
  have hexact := (spent_of_reachable h).exact (by
    intro why hwhy
    simp [hquiet.running] at hwhy)
  have hagrees := (handled_of_reachable h).agrees
  rw [hquiet.receiving] at hagrees
  rw [hquiet.held, ← hquiet.popped h, hagrees.1, bytesOf_cons, bytesOf_chunksOf,
    ← hagrees.2] at hexact
  simpa [StreamFrame.chunkBytes] using hexact.symm

/-- As long as the handler runs, no window update is lost. -/
theorem total_eq {plan : Plan} {s : State} (h : (system plan).Reachable s)
    (hconnected : s.connected = true) (hrunning : s.device.result = none)
    (hopened : s.opened = true) :
    s.credit.available + grantsOf s.toDevice + (s.taken - s.accounted.sum) +
      unreported fileWindow s.accounted = fileFlowWindow := by
  have hregistered := (guarded_of_reachable h).registered hrunning
  have hbalanced := Ledger.balanced_of_reachable fileWindow (ledger_of_reachable h)
  have htotal := hbalanced.total_eq (by simp [State.ledger, hregistered, hconnected])
  rw [← (handled_of_reachable h).consumed]
  simpa [Ledger.total, State.ledger, hopened] using htotal

theorem Quiescent.credit {plan : Plan} {s : State} (h : (system plan).Reachable s)
    (hquiet : Quiescent s) :
    s.credit.available + unreported fileWindow s.accounted = fileFlowWindow := by
  have hopened := (handled_of_reachable h).opened true (by rw [hquiet.receiving]; rfl)
  have htotal := total_eq h hquiet.route.connected hquiet.running hopened
  rw [hquiet.toDevice, hquiet.taken h] at htotal
  simpa using htotal

theorem credit_of_quiescent {plan : Plan} {s : State}
    (h : (system plan).Reachable s) (hquiet : Quiescent s) :
    fileBufferSize ≤ s.credit.available := by
  have hcredit := hquiet.credit h
  have hpending := unreported_lt fileWindow s.accounted
  have hthreshold : fileBufferSize + fileFlowUpdateThreshold ≤ fileFlowWindow := by decide
  rw [fileWindow_threshold] at hpending
  omega

theorem mem_chunks_of_parked {plan : Plan} {s : State} (h : (system plan).Reachable s)
    {chunk : Bytes} {woken : Bool} (hparked : s.device = .parked chunk woken) :
    chunk ∈ plan.reads.chunks := by
  have hemits := (sent_of_reachable h).emits
  rw [hparked] at hemits
  have hframes : s.emitted ++ (chunksOf (chunk :: s.unread) ++ [plan.last]) =
      plan.frames s.declared := hemits
  have hmem : StreamFrame.fileChunk chunk ∈ plan.frames s.declared := by
    rw [← hframes]
    simp [chunksOf]
  simp only [Plan.frames, FileReads.framesWith, List.mem_cons, List.mem_append,
    reduceCtorEq, false_or, List.not_mem_nil, or_false] at hmem
  rcases hmem with hchunk | hlast
  · simpa [chunksOf] using hchunk
  · exact absurd hlast.symm (plan.last_ne_fileChunk chunk)

/-- In a quiescent state the handler gets the credit for any chunk it has read,
and does not wait for any. -/
theorem not_blocked_of_quiescent {plan : Plan} {s : State}
    (h : (system plan).Reachable s) (hquiet : Quiescent s) :
    (∀ chunk ∈ plan.reads.chunks, ∃ credit, s.credit.tryTake chunk.length = some credit) ∧
      ∀ chunk, s.device ≠ .parked chunk false := by
  have hcredit := credit_of_quiescent h hquiet
  refine ⟨?_, ?_⟩
  · intro chunk hchunk
    have hsized := (plan.reads.sized chunk hchunk).2
    exact ⟨⟨s.credit.available - chunk.length⟩,
      FlowCredit.tryTake_eq_some_iff.mpr ⟨by omega, rfl⟩⟩
  · intro chunk hparked
    have hlack := (guarded_of_reachable h).parked chunk hparked
    have hsized := (plan.reads.sized chunk (mem_chunks_of_parked h hparked)).2
    omega

/-- What flow control promises to a sender and to whoever delivers its updates. -/
structure CreditSound (plan : Plan) (s : State) : Prop where
  taken_le : s.taken ≤ s.granted
  available_eq : s.credit.available = s.granted - s.taken
  available_le : s.credit.available ≤ fileFlowWindow
  accepted : ∀ bytes rest, s.toDevice = .windowUpdate bytes :: rest →
    ∃ credit, s.credit.add bytes = .ok credit
  refilled : Quiescent s → fileBufferSize ≤ s.credit.available
  covered : Quiescent s → ∀ chunk ∈ plan.reads.chunks,
    ∃ credit, s.credit.tryTake chunk.length = some credit
  unblocked : Quiescent s → ∀ chunk, s.device ≠ .parked chunk false

theorem creditSound_of_reachable {plan : Plan} {s : State}
    (h : (system plan).Reachable s) : CreditSound plan s := by
  obtain ⟨htaken, havailable⟩ := credit_conserved h
  have hle := credit_le h
  refine ⟨htaken, havailable, by omega, ?_, ?_, ?_, ?_⟩
  · intro bytes rest hwire
    exact update_accepted h hwire
  · intro hquiet
    exact credit_of_quiescent h hquiet
  · intro hquiet
    exact (not_blocked_of_quiescent h hquiet).1
  · intro hquiet
    exact (not_blocked_of_quiescent h hquiet).2

end SideWire.PullTransfer
