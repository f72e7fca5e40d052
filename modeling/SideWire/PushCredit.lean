import SideWire.PushCalm

namespace SideWire.PushTransfer

open SideWire.TransitionSystem
open SideWire.CreditWindow
open SideWire.ByteString
open SideWire.FlowControl

/-- Neither side has failed, no chunk and no update is under way, and the
handler has consumed everything. -/
structure Quiescent (s : State) : Prop where
  calm : Calm s
  held : s.host.held = 0
  toDevice : s.toDevice = []
  toHost : s.toHost = []
  inbox : s.inbox = []
  receiving : s.device = .receiving

theorem mem_chunks_of_toSend {plan : Plan} {s : State} (ho : Ordered plan s)
    {chunk : Bytes} {rest : List StreamFrame}
    (h : s.host.toSend s.unread = some (.fileChunk chunk :: rest)) :
    chunk ∈ plan.reads.chunks := by
  have hunsent := ho.unsent _ h
  have hmem : StreamFrame.fileChunk chunk ∈ plan.reads.frames := by
    rw [← ho.frames, hunsent]
    simp
  rcases plan.reads.mem_frames hmem with ⟨chunk', hchunk, heq⟩ | heq
  · obtain rfl := StreamFrame.fileChunk.inj heq
    exact hchunk
  · cases heq

/-- While nobody cancels, no window update is lost. -/
theorem total_eq {plan : Plan} {s : State} (h : (system plan).Reachable s)
    (hcalm : Calm s) (hopened : s.opened = true) :
    s.credit.available + grantsOf s.toHost + (s.taken - s.accounted.sum) +
      unreported fileWindow s.accounted = fileFlowWindow := by
  have hundisturbed := undisturbed_of_reachable h hcalm
  have hbalanced := Ledger.balanced_of_reachable fileWindow (ledger_of_reachable h)
  have htotal := hbalanced.total_eq (by
    simp [State.ledger, hundisturbed.hostRoute, hcalm.connected])
  rw [← (handled_of_reachable h).consumed]
  simpa [Ledger.total, State.ledger, hopened] using htotal

theorem credit_conserved {plan : Plan} {s : State} (h : (system plan).Reachable s) :
    s.taken ≤ s.granted ∧ s.credit.available = s.granted - s.taken := by
  have hledger := (spent_of_reachable h).ledger
  omega

theorem credit_le {plan : Plan} {s : State} (h : (system plan).Reachable s) :
    s.credit.available + grantsOf s.toHost ≤ fileFlowWindow := by
  have hbalanced := Ledger.balanced_of_reachable fileWindow (ledger_of_reachable h)
  have htotal := hbalanced.total_le_size
  simp only [Ledger.total, State.ledger, fileWindow_size] at htotal
  omega

theorem update_accepted {plan : Plan} {s : State} (h : (system plan).Reachable s)
    {bytes : Nat} {rest : List StreamFrame}
    (hwire : s.toHost = .windowUpdate bytes :: rest) :
    ∃ credit, s.credit.add bytes = .ok credit := by
  have hpos : 0 < bytes := by
    simpa [isReply] using (posted_of_reachable h).reply (.windowUpdate bytes) (by
      simp [State.mail, hwire])
  have hle := credit_le h
  have hbound : fileFlowWindow ≤ maxFlowCredit := by decide
  rw [hwire, grantsOf_cons, StreamFrame.grantBytes] at hle
  exact ⟨⟨s.credit.available + bytes⟩, FlowCredit.add_eq_ok_iff.mpr ⟨hpos, by omega, rfl⟩⟩

theorem credit_of_quiescent {plan : Plan} {s : State}
    (h : (system plan).Reachable s) (hquiet : Quiescent s) :
    fileBufferSize ≤ s.credit.available := by
  have ho := ordered_of_reachable h
  have hs := spent_of_reachable h
  have hh := handled_of_reachable h
  have hrouted := (undisturbed_of_reachable h hquiet.calm).routed (by
    rw [hquiet.receiving]; rfl)
  have hagrees := hh.agrees
  rw [hquiet.receiving] at hagrees
  have hframes := congrArg bytesOf ho.frames
  have hexact := hs.exact hquiet.calm.live
  have htotal := total_eq h hquiet.calm (hh.opened true (by rw [hquiet.receiving]; rfl))
  have hpending := unreported_lt fileWindow s.accounted
  have hthreshold : fileBufferSize + fileFlowUpdateThreshold ≤ fileFlowWindow := by decide
  simp only [bytesOf_append, hquiet.inbox, hquiet.toDevice, ho.served hrouted, hagrees.1,
    bytesOf_chunksOf, ← hagrees.2, List.filter_nil, bytesOf_nil, hquiet.held,
    hquiet.toHost, grantsOf_nil, fileWindow_threshold] at hframes hexact htotal hpending
  omega

/-- In a quiescent state the sender gets the credit for any chunk it has read, and
does not wait for any. -/
theorem not_blocked_of_quiescent {plan : Plan} {s : State}
    (h : (system plan).Reachable s) (hquiet : Quiescent s) :
    (∀ chunk ∈ plan.reads.chunks, ∃ credit, s.credit.tryTake chunk.length = some credit) ∧
      ∀ chunk, s.host ≠ .parked chunk false := by
  have hcredit := credit_of_quiescent h hquiet
  refine ⟨?_, ?_⟩
  · intro chunk hchunk
    have hsized := (plan.reads.sized chunk hchunk).2
    exact ⟨⟨s.credit.available - chunk.length⟩,
      FlowCredit.tryTake_eq_some_iff.mpr ⟨by omega, rfl⟩⟩
  · intro chunk hparked
    have hlack := ((guarded_of_reachable h).parked chunk hparked).2
    have hmem := mem_chunks_of_toSend (ordered_of_reachable h)
      (show s.host.toSend s.unread = some (.fileChunk chunk :: framesOf s.unread) by
        rw [hparked]; rfl)
    have hsized := (plan.reads.sized chunk hmem).2
    omega

/-- What flow control promises to a sender and to whoever delivers its updates. -/
structure CreditSound (plan : Plan) (s : State) : Prop where
  taken_le : s.taken ≤ s.granted
  available_eq : s.credit.available = s.granted - s.taken
  available_le : s.credit.available ≤ fileFlowWindow
  accepted : ∀ bytes rest, s.toHost = .windowUpdate bytes :: rest →
    ∃ credit, s.credit.add bytes = .ok credit
  refilled : Quiescent s → fileBufferSize ≤ s.credit.available
  covered : Quiescent s → ∀ chunk ∈ plan.reads.chunks,
    ∃ credit, s.credit.tryTake chunk.length = some credit
  unblocked : Quiescent s → ∀ chunk, s.host ≠ .parked chunk false

theorem creditSound_of_reachable {plan : Plan} {s : State}
    (h : (system plan).Reachable s) : CreditSound plan s := by
  obtain ⟨htaken, havailable⟩ := credit_conserved h
  have hle := credit_le h
  refine ⟨htaken, havailable, by omega, ?_, ?_, ?_, ?_⟩
  · intro bytes rest hwire
    exact update_accepted h hwire
  · intro hquiet
    exact credit_of_quiescent h hquiet
  · intro hquiet
    exact (not_blocked_of_quiescent h hquiet).1
  · intro hquiet
    exact (not_blocked_of_quiescent h hquiet).2

end SideWire.PushTransfer
