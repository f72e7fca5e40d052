import SideWire.PullCredit

namespace SideWire.PullTransfer

open SideWire.TransitionSystem
open SideWire.CreditWindow
open SideWire.ByteString
open SideWire.FlowControl

/-- What the handler has taken fits into the window, once it is granted, and the
batches the host has accounted for. -/
theorem taken_le {plan : Plan} {s : State} (h : (system plan).Reachable s) :
    s.taken + unreported fileWindow s.accounted ≤
      (if s.opened then fileFlowWindow else 0) + s.accounted.sum := by
  have hh := handled_of_reachable h
  have hbalanced := Ledger.balanced_of_reachable fileWindow (ledger_of_reachable h)
  have htotal := hbalanced.total_le
  simp only [Ledger.total, State.ledger, fileWindow_size, hh.consumed] at htotal
  split_ifs at htotal ⊢ <;> omega

theorem emitted_of_open {plan : Plan} {s : State} (h : (system plan).Reachable s)
    (hopen : Open s) : s.emitted <+: plan.frames s.declared ∨ s.emitted = [.error] := by
  have hcause := (untroubled_of_reachable h hopen).cause
  have hemits := (sent_of_reachable h).emits
  cases hdevice : s.device with
  | opening =>
      rw [hdevice] at hemits
      exact .inl (hemits.1 ▸ List.nil_prefix)
  | sent | reading | acquiring chunk | parked chunk woken | sending chunk | ending =>
      rw [hdevice] at hemits
      exact .inl ⟨_, hemits⟩
  | returning result | reporting result =>
      rw [hdevice] at hemits hcause
      rcases result with why | ⟨⟨⟩⟩
      · rcases hcause why rfl with rfl | rfl
        · have hnone : s.emitted = [] := hemits
          exact .inl (hnone ▸ List.nil_prefix)
        · exact .inl ⟨_, hemits⟩
      · have hall : s.emitted = plan.frames s.declared := hemits
        exact .inl (hall ▸ List.prefix_rfl)
  | finishing result | ended result =>
      rw [hdevice] at hemits hcause
      rcases result with why | ⟨⟨⟩⟩
      · rcases hcause why rfl with rfl | rfl
        · have hsome : s.emitted = [] ∨ s.emitted = [.error] := hemits
          refine hsome.imp_left ?_
          rintro hnone
          rw [hnone]
          exact List.nil_prefix
        · exact .inl hemits
      · have hall : s.emitted = plan.frames s.declared := hemits
        exact .inl (hall ▸ List.prefix_rfl)

theorem bytesOf_take_frames (plan : Plan) (size j : Nat) :
    bytesOf ((plan.frames size).take (j + 1)) = (plan.reads.sizes.take j).sum := by
  rw [Plan.frames, List.take_succ_cons, bytesOf_cons,
    plan.reads.bytesOf_take_framesWith plan.chunkBytes_last]
  exact Nat.zero_add _

/-- The last position at which the host still takes chunks. -/
def Plan.limit (plan : Plan) : Nat := plan.failsAt.getD plan.reads.chunks.length

theorem written_isPrefix {plan : Plan} {s : State} {size : Nat} (hh : Handled plan s)
    (hpopped : s.popped <+: plan.frames size) : s.written <+: plan.reads.chunks := by
  apply plan.reads.chunksOf_prefix_framesWith plan.last_ne_fileChunk
  apply hh.agrees.prefixes.1.trans
  cases hhead : s.popped with
  | nil => exact List.nil_prefix
  | cons frame rest =>
      rw [hhead] at hpopped
      exact (List.cons_prefix_cons.mp hpopped).2

/-- The queue of the host has room for every frame, if the reads leave no room
for a burst. -/
theorem not_full {plan : Plan}
    (hburst : NoBurst fileWindow routeCapacity plan.limit plan.reads.sizes)
    {s : State} (h : (system plan).Reachable s) (hopen : Open s) {frame : StreamFrame}
    {rest : List StreamFrame} (hwire : s.toHost = frame :: rest) :
    s.hostQueue.length < routeCapacity := by
  by_contra hfull
  have hm := sent_of_reachable h
  have hh := handled_of_reachable h
  have hsplit := hm.split
  have hcapacity : routeCapacity = 16 := rfl
  rw [hwire, hm.kept hopen.hostRoute, List.append_nil] at hsplit
  have hlength := congrArg List.length hsplit
  simp only [List.length_append, List.length_cons] at hlength
  have hemitted : s.emitted <+: plan.frames s.declared := by
    rcases emitted_of_open h hopen with hprefix | hsingle
    · exact hprefix
    · rw [hsingle, List.length_singleton] at hlength
      omega
  have hframes := hemitted.length_le
  simp only [Plan.frames, List.length_cons, FileReads.length_framesWith] at hframes
  have hpopped : s.popped <+: plan.frames s.declared := by
    apply List.IsPrefix.trans _ hemitted
    rw [← hsplit, List.append_assoc]
    exact List.prefix_append _ _
  have hseen : (plan.reads.sizes.take (s.popped.length + routeCapacity)).sum ≤ s.taken := by
    rw [← bytesOf_take_frames plan s.declared]
    have hcovers := (spent_of_reachable h).covers
    have htake :
        (plan.frames s.declared).take (s.popped.length + routeCapacity + 1) <+: s.emitted :=
      List.prefix_of_prefix_length_le (List.take_prefix _ _) hemitted (by
        rw [List.length_take]
        omega)
    have hbytes := bytesOf_le_of_prefix htake
    omega
  have htaken := taken_le h
  by_cases hnone : s.popped = []
  · have hclosed : s.opened = false := by
      by_contra hopened
      exact hh.popped (by simpa using hopened) hnone
    have hle := hh.accounted_le
    have hsome := plan.reads.sum_take_pos
      (show 0 < s.popped.length + routeCapacity by omega) (by omega)
    rw [hnone, bytesOf_nil] at hle
    simp only [hclosed, Bool.false_eq_true, if_false] at htaken
    omega
  · have hpos := List.length_pos_iff.mpr hnone
    have hchunks := written_isPrefix hh hpopped
    have haccounted := hh.agrees.prefixes.2.length_le
    have hwritten := hh.agrees.prefixes.1.length_le
    simp only [chunksOf, lengthsOf, List.length_map, List.length_tail] at haccounted hwritten
    have hlimit : s.accounted.length ≤ plan.limit := by
      unfold Plan.limit
      rcases hfails : plan.failsAt with _ | k
      · have hle := hchunks.length_le
        simp only [Option.getD_none]
        omega
      · have hle := hh.within k hfails
        simp only [Option.getD_some]
        omega
    have haccount : s.accounted = plan.reads.sizes.take s.accounted.length :=
      List.prefix_iff_eq_take.mp (hh.agrees.prefixes.2.trans (hchunks.map List.length))
    have hwindow := hburst.window_lt s.accounted.length (s.popped.length - 1) hlimit
      (by omega) (by rw [FileReads.length_sizes]; omega)
    rw [← haccount, fileWindow_size, show s.popped.length - 1 + (routeCapacity + 1) =
      s.popped.length + routeCapacity by omega] at hwindow
    split_ifs at htaken <;> omega

theorem not_overflowed {plan : Plan}
    (hburst : NoBurst fileWindow routeCapacity plan.limit plan.reads.sizes)
    {s : State} (h : (system plan).Reachable s) : s.overflowed = false := by
  refine h.invariant_of (P := (system plan).Reachable)
    (Q := fun u => u.overflowed = false) (fun _ hu => hu) ?_ ?_
  · rintro u rfl
    rfl
  · intro u a v hu hover huv
    cases huv with
    | deliverFull hconnected hwire hroute hfull =>
        have hroom := not_full hburst hu ⟨hroute, hconnected⟩ hwire
        omega
    | _ => exact hover

/-- A state between two chunks in which the first `i` chunks are consumed and
nothing is under way. -/
structure Synced (plan : Plan) (i : Nat) (s : State) : Prop where
  reachable : (system plan).Reachable s
  quiet : Quiescent s
  reading : s.device = .reading
  unread : s.unread = plan.reads.chunks.drop i

theorem Synced.frames {plan : Plan} {i : Nat} {s : State} (hs : Synced plan i s) :
    .fileMeta s.expected :: (chunksOf s.written ++ chunksOf (plan.reads.chunks.drop i) ++
      [plan.last]) = plan.frames s.declared := by
  have hemits := (sent_of_reachable hs.reachable).emits
  have hagrees := (handled_of_reachable hs.reachable).agrees
  rw [hs.reading, hs.unread, ← hs.quiet.popped hs.reachable] at hemits
  rw [hs.quiet.receiving] at hagrees
  have hframes : s.popped ++ (chunksOf (plan.reads.chunks.drop i) ++ [plan.last]) =
      plan.frames s.declared := hemits
  rwa [hagrees.1, List.cons_append, ← List.append_assoc] at hframes

theorem Synced.expected {plan : Plan} {i : Nat} {s : State} (hs : Synced plan i s) :
    s.expected = s.declared := by
  have hhead := (List.cons.inj hs.frames).1
  simpa using hhead

theorem Synced.written {plan : Plan} {i : Nat} {s : State} (hs : Synced plan i s) :
    s.written = plan.reads.chunks.take i := by
  have hmap := List.append_cancel_right (List.cons.inj hs.frames).2
  rw [chunksOf, chunksOf, chunksOf, ← List.map_append] at hmap
  have hchunks : s.written ++ plan.reads.chunks.drop i = plan.reads.chunks :=
    List.map_injective_iff.mpr (fun _ _ heq => by simpa using heq) hmap
  have hsplit := List.take_append_drop i plan.reads.chunks
  exact List.append_cancel_right (hchunks.trans hsplit.symm)

theorem Synced.length_written {plan : Plan} {i : Nat} {s : State} (hs : Synced plan i s)
    (hi : i ≤ plan.reads.chunks.length) : s.written.length = i := by
  rw [hs.written, List.length_take_of_le hi]

theorem Synced.credit {plan : Plan} {i : Nat} {s : State} (hs : Synced plan i s) :
    s.credit.available + unreported fileWindow (plan.reads.sizes.take i) =
      fileFlowWindow := by
  have hcredit := hs.quiet.credit hs.reachable
  have hagrees := (handled_of_reachable hs.reachable).agrees
  rw [hs.quiet.receiving] at hagrees
  rw [hagrees.2, hs.written, lengthsOf, List.map_take] at hcredit
  exact hcredit

theorem Synced.start (plan : Plan) (size : Nat) :
    ∃ s, Synced plan 0 s ∧ s.declared = size := by
  have hgrant : windowUpdate fileFlowWindow = .ok [.windowUpdate fileFlowWindow] := by
    decide
  have hadd : FlowCredit.new.add fileFlowWindow = .ok ⟨fileFlowWindow⟩ :=
    FlowCredit.add_eq_ok_iff.mpr ⟨by decide, by decide, rfl⟩
  have hroom : 0 < routeCapacity := by decide
  refine ⟨_, ⟨⟨State.initial plan, rfl, .head (@Step.sendMeta plan _ size rfl rfl)
    (.head (Step.sentOk rfl rfl)
      (.head (Step.deliver rfl rfl rfl hroom)
        (.head (Step.recvMeta rfl rfl rfl)
          (.head (Step.createFile rfl)
            (.head (Step.grant rfl rfl hgrant)
              (.head (Step.updateSent rfl rfl rfl)
                (.single (Step.deliverUpdate rfl rfl rfl hadd))))))))⟩,
    ⟨⟨rfl, rfl⟩, rfl, rfl, rfl, rfl, rfl, rfl⟩, rfl, rfl⟩, rfl⟩

theorem leads_upload (plan : Plan) (chunks rest : List Bytes) {s : State}
    (hphase : s.device = .reading) (hunread : s.unread = chunks ++ rest)
    (hcanceled : s.deviceCanceled = false) (hwatch : s.cancelWatch = false)
    (hconnected : s.connected = true)
    (hcredit : (lengthsOf chunks).sum ≤ s.credit.available) :
    (system plan).Leads s { s with
      unread := rest
      credit := ⟨s.credit.available - (lengthsOf chunks).sum⟩
      toHost := s.toHost ++ chunksOf chunks
      emitted := s.emitted ++ chunksOf chunks
      taken := s.taken + (lengthsOf chunks).sum } := by
  induction chunks generalizing s with
  | nil =>
      apply System.Leads.of_eq
      apply State.ext <;> simp [hunread, lengthsOf, chunksOf]
  | cons chunk chunks ih =>
      simp only [lengthsOf, List.map_cons, List.sum_cons] at hcredit
      have htake : s.credit.tryTake chunk.length =
          some ⟨s.credit.available - chunk.length⟩ :=
        FlowCredit.tryTake_eq_some_iff.mpr ⟨by omega, rfl⟩
      have hnext : s.unread = chunk :: (chunks ++ rest) := hunread
      refine .head (Step.readChunk hphase hwatch hnext)
        (.head (Step.takeCredit rfl hcanceled hconnected htake)
          (.head (Step.sendChunk rfl hconnected)
            (.head (Step.sentOk rfl hcanceled) ?_)))
      refine System.Leads.to_eq (ih ?_ ?_ hcanceled hwatch hconnected ?_) ?_
      · rfl
      · rfl
      · simp only [lengthsOf]
        omega
      · apply State.ext <;> simp [hphase, lengthsOf, chunksOf] <;> omega

theorem leads_deliver (plan : Plan) (frames rest : List StreamFrame) {s : State}
    (hwire : s.toHost = frames ++ rest) (hopen : Open s)
    (hroom : s.hostQueue.length + frames.length ≤ routeCapacity) :
    (system plan).Leads s { s with toHost := rest, hostQueue := s.hostQueue ++ frames } := by
  induction frames generalizing s with
  | nil =>
      apply System.Leads.of_eq
      apply State.ext <;> simp [hwire]
  | cons frame frames ih =>
      have hnext : s.toHost = frame :: (frames ++ rest) := hwire
      rw [List.length_cons] at hroom
      refine .head (Step.deliver hopen.connected hnext hopen.hostRoute (by omega)) ?_
      refine System.Leads.to_eq (ih ?_ ?_ ?_) ?_
      · rfl
      · exact ⟨hopen.hostRoute, hopen.connected⟩
      · simp only [List.length_append, List.length_singleton]
        omega
      · apply State.ext <;> simp

theorem leads_overflow (plan : Plan) (frames : List StreamFrame) {s : State}
    (hwire : s.toHost = frames) (hopen : Open s) (hqueue : s.hostQueue = [])
    (hmany : routeCapacity < frames.length) :
    ∃ t, (system plan).Leads s t ∧ t.overflowed = true := by
  have hsplit := List.take_append_drop routeCapacity frames
  have hdeliver := leads_deliver plan (frames.take routeCapacity)
    (frames.drop routeCapacity) (hwire.trans hsplit.symm) hopen (by
      simp only [hqueue, List.length_nil, List.length_take]
      omega)
  have hdrop := List.drop_eq_getElem_cons hmany
  refine ⟨_, hdeliver.tail (Step.deliverFull hopen.connected hdrop hopen.hostRoute ?_), rfl⟩
  simp only [List.length_append, List.length_take]
  omega

theorem leads_account {plan : Plan} {s : State} (h : (system plan).Reachable s)
    (hopen : Open s) (hreading : s.device = .reading) (htoHost : s.toHost = [])
    (htoDevice : s.toDevice = []) (hqueue : s.hostQueue = []) {bytes : Nat}
    (hphase : s.host = .accounting bytes) (hbytes : bytes ≤ fileBufferSize) :
    ∃ t, (system plan).Leads s t ∧ Quiescent t ∧ t.device = .reading ∧
      t.unread = s.unread ∧ t.declared = s.declared := by
  have hh := handled_of_reachable h
  have huntroubled := untroubled_of_reachable h hopen
  obtain ⟨hroute, hconnected⟩ := hopen
  have hpending := unreported_lt fileWindow s.accounted
  rw [fileWindow_threshold, ← hh.consumed] at hpending
  have hbound : fileFlowUpdateThreshold + fileBufferSize ≤ 2 ^ 32 := by decide
  rcases haccount : accountPullWindow s.windowConsumed bytes with ⟨consumed, _ | batch⟩
  · exact ⟨_, .single (Step.accountOnly hphase haccount),
      ⟨⟨hroute, hconnected⟩, by rw [hreading]; rfl, by rw [hreading]; rfl, htoHost, htoDevice,
        hqueue, rfl⟩, hreading, rfl, rfl⟩
  · have hupdate := windowUpdate_of_account
      ((accountPullWindow_eq _ _).symm.trans haccount) (by omega)
    have hreport : Step plan s .host _ :=
      .accountReport hphase hconnected haccount hupdate
    have hhead : s.toDevice ++ [.windowUpdate batch] = .windowUpdate batch :: [] := by
      rw [htoDevice, List.nil_append]
    have hregistered := (guarded_of_reachable h).registered (by rw [hreading]; rfl)
    obtain ⟨credit, hadd⟩ := update_accepted (h.leads (.single hreport)) hhead
    refine ⟨_, .head hreport (.head (Step.updateSent rfl huntroubled.hostCancel hconnected)
      (.single (Step.deliverUpdate hconnected hhead hregistered hadd))),
      ⟨⟨hroute, hconnected⟩, ?_, ?_, htoHost, rfl, hqueue, rfl⟩, ?_, rfl, rfl⟩
    · rw [hreading]
      rfl
    · rw [hreading]
      rfl
    · rw [hreading]
      rfl

theorem Synced.next {plan : Plan} {i : Nat} {s : State} (hs : Synced plan i s)
    (hi : i < plan.reads.chunks.length) (hok : plan.failsAt ≠ some i) :
    ∃ t, Synced plan (i + 1) t ∧ t.declared = s.declared := by
  have hquiet := hs.quiet
  have hopen := hquiet.route
  have huntroubled := untroubled_of_reachable hs.reachable hopen
  have hsized := (plan.reads.sized _ (List.getElem_mem hi)).2
  have hcredit := credit_of_quiescent hs.reachable hquiet
  have hup := leads_upload plan [plan.reads.chunks[i]] (plan.reads.chunks.drop (i + 1))
    hs.reading (by rw [hs.unread, List.drop_eq_getElem_cons hi]; rfl)
    huntroubled.deviceCanceled huntroubled.cancelWatch hopen.connected (by
      simp only [lengthsOf, List.map_cons, List.map_nil, List.sum_singleton]
      omega)
  have hwire : s.toHost ++ chunksOf [plan.reads.chunks[i]] =
      .fileChunk plan.reads.chunks[i] :: [] := by
    rw [hquiet.toHost]
    rfl
  have hqueue : s.hostQueue ++ [.fileChunk plan.reads.chunks[i]] =
      .fileChunk plan.reads.chunks[i] :: [] := by
    rw [hquiet.hostQueue]
    rfl
  have hroom : s.hostQueue.length < routeCapacity := by
    rw [hquiet.hostQueue]
    decide
  have hwrite : plan.failsAt ≠ some s.written.length := by
    rwa [hs.length_written (Nat.le_of_lt hi)]
  have hrun := ((hup.tail (Step.deliver hopen.connected hwire hopen.hostRoute hroom)).tail
    (Step.recv hquiet.receiving huntroubled.hostCancel hqueue)).tail (Step.write rfl hwrite)
  have hreach := hs.reachable.leads hrun
  obtain ⟨t, hrest, hquiet', hreading, hunread, hdeclared⟩ := leads_account hreach
    ⟨hopen.hostRoute, hopen.connected⟩ hs.reading rfl hquiet.toDevice rfl rfl hsized
  exact ⟨t, ⟨hreach.leads hrest, hquiet', hreading, hunread⟩, hdeclared⟩

/-- Up to the failing chunk, every number of chunks can be consumed, whatever size the handler
declares. -/
theorem exists_synced (plan : Plan) (size : Nat) {i : Nat}
    (hi : i ≤ plan.reads.chunks.length) (hlimit : i ≤ plan.limit) :
    ∃ s, Synced plan i s ∧ s.declared = size := by
  induction i with
  | zero => exact Synced.start plan size
  | succ i ih =>
      obtain ⟨s, hs, hsize⟩ := ih (by omega) (by omega)
      obtain ⟨t, ht, hdeclared⟩ := hs.next hi (by
        intro hfails
        simp only [Plan.limit, hfails, Option.getD_some] at hlimit
        omega)
      exact ⟨t, ht, hdeclared.trans hsize⟩

theorem leads_last {plan : Plan} {s : State} (hphase : s.device = .reading)
    (hwatch : s.cancelWatch = false) (hconnected : s.connected = true)
    (hunread : s.unread = []) :
    ∃ t, (system plan).Leads s t ∧ t.toHost = s.toHost ++ [plan.last] ∧
      t.hostRoute = s.hostRoute ∧ t.connected = true ∧ t.hostQueue = s.hostQueue := by
  unfold Plan.last
  cases hfails : plan.readFails with
  | false =>
      exact ⟨_, .head (Step.readEof hphase hwatch hunread hfails)
        (.single (Step.sendEnd rfl hconnected)), rfl, rfl, hconnected, rfl⟩
  | true =>
      exact ⟨_, .head (Step.readFails hphase hwatch hunread hfails)
        (.head (Step.unregister rfl) (.single (Step.reportError rfl hconnected))), rfl, rfl,
        hconnected, rfl⟩

theorem Synced.leads_upload {plan : Plan} {i : Nat} {s : State} (hs : Synced plan i s)
    (n : Nat) (hfits : unreported fileWindow (plan.reads.sizes.take i) +
      ((plan.reads.sizes.drop i).take n).sum ≤ fileFlowWindow) :
    ∃ t, (system plan).Leads s t ∧ t = { s with
      unread := plan.reads.chunks.drop (i + n)
      toHost := chunksOf ((plan.reads.chunks.drop i).take n)
      credit := t.credit, emitted := t.emitted, taken := t.taken } := by
  have hcredit := hs.credit
  have huntroubled := untroubled_of_reachable hs.reachable hs.quiet.route
  have hsum : (lengthsOf ((plan.reads.chunks.drop i).take n)).sum =
      ((plan.reads.sizes.drop i).take n).sum := by
    rw [lengthsOf, List.map_take, List.map_drop]
    rfl
  refine ⟨_, PullTransfer.leads_upload plan ((plan.reads.chunks.drop i).take n)
    (plan.reads.chunks.drop (i + n)) hs.reading ?_ huntroubled.deviceCanceled
    huntroubled.cancelWatch hs.quiet.route.connected ?_, ?_⟩
  · rw [hs.unread, ← List.drop_drop, List.take_append_drop]
  · omega
  · apply State.ext <;> simp [hs.quiet.toHost]

theorem exists_overflowed (plan : Plan) {i : Nat} (hlimit : i ≤ plan.limit)
    (hi : i + routeCapacity ≤ plan.reads.chunks.length)
    (hfits : unreported fileWindow (plan.reads.sizes.take i) +
      ((plan.reads.sizes.drop i).take (routeCapacity + 1)).sum ≤ fileFlowWindow) :
    ∃ s, (system plan).Reachable s ∧ s.overflowed = true := by
  obtain ⟨s, hs, -⟩ := exists_synced plan 0 (by omega : i ≤ plan.reads.chunks.length) hlimit
  obtain ⟨t, hup, ht⟩ := hs.leads_upload (routeCapacity + 1) hfits
  have hreach := hs.reachable.leads hup
  have hwire := congrArg State.toHost ht
  have hopen : Open t := ⟨(congrArg State.hostRoute ht).trans hs.quiet.route.hostRoute,
    (congrArg State.connected ht).trans hs.quiet.route.connected⟩
  have hqueue : t.hostQueue = [] :=
    (congrArg State.hostQueue ht).trans hs.quiet.hostQueue
  by_cases hmore : i + routeCapacity < plan.reads.chunks.length
  · obtain ⟨u, hrun, hu⟩ := leads_overflow plan _ hwire hopen hqueue (by
      simp only [chunksOf, List.length_map, List.length_take, List.length_drop]
      omega)
    exact ⟨u, hreach.leads hrun, hu⟩
  · have hdone : t.unread = [] :=
      (congrArg State.unread ht).trans (List.drop_eq_nil_of_le (by omega))
    obtain ⟨u, hend, hlast, hroute, hconnected, hsame⟩ := leads_last
      ((congrArg State.device ht).trans hs.reading)
      (untroubled_of_reachable hreach hopen).cancelWatch hopen.connected hdone
    obtain ⟨v, hrun, hv⟩ := leads_overflow plan _ hlast
      ⟨hroute.trans hopen.hostRoute, hconnected⟩ (hsame.trans hqueue) (by
        simp only [hwire, chunksOf, List.length_append, List.length_map, List.length_take,
          List.length_drop, List.length_singleton]
        omega)
    exact ⟨v, hreach.leads (hend.trans hrun), hv⟩

/-- A pull never overflows the host's queue if and only if no burst fits into the
window. -/
theorem never_overflowed_iff (plan : Plan) :
    (∀ s, (system plan).Reachable s → s.overflowed = false) ↔
      NoBurst fileWindow routeCapacity plan.limit plan.reads.sizes := by
  constructor
  · intro hnever i hlimit hi
    rw [FileReads.length_sizes] at hi
    by_contra hfits
    obtain ⟨s, hreach, hover⟩ := exists_overflowed plan hlimit hi (by
      rw [fileWindow_size] at hfits
      omega)
    simp [hnever s hreach] at hover
  · intro hburst s h
    exact not_overflowed hburst h

end SideWire.PullTransfer
