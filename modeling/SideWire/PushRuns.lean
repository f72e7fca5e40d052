import SideWire.PushCredit

namespace SideWire.PushTransfer

open SideWire.TransitionSystem
open SideWire.CreditWindow
open SideWire.ByteString
open SideWire.FlowControl

/-- A state between two chunks in which the first `i` chunks are consumed and
nothing is under way. -/
structure Synced (plan : Plan) (i : Nat) (s : State) : Prop where
  reachable : (system plan).Reachable s
  quiet : Quiescent s
  reading : s.host = .reading
  hostQueue : s.hostQueue = []
  unread : s.unread = plan.reads.chunks.drop i

theorem Synced.written {plan : Plan} {i : Nat} {s : State} (hs : Synced plan i s) :
    s.written = plan.reads.chunks.take i := by
  have ho := ordered_of_reachable hs.reachable
  have hh := handled_of_reachable hs.reachable
  have hrouted := (undisturbed_of_reachable hs.reachable hs.quiet.calm).routed (by
    rw [hs.quiet.receiving]; rfl)
  have hagrees := hh.agrees
  rw [hs.quiet.receiving] at hagrees
  have hunsent := ho.unsent _ (by rw [hs.reading]; rfl)
  have hframes := ho.frames
  simp only [hs.quiet.inbox, hs.quiet.toDevice, ho.served hrouted, hagrees.1, hunsent,
    framesOf, FileReads.frames, hs.unread, List.filter_nil, List.append_nil, chunksOf,
    ← List.append_assoc, ← List.map_append] at hframes
  have hchunks : s.written ++ plan.reads.chunks.drop i = plan.reads.chunks := by
    have hmap := List.append_cancel_right hframes
    exact List.map_injective_iff.mpr (fun _ _ heq => by simpa using heq) hmap
  have hsplit := List.take_append_drop i plan.reads.chunks
  exact List.append_cancel_right (hchunks.trans hsplit.symm)

theorem Synced.accounted {plan : Plan} {i : Nat} {s : State} (hs : Synced plan i s) :
    s.accounted = plan.reads.sizes.take i := by
  have hagrees := (handled_of_reachable hs.reachable).agrees
  rw [hs.quiet.receiving] at hagrees
  rw [hagrees.2, hs.written, lengthsOf, List.map_take]
  rfl

theorem Synced.opened {plan : Plan} {i : Nat} {s : State} (hs : Synced plan i s) :
    s.opened = true :=
  (handled_of_reachable hs.reachable).opened true (by rw [hs.quiet.receiving]; rfl)

/-- All data under way is what the sender has taken and the handler has not yet
accounted for. -/
theorem Quiescent.taken {plan : Plan} {s : State} (h : (system plan).Reachable s)
    (hquiet : Quiescent s) : s.taken = s.accounted.sum := by
  have ho := ordered_of_reachable h
  have hrouted := (undisturbed_of_reachable h hquiet.calm).routed (by
    rw [hquiet.receiving]; rfl)
  have hagrees := (handled_of_reachable h).agrees
  rw [hquiet.receiving] at hagrees
  have hframes := congrArg bytesOf ho.frames
  have hexact := (spent_of_reachable h).exact hquiet.calm.live
  simp only [bytesOf_append, hquiet.inbox, hquiet.toDevice, ho.served hrouted, hagrees.1,
    bytesOf_chunksOf, ← hagrees.2, List.filter_nil, bytesOf_nil, hquiet.held] at hframes hexact
  omega

theorem Synced.credit {plan : Plan} {i : Nat} {s : State} (hs : Synced plan i s) :
    s.credit.available + unreported fileWindow (plan.reads.sizes.take i) =
      fileFlowWindow := by
  have htotal := total_eq hs.reachable hs.quiet.calm hs.opened
  rw [hs.quiet.toHost, hs.quiet.taken hs.reachable, hs.accounted] at htotal
  simpa using htotal

theorem Synced.start (plan : Plan) : ∃ s, Synced plan 0 s := by
  have hgrant : windowUpdate fileFlowWindow = .ok [.windowUpdate fileFlowWindow] := by
    decide
  have hadd : FlowCredit.new.add fileFlowWindow = .ok ⟨fileFlowWindow⟩ :=
    FlowCredit.add_eq_ok_iff.mpr ⟨by decide, by decide, rfl⟩
  have hroom : 0 < routeCapacity := by decide
  refine ⟨_, ⟨⟨State.initial plan, rfl, .head (Step.create rfl rfl)
    (.head (Step.grant rfl rfl hgrant)
      (.head (Step.deliver rfl rfl rfl rfl hroom)
        (.head (Step.deliverUpdate rfl rfl rfl hadd)
          (.single (Step.recvReady rfl rfl rfl)))))⟩,
    ⟨⟨rfl, rfl, rfl, rfl⟩, rfl, rfl, rfl, rfl, rfl⟩, rfl, rfl, rfl⟩⟩

theorem leads_upload (plan : Plan) (chunks rest : List Bytes) {s : State}
    (hphase : s.host = .reading) (hunread : s.unread = chunks ++ rest)
    (hcancel : s.hostCancel = false) (hconnected : s.connected = true)
    (hqueue : s.hostQueue = []) (hcredit : (lengthsOf chunks).sum ≤ s.credit.available) :
    (system plan).Leads s { s with
      unread := rest
      credit := ⟨s.credit.available - (lengthsOf chunks).sum⟩
      toDevice := s.toDevice ++ chunksOf chunks
      unsent := s.unsent.drop chunks.length
      taken := s.taken + (lengthsOf chunks).sum } := by
  induction chunks generalizing s with
  | nil =>
      apply System.Leads.of_eq
      apply State.ext <;> simp [hunread, lengthsOf, chunksOf]
  | cons chunk chunks ih =>
      simp only [lengthsOf, List.map_cons, List.sum_cons] at hcredit
      have htake : s.credit.tryTake chunk.length =
          some ⟨s.credit.available - chunk.length⟩ :=
        FlowCredit.tryTake_eq_some_iff.mpr ⟨by omega, rfl⟩
      have hnext : s.unread = chunk :: (chunks ++ rest) := hunread
      refine .head (Step.readChunk hphase hnext)
        (.head (Step.takeCredit rfl hcancel hconnected htake)
          (.head (Step.sendChunk rfl hconnected)
            (.head (Step.sentChunk rfl hcancel hconnected)
              (.head (Step.tryRecvEmpty rfl hcancel hqueue) ?_))))
      refine System.Leads.to_eq (ih ?_ ?_ hcancel hconnected hqueue ?_) ?_
      · rfl
      · rfl
      · simp only [lengthsOf]
        omega
      · apply State.ext <;> simp [hphase, lengthsOf, chunksOf] <;> omega

theorem isData_of_mem_chunksOf {chunks : List Bytes} :
    ∀ frame ∈ chunksOf chunks, frame.isData = true := by
  simp [chunksOf, StreamFrame.isData]

theorem leads_route (plan : Plan) (frames rest : List StreamFrame) {s : State}
    (hwire : s.toDevice = frames ++ rest) (hdata : ∀ frame ∈ frames, frame.isData = true)
    (hconnected : s.connected = true) (hrouted : s.routed = true)
    (hroom : s.inbox.length + frames.length ≤ routeCapacity) :
    (system plan).Leads s { s with toDevice := rest, inbox := s.inbox ++ frames } := by
  induction frames generalizing s with
  | nil =>
      apply System.Leads.of_eq
      apply State.ext <;> simp [hwire]
  | cons frame frames ih =>
      have hnext : s.toDevice = frame :: (frames ++ rest) := hwire
      rw [List.length_cons] at hroom
      refine .head (Step.route hconnected hnext (hdata frame (by simp)) hrouted (by omega)) ?_
      refine System.Leads.to_eq (ih ?_ ?_ hconnected hrouted ?_) ?_
      · rfl
      · exact fun f hf => hdata f (by simp [hf])
      · simp only [List.length_append, List.length_singleton]
        omega
      · apply State.ext <;> simp

theorem leads_unsupported (plan : Plan) (frames : List StreamFrame) {s : State}
    (hwire : s.toDevice = frames) (hdata : ∀ frame ∈ frames, frame.isData = true)
    (hconnected : s.connected = true) (hrouted : s.routed = false)
    (hcanceled : s.deviceCanceled = false) :
    (system plan).Leads s { s with
      toDevice := []
      unserved := s.unserved ++ frames
      toHost := s.toHost ++ List.replicate frames.length .error } := by
  induction frames generalizing s with
  | nil =>
      apply System.Leads.of_eq
      apply State.ext <;> simp [hwire]
  | cons frame frames ih =>
      refine .head (Step.unsupported hconnected hwire (hdata frame (by simp)) hrouted) ?_
      refine System.Leads.to_eq (ih ?_ ?_ hconnected hrouted ?_) ?_
      · rfl
      · exact fun f hf => hdata f (by simp [hf])
      · rfl
      · apply State.ext <;> simp [hcanceled, List.replicate_succ]

theorem leads_deliver (plan : Plan) (frames : List StreamFrame) {s : State}
    (hwire : s.toHost = frames) (hdata : ∀ frame ∈ frames, frame.isData = true)
    (hconnected : s.connected = true) (hroute : s.hostRoute = true)
    (hroom : s.hostQueue.length + frames.length ≤ routeCapacity) :
    (system plan).Leads s { s with toHost := [], hostQueue := s.hostQueue ++ frames } := by
  induction frames generalizing s with
  | nil =>
      apply System.Leads.of_eq
      apply State.ext <;> simp [hwire]
  | cons frame frames ih =>
      rw [List.length_cons] at hroom
      refine .head (Step.deliver hconnected hwire (hdata frame (by simp)) hroute (by omega)) ?_
      refine System.Leads.to_eq (ih ?_ ?_ hconnected hroute ?_) ?_
      · rfl
      · exact fun f hf => hdata f (by simp [hf])
      · simp only [List.length_append, List.length_singleton]
        omega
      · apply State.ext <;> simp

theorem leads_account {plan : Plan} {s : State} (h : (system plan).Reachable s)
    (hcalm : Calm s) (hreading : s.host = .reading) (hwire : s.toHost = [])
    (htoDevice : s.toDevice = []) (hinbox : s.inbox = []) {bytes : Nat}
    (hphase : s.device = .accounting bytes) :
    ∃ t, (system plan).Leads s t ∧ Quiescent t ∧ t.host = .reading ∧
      t.hostQueue = s.hostQueue ∧ t.unread = s.unread := by
  have ho := ordered_of_reachable h
  have hh := handled_of_reachable h
  have hundisturbed := undisturbed_of_reachable h hcalm
  obtain ⟨hlive, hconnected, hcancel, hoverflowed⟩ := hcalm
  cases haccount : accountFileWindow s.consumed bytes with
  | error message => exact absurd haccount (accountFileWindow_ne_error ho hh hphase)
  | ok result =>
      obtain ⟨consumed, _ | batch⟩ := result
      · exact ⟨_, .single (Step.accountOnly hphase haccount),
          ⟨⟨hlive, hconnected, hcancel, hoverflowed⟩, by rw [hreading]; rfl, htoDevice, hwire,
            hinbox, rfl⟩, hreading, rfl, rfl⟩
      · have hlt := accounting_bound ho hh hphase
        have hbound : fileFlowUpdateThreshold + fileBufferSize ≤ 2 ^ 32 := by decide
        have hupdate := windowUpdate_of_account (accountFileWindow_eq_ok haccount).symm (by omega)
        have hreport : Step plan s .handler _ :=
          .accountReport hphase hconnected haccount hupdate
        have hhead : s.toHost ++ [.windowUpdate batch] = .windowUpdate batch :: [] := by
          rw [hwire, List.nil_append]
        obtain ⟨credit, hadd⟩ := update_accepted (h.leads (.single hreport)) hhead
        refine ⟨_, .head hreport (.single
          (Step.deliverUpdate hconnected hhead hundisturbed.hostRoute hadd)),
          ⟨⟨?_, hconnected, hcancel, hoverflowed⟩, ?_, htoDevice, rfl, hinbox, rfl⟩, ?_, rfl,
          rfl⟩
        · rw [hreading]
          rfl
        · rw [hreading]
          rfl
        · rw [hreading]
          rfl

theorem Synced.length_written {plan : Plan} {i : Nat} {s : State} (hs : Synced plan i s)
    (hi : i ≤ plan.reads.chunks.length) : s.written.length = i := by
  rw [hs.written, List.length_take_of_le hi]

theorem Synced.routed {plan : Plan} {i : Nat} {s : State} (hs : Synced plan i s) :
    s.routed = true :=
  (undisturbed_of_reachable hs.reachable hs.quiet.calm).routed (by
    rw [hs.quiet.receiving]; rfl)

theorem Synced.leads_writing {plan : Plan} {i : Nat} {s : State} (hs : Synced plan i s)
    (hi : i < plan.reads.chunks.length) :
    ∃ t, (system plan).Leads s t ∧ t.device = .writing plan.reads.chunks[i] ∧
      t = { s with
        unread := plan.reads.chunks.drop (i + 1)
        credit := t.credit, taken := t.taken, unsent := t.unsent
        device := t.device, popped := t.popped } := by
  have hquiet := hs.quiet
  have hdrop := List.drop_eq_getElem_cons hi
  have hsized := (plan.reads.sized _ (List.getElem_mem hi)).2
  have hcredit := credit_of_quiescent hs.reachable hquiet
  have hup := leads_upload plan [plan.reads.chunks[i]]
    (plan.reads.chunks.drop (i + 1)) hs.reading (by rw [hs.unread, hdrop]; rfl)
    hquiet.calm.hostCancel hquiet.calm.connected hs.hostQueue (by
      simp only [lengthsOf, List.map_cons, List.map_nil, List.sum_singleton]
      omega)
  have hwire : s.toDevice ++ chunksOf [plan.reads.chunks[i]] =
      .fileChunk plan.reads.chunks[i] :: [] := by
    rw [hquiet.toDevice]
    rfl
  have hinbox : s.inbox ++ [.fileChunk plan.reads.chunks[i]] =
      .fileChunk plan.reads.chunks[i] :: [] := by
    rw [hquiet.inbox]
    rfl
  have hwatch := (undisturbed_of_reachable hs.reachable hquiet.calm).cancelWatch
  have hroom : s.inbox.length < routeCapacity := by
    rw [hquiet.inbox]
    decide
  refine ⟨_, hup.tail (Step.route hquiet.calm.connected hwire rfl hs.routed hroom) |>.tail
    (Step.recv hquiet.receiving hwatch hinbox), rfl, ?_⟩
  apply State.ext <;> simp [hquiet.toDevice, hquiet.inbox]

theorem Synced.next {plan : Plan} {i : Nat} {s : State} (hs : Synced plan i s)
    (hi : i < plan.reads.chunks.length) (hok : plan.failsAt ≠ some i) :
    ∃ t, Synced plan (i + 1) t := by
  obtain ⟨t, hrun, hphase, ht⟩ := hs.leads_writing hi
  obtain ⟨⟨-, hconnected, hcancel, hoverflowed⟩, -, htoDevice, htoHost, hinbox, -⟩ := hs.quiet
  have hhost : t.host = .reading := (congrArg State.host ht).trans hs.reading
  have hlength : t.written.length = i := by
    rw [congrArg State.written ht]
    exact hs.length_written (Nat.le_of_lt hi)
  have hwrite : Step plan t .handler _ := .write hphase (by rwa [hlength])
  have hreach := (hs.reachable.leads hrun).leads (.single hwrite)
  obtain ⟨u, hrest, hquiet, hreading, hqueue, hunread⟩ := leads_account hreach
    ⟨by rw [hhost]; rfl, (congrArg State.connected ht).trans hconnected,
      (congrArg State.hostCancel ht).trans hcancel,
      (congrArg State.overflowed ht).trans hoverflowed⟩
    hhost ((congrArg State.toHost ht).trans htoHost)
    ((congrArg State.toDevice ht).trans htoDevice)
    ((congrArg State.inbox ht).trans hinbox) rfl
  exact ⟨u, hreach.leads hrest, hquiet, hreading,
    hqueue.trans ((congrArg State.hostQueue ht).trans hs.hostQueue),
    hunread.trans (congrArg State.unread ht)⟩

/-- Up to the failing chunk, every number of chunks can be consumed. -/
theorem exists_synced (plan : Plan) {i : Nat} (hi : i ≤ plan.reads.chunks.length)
    (hlimit : i ≤ plan.limit) : ∃ s, Synced plan i s := by
  induction i with
  | zero => exact Synced.start plan
  | succ i ih =>
      obtain ⟨s, hs⟩ := ih (by omega) (by omega)
      apply hs.next hi
      intro hfails
      simp only [Plan.limit, hfails, Option.getD_some] at hlimit
      omega

theorem leads_overflow (plan : Plan) (frames : List StreamFrame) {s : State}
    (hwire : s.toDevice = frames) (hdata : ∀ frame ∈ frames, frame.isData = true)
    (hconnected : s.connected = true) (hrouted : s.routed = true) (hinbox : s.inbox = [])
    (hmany : routeCapacity < frames.length) :
    ∃ t, (system plan).Leads s t ∧ t.overflowed = true := by
  have hsplit := List.take_append_drop routeCapacity frames
  have hroute := leads_route plan (frames.take routeCapacity)
    (frames.drop routeCapacity) (hwire.trans hsplit.symm)
    (fun f hf => hdata f (List.mem_of_mem_take hf)) hconnected hrouted (by
      simp only [hinbox, List.length_nil, List.length_take]
      omega)
  have hdrop := List.drop_eq_getElem_cons hmany
  refine ⟨_, hroute.tail (Step.routeFull hconnected hdrop
    (hdata _ (List.getElem_mem hmany)) hrouted ?_), rfl⟩
  simp only [List.length_append, List.length_take]
  omega

theorem Synced.leads_upload {plan : Plan} {i : Nat} {s : State} (hs : Synced plan i s)
    (n : Nat) (hfits : unreported fileWindow (plan.reads.sizes.take i) +
      ((plan.reads.sizes.drop i).take n).sum ≤ fileFlowWindow) :
    ∃ t, (system plan).Leads s t ∧ t = { s with
      unread := plan.reads.chunks.drop (i + n)
      credit := ⟨s.credit.available - ((plan.reads.sizes.drop i).take n).sum⟩
      toDevice := chunksOf ((plan.reads.chunks.drop i).take n)
      unsent := t.unsent, taken := t.taken } := by
  have hcredit := hs.credit
  have hsum : (lengthsOf ((plan.reads.chunks.drop i).take n)).sum =
      ((plan.reads.sizes.drop i).take n).sum := by
    rw [lengthsOf, List.map_take, List.map_drop]
    rfl
  refine ⟨_, PushTransfer.leads_upload plan ((plan.reads.chunks.drop i).take n)
    (plan.reads.chunks.drop (i + n)) hs.reading ?_ hs.quiet.calm.hostCancel
    hs.quiet.calm.connected hs.hostQueue ?_, ?_⟩
  · rw [hs.unread, ← List.drop_drop, List.take_append_drop]
  · omega
  · apply State.ext <;> simp [hsum, hs.quiet.toDevice]

theorem exists_overflowed (plan : Plan) {i : Nat} (hlimit : i ≤ plan.limit)
    (hi : i + routeCapacity ≤ plan.reads.chunks.length)
    (hfits : unreported fileWindow (plan.reads.sizes.take i) +
      ((plan.reads.sizes.drop i).take (routeCapacity + 1)).sum ≤ fileFlowWindow) :
    ∃ s, (system plan).Reachable s ∧ s.overflowed = true := by
  obtain ⟨s, hs⟩ := exists_synced plan (by omega : i ≤ plan.reads.chunks.length) hlimit
  obtain ⟨t, hup, ht⟩ := hs.leads_upload (routeCapacity + 1) hfits
  have hreach := hs.reachable.leads hup
  have hhost : t.host = .reading := (congrArg State.host ht).trans hs.reading
  have hunread := congrArg State.unread ht
  have hwire := congrArg State.toDevice ht
  have hconnected : t.connected = true :=
    (congrArg State.connected ht).trans hs.quiet.calm.connected
  have hrouted : t.routed = true := (congrArg State.routed ht).trans hs.routed
  have hinbox : t.inbox = [] := (congrArg State.inbox ht).trans hs.quiet.inbox
  by_cases hmore : i + routeCapacity < plan.reads.chunks.length
  · obtain ⟨u, hrun, hu⟩ := leads_overflow plan _ hwire isData_of_mem_chunksOf
      hconnected hrouted hinbox (by
        simp only [chunksOf, List.length_map, List.length_take, List.length_drop]
        omega)
    exact ⟨u, hreach.leads hrun, hu⟩
  · have hend : t.unread = [] := by
      rw [hunread]
      exact List.drop_eq_nil_of_le (by omega)
    obtain ⟨u, hrun, hu⟩ := leads_overflow plan
      (s := { t with
        host := .sent true, toDevice := t.toDevice ++ [.fileEnd], unsent := t.unsent.tail })
      (chunksOf ((plan.reads.chunks.drop i).take (routeCapacity + 1)) ++ [.fileEnd])
      (by rw [hwire])
      (by
        intro frame hframe
        rcases List.mem_append.mp hframe with hchunk | hmarker
        · exact isData_of_mem_chunksOf frame hchunk
        · rw [List.mem_singleton.mp hmarker]
          rfl)
      hconnected hrouted hinbox (by
        simp only [chunksOf, List.length_append, List.length_map, List.length_take,
          List.length_drop, List.length_singleton]
        omega)
    exact ⟨u, hreach.leads (.head (Step.readEof hhost hend)
      (.head (Step.sendEnd rfl hconnected) hrun)), hu⟩

/-- A push never overflows the device's queue if and only if no burst fits into
the window. -/
theorem never_overflowed_iff (plan : Plan) :
    (∀ s, (system plan).Reachable s → s.overflowed = false) ↔
      NoBurst fileWindow routeCapacity plan.limit plan.reads.sizes := by
  constructor
  · intro hnever i hlimit hi
    rw [FileReads.length_sizes] at hi
    by_contra hfits
    obtain ⟨s, hreach, hover⟩ := exists_overflowed plan hlimit hi (by
      rw [fileWindow_size] at hfits
      omega)
    simp [hnever s hreach] at hover
  · intro hburst s h
    exact not_overflowed hburst h

end SideWire.PushTransfer
