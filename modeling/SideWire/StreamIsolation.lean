import SideWire.StreamDelivery

namespace SideWire.StreamRoutes

open SideWire.TransitionSystem
open SideWire.ByteString
open SideWire.FlowControl
open SideWire.FrameCodec

/-- The owner is inside a call. -/
def Owner.calling : Owner → Bool
  | .idle | .dropping | .dropped => false
  | _ => true

/-- Everything that a step can do to a stream. -/
structure Change (s : State) (action : Action) (stream : Nat) (st st' : DeviceStream) :
    Prop where
  sameId : st'.id = st.id
  early : st'.early = st.early
  cancel : st'.cancel = st.cancel ∨ ∃ id reason, s.reader = .canceling id stream reason ∧
    st'.cancel = some reason
  queued : st'.queued = st.queued ∨
    (∃ frame, s.reader = .routed frame stream ∧ st'.queued = st.queued ++ [frame]) ∨
    (st.owner.calling = false ∧ st'.owner = .dropped ∧ st'.queued = st.delivered)
  delivered : st'.delivered = st.delivered ∨ st.owner.calling = true
  calls : st'.owner.calling = true → st.owner.calling = true ∨ st.cancel = none
  dropped : st.owner = .dropped → st'.owner = .dropped

section Changes

variable {transport : DeviceTransport} {s t : State} {action : Action} {stream : Nat}
  {st st' : DeviceStream}

theorem Change.refl (s : State) (action : Action) (stream : Nat) (st : DeviceStream) :
    Change s action stream st st :=
  ⟨rfl, rfl, .inl rfl, .inl rfl, .inl rfl, .inl, id⟩

theorem change_of_set {other : Nat} (hst : s.streams stream = some st)
    (hother : s.streams other = some st') {value : DeviceStream}
    (hchange : Change s action stream st value) :
    ∃ st'', s.setStream stream value other = some st'' ∧ Change s action other st' st'' := by
  by_cases heq : other = stream
  · subst heq
    obtain rfl := Option.some.inj (hst.symm.trans hother)
    exact ⟨value, Function.update_self .., hchange⟩
  · exact ⟨st', (Function.update_of_ne heq _ _).trans hother, .refl s action other st'⟩

theorem change_of_step (hstep : Step transport s action t) {other : Nat}
    (hother : s.streams other = some st) :
    ∃ st', t.streams other = some st' ∧ Change s action other st st' := by
  cases hstep with
  | enter | draw | drawZero | refuse | collide | close | closeRoutes | writerEnds | arm
  | seeClosed | shutdown | readFails | rejectUpdate | lookUpdate | strayUpdate | rejectCredit
  | lookCancel | strayCancel | look | stray | overflow | orphan | removeFull | removeOrphan
  | signal | clear => exact ⟨st, hother, .refl ..⟩
  | @register id stream hdrawn hopen hfree hfresh =>
      have hne : other ≠ stream := by
        rintro rfl
        simp [hfresh] at hother
      exact ⟨st, (Function.update_of_ne hne _ _).trans hother, .refl ..⟩
  | recv hst howner hcancel | tryRecv hst howner hcancel =>
      exact change_of_set hst hother
        ⟨rfl, rfl, .inl rfl, .inl rfl, .inl rfl, fun _ => .inr hcancel, by simp [howner]⟩
  | pollClosed hst howner | pollPending hst howner | park hst howner | tryEmpty hst howner
  | tryDisconnected hst howner | tryRecvClosed hst howner =>
      exact change_of_set hst hother
        ⟨rfl, rfl, .inl rfl, .inl rfl, .inl rfl, fun _ => .inl (by simp [howner, Owner.calling]),
          by simp [howner]⟩
  | abandon hst howner | recvClosed hst howner =>
      exact change_of_set hst hother
        ⟨rfl, rfl, .inl rfl, .inl rfl, .inl rfl, fun h => (by cases h), by grind⟩
  | canceled hst howner =>
      exact change_of_set hst hother
        ⟨rfl, rfl, .inl rfl, .inl rfl, .inl rfl, fun h => (by cases h), by grind⟩
  | pop hst howner hqueue =>
      refine change_of_set hst hother
        ⟨rfl, rfl, .inl rfl, .inl ?_, .inr ?_, fun h => (by cases h), by grind⟩
      · simp [DeviceStream.queued, DeviceStream.take, hqueue]
      · rcases howner with howner | howner | howner <;> rw [howner] <;> rfl
  | takeCredit hst =>
      exact change_of_set hst hother ⟨rfl, rfl, .inl rfl, .inl rfl, .inl rfl, .inl, id⟩
  | drop hst howner =>
      exact change_of_set hst hother
        ⟨rfl, rfl, .inl rfl, .inl rfl, .inl rfl, fun h => (by cases h), by simp [howner]⟩
  | dropQueue hst howner =>
      refine change_of_set hst hother
        ⟨rfl, rfl, .inl rfl, .inr (.inr ⟨?_, rfl, ?_⟩), .inl rfl, fun h => (by cases h),
          fun _ => rfl⟩
      · rw [howner]
        rfl
      · simp [DeviceStream.queued]
  | read =>
      refine ⟨_, arrive_of_eq hother, ?_⟩
      split_ifs
      · exact ⟨rfl, rfl, .inl rfl, .inl rfl, .inl rfl, .inl, id⟩
      · exact .refl ..
  | credit _ hst =>
      exact change_of_set hst hother ⟨rfl, rfl, .inl rfl, .inl rfl, .inl rfl, .inl, id⟩
  | cancel hreader hst =>
      exact change_of_set hst hother
        ⟨rfl, rfl, .inr ⟨_, _, hreader, rfl⟩, .inl rfl, .inl rfl, .inl, id⟩
  | deliver hreader hst =>
      refine change_of_set hst hother
        ⟨rfl, rfl, .inl rfl, .inr (.inl ⟨_, hreader, ?_⟩), .inl rfl, .inl, id⟩
      simp [DeviceStream.queued]

end Changes

section Severed

variable {transport : DeviceTransport} {s t : State} {action : Action} {stream : Nat}
  {st : DeviceStream}

theorem senderAlive_back (hstep : Step transport s action t)
    (hst : s.streams stream = some st) (halive : t.SenderAlive stream) :
    s.SenderAlive stream := by
  have hheld : (s.reader.holds stream = true) → s.SenderAlive stream := .inr
  have hremoved : ∀ id, (∃ id', s.setRoute id none id' = some stream) → s.SenderAlive stream := by
    rintro id ⟨id', hroute⟩
    exact .inl ⟨id', (of_update_none hroute).2⟩
  cases hstep with
  | enter | draw | drawZero | refuse | collide | close | writerEnds | recv | pollClosed
  | pollPending | park | abandon | tryRecv | tryEmpty | tryDisconnected | pop | canceled
  | recvClosed | tryRecvClosed | takeCredit | dropQueue => exact halive
  | @register id new hdrawn hopen hfree hfresh =>
      rcases halive with ⟨id', hroute⟩ | hholds
      · by_cases hid : id' = id
        · simp only [State.setRoute, hid, Function.update_self, Option.some.injEq] at hroute
          simp [hroute, hst] at hfresh
        · simp only [State.setRoute, Function.update_of_ne hid] at hroute
          exact .inl ⟨id', hroute⟩
      · exact .inr hholds
  | drop => exact halive.elim (hremoved _) .inr
  | closeRoutes =>
      rcases halive with ⟨_, hroute⟩ | hholds
      · cases hroute
      · exact .inr hholds
  | arm | seeClosed | shutdown | readFails | read | rejectUpdate | lookUpdate | strayUpdate
  | credit | rejectCredit | strayCancel | cancel | stray | deliver | signal =>
      exact halive.elim .inl fun hholds => by cases hholds
  | lookCancel _ _ hroute | look _ _ hroute =>
      rcases halive with halive | hholds
      · first | exact hremoved _ halive | exact .inl halive
      · obtain rfl := by simpa [Reader.holds] using hholds
        exact .inl ⟨_, hroute⟩
  | overflow hreader | orphan hreader =>
      exact halive.elim .inl fun hholds => hheld (by rwa [hreader])
  | removeFull hreader =>
      exact halive.elim (hremoved _) fun hholds => hheld (by rwa [hreader])
  | removeOrphan hreader => exact halive.elim (hremoved _) fun hholds => by cases hholds
  | clear =>
      rcases halive with ⟨_, hroute⟩ | hholds
      · cases hroute
      · cases hholds

theorem Change.of_severed {st' : DeviceStream} (h : Change s action stream st st')
    (hsevered : ¬ s.SenderAlive stream) :
    st'.cancel = st.cancel ∧ (st'.queued = st.queued ∨ st'.owner = .dropped) := by
  constructor
  · rcases h.cancel with hcancel | ⟨id, reason, hreader, _⟩
    · exact hcancel
    · exact absurd (.inr (by simp [hreader, Reader.holds])) hsevered
  · rcases h.queued with hqueued | ⟨frame, hreader, _⟩ | ⟨_, hdropped, _⟩
    · exact .inl hqueued
    · exact absurd (.inr (by simp [hreader, Reader.holds])) hsevered
    · exact .inr hdropped

/-- A stream that has not been canceled when its last sender goes never will be. -/
theorem leads_of_severed (h : (system transport).Leads s t) (hst : s.streams stream = some st)
    (hcancel : st.cancel = none) (hsevered : ¬ s.SenderAlive stream) :
    ∃ st', t.streams stream = some st' ∧ st'.cancel = none ∧ ¬ t.SenderAlive stream ∧
      (st'.queued = st.queued ∨ st'.owner = .dropped) := by
  refine h.preserves (P := fun u => ∃ st', u.streams stream = some st' ∧ st'.cancel = none ∧
    ¬ u.SenderAlive stream ∧ (st'.queued = st.queued ∨ st'.owner = .dropped)) ?_
    ⟨st, hst, hcancel, hsevered, .inl rfl⟩
  rintro u action v ⟨st', hst', hcancel', hsevered', hqueued⟩ hstep
  obtain ⟨st'', hst'', hchange⟩ := change_of_step hstep hst'
  obtain ⟨hcancel'', hqueued''⟩ := hchange.of_severed hsevered'
  refine ⟨st'', hst'', hcancel''.trans hcancel',
    fun halive => hsevered' (senderAlive_back hstep hst' halive), ?_⟩
  rcases hqueued with hqueued | hdropped
  · exact hqueued''.imp (·.trans hqueued) id
  · exact .inr (hchange.dropped hdropped)

end Severed

section Cut

variable {transport : DeviceTransport} {s t : State} {action : Action} {stream : Nat}
  {st : DeviceStream}

/-- The stream has been canceled, or its queue has overflowed. -/
def Cut (s : State) (stream : Nat) (st : DeviceStream) : Prop :=
  st.cancel ≠ none ∨ (∃ id, s.reader = .full id stream) ∨
    ∃ id reason, s.reader = .canceling id stream reason

theorem Change.canceled {st' : DeviceStream} (h : Change s action stream st st')
    (hcancel : st.cancel ≠ none) : st'.cancel ≠ none := by
  rcases h.cancel with hsame | ⟨_, _, _, hcanceled⟩
  · rwa [hsame]
  · simp [hcanceled]

theorem reader_of_step (hstep : Step transport s action t) (hreader : action ≠ .reader) :
    t.reader = s.reader := by
  cases hstep <;> first | rfl | exact absurd rfl hreader

theorem full_step {id : UInt32} (hstep : Step transport s action t)
    (hreader : s.reader = .full id stream) :
    t.reader = .full id stream ∨ t.reader = .canceling id stream .overflow := by
  by_cases haction : action = .reader
  · subst haction
    cases hstep with
    | removeFull h =>
        obtain ⟨rfl, rfl⟩ := by simpa [hreader] using h
        exact .inr rfl
    | arm h | seeClosed h | shutdown h | readFails h | read h | rejectUpdate h | lookUpdate h
    | strayUpdate h | credit h | rejectCredit h | lookCancel h | strayCancel h | cancel h | look h
    | stray h | deliver h | overflow h | orphan h | removeOrphan h | signal h | clear h =>
        simp [hreader] at h
  · exact .inl ((reader_of_step hstep haction).trans hreader)

theorem canceling_step {id : UInt32} {reason : CancelReason}
    (hstep : Step transport s action t) (hreader : s.reader = .canceling id stream reason) :
    t.reader = .canceling id stream reason ∨
      ∃ st, t.streams stream = some st ∧ st.cancel ≠ none := by
  by_cases haction : action = .reader
  · subst haction
    cases hstep with
    | @cancel _ _ _ st h hst =>
        obtain ⟨rfl, rfl, rfl⟩ := by simpa [hreader] using h
        exact .inr ⟨_, Function.update_self .., by simp⟩
    | arm h | seeClosed h | shutdown h | readFails h | read h | rejectUpdate h | lookUpdate h
    | strayUpdate h | credit h | rejectCredit h | lookCancel h | strayCancel h | look h
    | stray h | deliver h | overflow h | orphan h | removeFull h | removeOrphan h | signal h
    | clear h =>
        simp [hreader] at h
  · exact .inl ((reader_of_step hstep haction).trans hreader)

theorem cut_step (hinv : Inv s.routes s.streams s.reader) (hstep : Step transport s action t)
    (hst : s.streams stream = some st) (hcut : Cut s stream st) :
    ∃ st', t.streams stream = some st' ∧ Cut t stream st' ∧ st'.queued <+: st.queued := by
  obtain ⟨st', hst', hchange⟩ := change_of_step hstep hst
  refine ⟨st', hst', ?_, ?_⟩
  · rcases hcut with hcancel | hreader | hreader
    · exact .inl (hchange.canceled hcancel)
    · obtain ⟨id, hfull⟩ := hreader
      rcases full_step hstep hfull with hfull | hcanceling
      · exact .inr (.inl ⟨id, hfull⟩)
      · exact .inr (.inr ⟨id, .overflow, hcanceling⟩)
    · obtain ⟨id, reason, hcanceling⟩ := hreader
      rcases canceling_step hstep hcanceling with hcanceling | ⟨st'', hst'', hcancel⟩
      · exact .inr (.inr ⟨id, reason, hcanceling⟩)
      · obtain rfl := Option.some.inj (hst'.symm.trans hst'')
        exact .inl hcancel
  · rcases hchange.queued with hqueued | ⟨frame, hreader, _⟩ | ⟨_, _, hqueued⟩
    · exact hqueued ▸ List.prefix_rfl
    · rcases hcut with hcancel | ⟨_, hfull⟩ | ⟨_, _, hcanceling⟩
      · have hholds := ((hinv.placed stream st hst).canceled hcancel).2
        simp [hreader, Reader.holds] at hholds
      · simp [hreader] at hfull
      · simp [hreader] at hcanceling
    · rw [hqueued]
      exact List.prefix_append _ _

theorem leads_of_cut (hreach : (system transport).Reachable s)
    (h : (system transport).Leads s t) (hst : s.streams stream = some st)
    (hcut : Cut s stream st) :
    ∃ st', t.streams stream = some st' ∧ st'.delivered <+: st.queued := by
  have hrun : (system transport).Reachable t ∧ ∃ st', t.streams stream = some st' ∧
      Cut t stream st' ∧ st'.queued <+: st.queued := by
    refine h.preserves (P := fun u => (system transport).Reachable u ∧
      ∃ st', u.streams stream = some st' ∧ Cut u stream st' ∧ st'.queued <+: st.queued) ?_
      ⟨hreach, st, hst, hcut, List.prefix_rfl⟩
    rintro u action v ⟨hu, st', hst', hcut', hqueued⟩ hstep
    obtain ⟨st'', hst'', hcut'', hqueued'⟩ := cut_step (inv_of_reachable hu) hstep hst' hcut'
    exact ⟨hu.leads (.single hstep), st'', hst'', hcut'', hqueued'.trans hqueued⟩
  obtain ⟨_, st', hst', _, hqueued⟩ := hrun
  exact ⟨st', hst', (List.prefix_append _ _).trans hqueued⟩

theorem leads_of_canceled (h : (system transport).Leads s t)
    (hst : s.streams stream = some st) (hcancel : st.cancel ≠ none)
    (hidle : st.owner.calling = false) :
    ∃ st', t.streams stream = some st' ∧ st'.delivered = st.delivered := by
  have hrun : ∃ st', t.streams stream = some st' ∧ st'.cancel ≠ none ∧
      st'.owner.calling = false ∧ st'.delivered = st.delivered := by
    refine h.preserves (P := fun u => ∃ st', u.streams stream = some st' ∧ st'.cancel ≠ none ∧
      st'.owner.calling = false ∧ st'.delivered = st.delivered) ?_ ⟨st, hst, hcancel, hidle, rfl⟩
    rintro u action v ⟨st', hst', hcancel', hidle', hdelivered⟩ hstep
    obtain ⟨st'', hst'', hchange⟩ := change_of_step hstep hst'
    refine ⟨st'', hst'', hchange.canceled hcancel', ?_, ?_⟩
    · by_contra hcalling
      rcases hchange.calls (by simpa using hcalling) with hcalling | hnone
      · simp [hidle'] at hcalling
      · exact hcancel' hnone
    · rcases hchange.delivered with hsame | hcalling
      · exact hsame.trans hdelivered
      · simp [hidle'] at hcalling
  obtain ⟨st', hst', _, _, hdelivered⟩ := hrun
  exact ⟨st', hst', hdelivered⟩

end Cut

section Closing

variable {transport : DeviceTransport} {s t : State} {action : Action} {stream : Nat}
  {st : DeviceStream}

theorem returns_error (hinv : Inv s.routes s.streams s.reader) {error : RecvError}
    (hstep : Step transport s (.returns stream (.error error)) t)
    (hst : s.streams stream = some st) :
    st.owner ≠ .dropped ∧ ((∃ reason, error = .canceled reason ∧ st.cancel = some reason) ∨
      error = .closed ∧ st.queue = []) := by
  cases hstep with
  | canceled hst' howner hcancel =>
      obtain rfl := Option.some.inj (hst.symm.trans hst')
      exact ⟨by grind, .inl ⟨_, rfl, hcancel⟩⟩
  | recvClosed hst' howner hqueue =>
      obtain rfl := Option.some.inj (hst.symm.trans hst')
      exact ⟨by grind, .inr ⟨rfl, hqueue⟩⟩
  | tryRecvClosed hst' howner =>
      obtain rfl := Option.some.inj (hst.symm.trans hst')
      exact ⟨by simp [howner], .inr ⟨rfl, (hinv.placed stream st hst).disconnected howner⟩⟩

/-- The steps of the owner of one stream. -/
def Action.ofOwner (stream : Nat) : Action → Prop
  | .owner other | .returns other _ => other = stream
  | _ => False

theorem setStream_setStream (value value' : DeviceStream) :
    State.setStream { s with streams := s.setStream stream value } stream value' =
      s.setStream stream value' :=
  Function.update_idem ..

theorem leads_draining (hst : s.streams stream = some st) (howner : st.owner = .idle)
    (hcancel : st.cancel = none) (hsevered : ¬ s.SenderAlive stream) :
    (system transport).LeadsBy (Action.ofOwner stream) s
      { s with streams := s.setStream stream { st with owner := .draining } } := by
  refine .head (a := .owner stream) rfl (Step.recv hst howner hcancel) ?_
  refine .head (a := .owner stream) rfl
    (Step.pollClosed (Function.update_self ..) rfl hcancel hsevered) ?_
  exact .of_eq (by simp only [setStream_setStream])

theorem leads_drained (hst : s.streams stream = some st) (howner : st.owner = .idle)
    (hcancel : st.cancel = none) (hsevered : ¬ s.SenderAlive stream) :
    ∃ t st', (system transport).LeadsBy (Action.ofOwner stream) s t ∧
      t.streams stream = some st' ∧ st'.delivered = st.queued ∧ st'.owner = .idle ∧
      st'.cancel = none ∧ ¬ t.SenderAlive stream ∧ st'.queue = [] := by
  induction hqueue : st.queue generalizing s st with
  | nil =>
      refine ⟨s, st, .refl, hst, ?_, howner, hcancel, hsevered, hqueue⟩
      rw [DeviceStream.queued, hqueue, List.append_nil]
  | cons frame rest ih =>
      let middle : State :=
        { s with streams := s.setStream stream { st with owner := .draining } }
      have hpop : Step transport middle (.returns stream (.ok (some frame)))
          { middle with streams := middle.setStream stream (st.take frame rest) } :=
        @Step.pop transport middle stream { st with owner := .draining } frame rest
          (Function.update_self ..) (.inr (.inl rfl)) hqueue
      rw [setStream_setStream] at hpop
      obtain ⟨t, st', hruns, hst', hdelivered, hrest⟩ :=
        ih (s := { s with streams := s.setStream stream (st.take frame rest) })
          (Function.update_self ..) rfl hcancel hsevered rfl
      refine ⟨t, st', ?_, hst', ?_, hrest⟩
      · exact (leads_draining hst howner hcancel hsevered).trans
          (System.LeadsBy.head (a := .returns stream (.ok (some frame))) rfl hpop hruns)
      · rw [hdelivered]
        simp [DeviceStream.queued, DeviceStream.take, hqueue]

end Closing

section Isolation

variable {transport : DeviceTransport} {s t : State} {action : Action} {stream : Nat}
  {st : DeviceStream}

theorem setStream_of_ne {other : Nat} (hst : s.streams other = some st) (hne : other ≠ stream)
    (value : DeviceStream) : s.setStream stream value other = some st :=
  (Function.update_of_ne hne _ _).trans hst

/-- The reader keeps to the stream whose frame it has in hand. -/
theorem isolated (hinv : Inv s.routes s.streams s.reader)
    (hstep : Step transport s .reader t) {id : UInt32} (hsubject : s.reader.subject = some id) :
    (∀ stream st, s.streams stream = some st → st.id ≠ id → t.streams stream = some st) ∧
      ∀ other, other ≠ id → t.routes other = s.routes other := by
  have hheld : ∀ {stream other st}, s.reader.holds stream = true → s.streams other = some st →
      st.id ≠ id → other ≠ stream := by
    rintro stream other st hholds hst hne rfl
    rw [(hinv.placed other st hst).held hholds] at hsubject
    exact hne (Option.some.inj hsubject)
  cases hstep with
  | arm h | seeClosed h | shutdown h | readFails h | read h | signal h | clear h =>
      simp [h, Reader.subject] at hsubject
  | rejectUpdate | lookUpdate | strayUpdate | rejectCredit | strayCancel | look | stray
  | overflow | orphan => exact ⟨fun _ _ hst _ => hst, fun _ _ => rfl⟩
  | @credit id' other bytes st flow credit hreader hst hflow =>
      obtain rfl : id' = id := by simpa [hreader, Reader.subject] using hsubject
      obtain ⟨st', _, hst', hid, _⟩ := hinv.crediting _ _ _ hreader
      obtain rfl := Option.some.inj (hst.symm.trans hst')
      refine ⟨?_, fun _ _ => rfl⟩
      intro stream st'' hst'' hne
      apply setStream_of_ne hst''
      rintro rfl
      obtain rfl := Option.some.inj (hst.symm.trans hst'')
      exact hne hid
  | cancel hreader | deliver hreader =>
      refine ⟨?_, fun _ _ => rfl⟩
      intro stream st hst hne
      exact setStream_of_ne hst (hheld (by simp [hreader, Reader.holds]) hst hne) _
  | lookCancel hreader | removeFull hreader | removeOrphan hreader =>
      refine ⟨fun _ _ hst _ => hst, ?_⟩
      intro other hne
      simp only [hreader, Reader.subject, Option.some.injEq] at hsubject
      subst hsubject
      exact Function.update_of_ne hne _ _

/-- How many steps of its own a frame in hand takes the reader at most. -/
def Reader.rank : Reader → Nat
  | .looking _ => 4
  | .routed _ _ => 3
  | .full _ _ => 2
  | .orphaned _ _ | .canceling _ _ _ | .crediting _ _ _ => 1
  | _ => 0

theorem advances_of_looking {frame : Frame} (hreader : s.reader = .looking frame) :
    ∃ t, Step transport s .reader t ∧ t.reader.rank < 4 := by
  by_cases hrouted : isRouted frame = true
  · cases hroute : s.routes frame.streamId with
    | none => exact ⟨_, .stray hreader hrouted hroute, by simp [Reader.rank]⟩
    | some stream => exact ⟨_, .look hreader hrouted hroute, by simp [Reader.rank]⟩
  have hkind : frame.kind = .streamWindowUpdate ∨ frame.kind = .streamCancel := by
    simp only [isRouted, Bool.and_eq_true, bne_iff_ne, not_and_or, not_not] at hrouted
    exact hrouted
  rcases hkind with hkind | hkind
  · cases hsupported : transport.supportsFlowControl with
    | false => exact ⟨_, .rejectUpdate hreader hkind (.inl hsupported), by simp [Reader.rank]⟩
    | true =>
      cases hdecode : transport.decodeUpdate frame.payload with
      | error error =>
          exact ⟨_, .rejectUpdate hreader hkind (.inr ⟨error, hdecode⟩), by simp [Reader.rank]⟩
      | ok bytes =>
          by_cases hflow : ∃ stream st, s.routes frame.streamId = some stream ∧
              s.streams stream = some st ∧ st.flow ≠ none
          · obtain ⟨stream, st, hroute, hst, hflow⟩ := hflow
            exact ⟨_, .lookUpdate hreader hkind hsupported hdecode hroute hst hflow,
              by simp [Reader.rank]⟩
          · push Not at hflow
            exact ⟨_, .strayUpdate hreader hkind hsupported hdecode hflow, by simp [Reader.rank]⟩
  · cases hroute : s.routes frame.streamId with
    | none => exact ⟨_, .strayCancel hreader hkind hroute, by simp [Reader.rank]⟩
    | some stream => exact ⟨_, .lookCancel hreader hkind hroute, by simp [Reader.rank]⟩

theorem advances_of_routed (hinv : Inv s.routes s.streams s.reader) {frame : Frame}
    (hreader : s.reader = .routed frame stream) :
    ∃ t, Step transport s .reader t ∧ t.reader.rank < 3 := by
  obtain ⟨st, hst⟩ := hinv.held stream (by simp [hreader, Reader.holds])
  by_cases howner : st.owner = .dropped
  · exact ⟨_, .orphan hreader hst howner, by simp [Reader.rank]⟩
  by_cases hroom : st.queue.length < routeCapacity
  · exact ⟨_, .deliver hreader hst howner hroom, by simp [Reader.rank]⟩
  · exact ⟨_, .overflow hreader hst howner (by omega), by simp [Reader.rank]⟩

variable (transport) in
/-- Whatever the owners do, the reader gets on with a frame in hand. -/
theorem reader_advances (hinv : Inv s.routes s.streams s.reader)
    (hsubject : s.reader.subject ≠ none) :
    ∃ t, Step transport s .reader t ∧ t.reader.rank < s.reader.rank := by
  cases hreader : s.reader with
  | top | selecting | stopping | clearing | ended => simp [hreader, Reader.subject] at hsubject
  | looking frame => exact advances_of_looking hreader
  | routed frame stream => exact advances_of_routed hinv hreader
  | full id stream => exact ⟨_, .removeFull hreader, by simp [Reader.rank]⟩
  | orphaned id stream => exact ⟨_, .removeOrphan hreader, by simp [Reader.rank]⟩
  | canceling id stream reason =>
      obtain ⟨st, hst⟩ := hinv.held stream (by simp [hreader, Reader.holds])
      exact ⟨_, .cancel hreader hst, by simp [Reader.rank]⟩
  | crediting id stream bytes =>
      obtain ⟨st, flow, hst, _, hflow⟩ := hinv.crediting id stream bytes hreader
      cases hadd : flow.add bytes.toNat with
      | ok credit => exact ⟨_, .credit hreader hst hflow hadd, by simp [Reader.rank]⟩
      | error message => exact ⟨_, .rejectCredit hreader hst hflow hadd, by simp [Reader.rank]⟩

theorem leads_through (hinv : Inv s.routes s.streams s.reader) :
    ∃ t, (system transport).LeadsBy (· = .reader) s t ∧ t.reader.subject = none := by
  induction hrank : s.reader.rank using Nat.strong_induction_on generalizing s with
  | _ rank ih =>
      by_cases hsubject : s.reader.subject = none
      · exact ⟨s, .refl, hsubject⟩
      · obtain ⟨t, hstep, hless⟩ := reader_advances transport hinv hsubject
        obtain ⟨u, hruns, hthrough⟩ := ih _ (hrank ▸ hless) (hinv.step hstep) rfl
        exact ⟨u, .head (a := .reader) rfl hstep hruns, hthrough⟩

end Isolation

section Ending

variable {transport : DeviceTransport} {s t : State} {action : Action}

/-- How the reader leaves the transport behind. -/
structure Left (s : State) : Prop where
  closed : s.reader = .clearing ∨ s.reader = .ended → s.closed = true
  routes : s.reader = .ended → ∀ id, s.routes id = none

theorem Left.step (h : Left s) (hstep : Step transport s action t) : Left t := by
  cases hstep with
  | enter | draw | drawZero | refuse | collide | recv | pollClosed | pollPending | park | abandon
  | tryRecv | tryEmpty | tryDisconnected | pop | canceled | recvClosed | tryRecvClosed
  | takeCredit | dropQueue => exact ⟨h.closed, h.routes⟩
  | register hdrawn hopen =>
      refine ⟨h.closed, ?_⟩
      intro hended
      have hclosed := h.closed (.inr hended)
      simp [hopen] at hclosed
  | drop =>
      refine ⟨h.closed, ?_⟩
      intro hended id
      by_contra hroute
      obtain ⟨stream, hstream⟩ := Option.ne_none_iff_exists'.mp hroute
      have hbefore := (of_update_none hstream).2
      simp [h.routes hended id] at hbefore
  | close | writerEnds => exact ⟨fun _ => rfl, h.routes⟩
  | closeRoutes => exact ⟨h.closed, fun _ _ => rfl⟩
  | arm | seeClosed | shutdown | readFails | read | rejectUpdate | lookUpdate | strayUpdate
  | credit | rejectCredit | lookCancel | strayCancel | cancel | look | stray | deliver
  | overflow | orphan | removeFull | removeOrphan => exact ⟨by simp, nofun⟩
  | signal => exact ⟨fun _ => rfl, nofun⟩
  | clear hreader => exact ⟨fun _ => h.closed (.inl hreader), fun _ _ => rfl⟩

theorem left_of_reachable (h : (system transport).Reachable s) : Left s := by
  refine h.invariant ?_ fun _ _ _ => Left.step
  rintro s rfl
  exact ⟨by simp [State.initial], nofun⟩

theorem not_senderAlive_of_ended (h : (system transport).Reachable s)
    (hended : s.reader = .ended) (stream : Nat) : ¬ s.SenderAlive stream := by
  rintro (⟨id, hroute⟩ | hholds)
  · simp [(left_of_reachable h).routes hended id] at hroute
  · simp [hended, Reader.holds] at hholds

end Ending

/-- What holds of the streams of a transport in whatever state it comes to. -/
structure Sound (transport : DeviceTransport) (s : State) : Prop where
  inOrder : ∀ stream st, s.streams stream = some st →
    st.delivered <+: st.early ++ st.arrived ∧ st.early.length ≤ 1 ∧
      ∀ frame ∈ st.early ++ st.arrived, isRouted frame = true ∧ frame.streamId = st.id
  cut : ∀ stream st, s.streams stream = some st → Cut s stream st →
    ∀ t, (system transport).Leads s t →
      ∃ st', t.streams stream = some st' ∧ st'.delivered <+: st.delivered ++ st.queue
  canceled : ∀ stream st, s.streams stream = some st → st.cancel ≠ none →
    st.owner.calling = false → ∀ t, (system transport).Leads s t →
      ∃ st', t.streams stream = some st' ∧ st'.delivered = st.delivered
  ended : s.reader = .ended → ∀ stream, ¬ s.SenderAlive stream
  closed : ∀ stream st, s.streams stream = some st → st.cancel = none →
    ¬ s.SenderAlive stream → ∀ t u error, (system transport).Leads s t →
      Step transport t (.returns stream (.error error)) u → error = .closed ∧
        ∃ st', t.streams stream = some st' ∧ st'.delivered = st.delivered ++ st.queue
  drained : ∀ stream st, s.streams stream = some st → st.cancel = none →
    ¬ s.SenderAlive stream → st.owner = .idle →
      ∃ t st', (system transport).LeadsBy (Action.ofOwner stream) s t ∧
        t.streams stream = some st' ∧ st'.delivered = st.delivered ++ st.queue
  isolated : ∀ t id, Step transport s .reader t → s.reader.subject = some id →
    (∀ stream st, s.streams stream = some st → st.id ≠ id → t.streams stream = some st) ∧
      ∀ other, other ≠ id → t.routes other = s.routes other
  neverBlocks : ∃ t, (system transport).LeadsBy (· = .reader) s t ∧ t.reader.subject = none

/-- Delivery is in order, ends with a cancellation, survives a close, and is the business of
one stream. -/
theorem streams_sound (transport : DeviceTransport) {s : State}
    (h : (system transport).Reachable s) : Sound transport s where
  inOrder stream st hst := by
    have hplaced := (inv_of_reachable h).placed stream st hst
    exact ⟨(List.prefix_append _ _).trans hplaced.behind, hplaced.early, hplaced.tagged⟩
  cut _ _ hst hcut _ hruns := leads_of_cut h hruns hst hcut
  canceled _ _ hst hcancel hidle _ hruns := leads_of_canceled hruns hst hcancel hidle
  ended := not_senderAlive_of_ended h
  closed stream st hst hcancel hsevered t u error hruns hstep := by
    obtain ⟨st', hst', hnone, _, hqueued⟩ := leads_of_severed hruns hst hcancel hsevered
    obtain ⟨hdropped, ⟨reason, _, hreason⟩ | ⟨herror, hqueue⟩⟩ :=
      returns_error (inv_of_reachable (h.leads hruns)) hstep hst'
    · simp [hnone] at hreason
    · refine ⟨herror, st', hst', ?_⟩
      rcases hqueued with hqueued | hgone
      · simpa [DeviceStream.queued, hqueue] using hqueued
      · exact absurd hgone hdropped
  drained _ _ hst hcancel hsevered howner := by
    obtain ⟨t, st', hruns, hst', hdelivered, _⟩ := leads_drained hst howner hcancel hsevered
    exact ⟨t, st', hruns, hst', hdelivered⟩
  isolated _ _ hstep hsubject := isolated (inv_of_reachable h) hstep hsubject
  neverBlocks := leads_through (inv_of_reachable h)

/-! A peer may send a frame for a stream before it is opened. -/

def plainTransport : DeviceTransport := ⟨false, fun _ => .error "unexpected end of input"⟩

def earlyFrame : Frame := ⟨.ptyOutput, 1, [104, 105]⟩

/-- The reader has read a frame, then its stream is opened, and then it looks for the route. -/
theorem exists_early :
    ∃ s st, (system plainTransport).Reachable s ∧ s.streams 0 = some st ∧
      st.delivered = [earlyFrame] ∧ st.arrived = [] := by
  have hread := (System.Leads.single (M := system plainTransport)
    (@Step.arm _ .initial rfl rfl)).tail (@Step.read _ _ earlyFrame rfl)
  have hopened := ((hread.tail (Step.enter rfl)).tail (Step.draw rfl (by decide))).tail
    (@Step.register _ _ 1 0 List.mem_cons_self rfl rfl rfl)
  have hqueued := (hopened.tail (Step.look rfl rfl rfl)).tail
    (@Step.deliver _ _ _ 0 _ rfl rfl (by decide) (by decide))
  have hpolled := (hqueued.tail (@Step.recv _ _ 0 _ rfl rfl rfl)).tail
    (@Step.pollPending _ _ 0 _ rfl rfl rfl (.inl ⟨1, rfl⟩))
  have hpopped := hpolled.tail (@Step.pop _ _ 0 _ _ _ rfl (.inl rfl) rfl)
  exact ⟨_, _, ⟨_, rfl, hpopped⟩, rfl, rfl, rfl⟩

theorem streams_sound_early :
    ∃ s st, s.streams 0 = some st ∧ st.delivered = [earlyFrame] ∧ Sound plainTransport s := by
  obtain ⟨s, st, hreach, hst, hdelivered, _⟩ := exists_early
  exact ⟨s, st, hst, hdelivered, streams_sound plainTransport hreach⟩

/-- What is handed out may begin with a frame that was read before the stream was opened. -/
theorem early_not_arrived :
    ¬ ∀ s, (system plainTransport).Reachable s → ∀ stream st, s.streams stream = some st →
      st.delivered <+: st.arrived := by
  intro h
  obtain ⟨s, st, hreach, hst, hdelivered, harrived⟩ := exists_early
  have hprefix := h s hreach 0 st hst
  rw [hdelivered, harrived] at hprefix
  simp at hprefix

end SideWire.StreamRoutes
