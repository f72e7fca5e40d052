import SideWire.StreamIsolation

/-!
`open_stream` against the closing of its transport, with the lock of the routes: a call looks
at the flag and at the routes while it has the lock, but the flag is set without it.
-/

namespace SideWire.StreamClosing

open SideWire.TransitionSystem
open SideWire.StreamRoutes

/-- The call of `open_stream` that has the lock of the routes has still to look at the flag,
or has found it unset. -/
inductive Locked
  | entered (id : UInt32)
  | admitted (id : UInt32)
  deriving DecidableEq

def Locked.id : Locked → UInt32
  | .entered id | .admitted id => id

/-- A drawn id stays among the drawn ones while its call has the lock. -/
structure State where
  transport : StreamRoutes.State
  lock : Option Locked

def State.initial : State := ⟨.initial, none⟩

/-- Besides `open_stream`, these steps take the lock of the routes: to look a route up, to
remove one, and to clear them. An update that is rejected has not been looked up. -/
def TakesLock (s t : StreamRoutes.State) : Action → Prop
  | .closer => t.closing < s.closing
  | .reader =>
      match s.reader with
      | .looking _ => t.reader ≠ .stopping
      | .full _ _ | .orphaned _ _ | .clearing => True
      | _ => False
  | .owner stream => ∃ st, t.streams stream = some st ∧ st.owner = .dropping
  | .opener | .returns _ _ => False

section Model

variable (transport : DeviceTransport)

inductive Step : State → Action → State → Prop
  -- `open_stream`
  | enter {s} (hopen : s.transport.closed = false) :
      Step s .opener { s with
        transport := { s.transport with drawing := s.transport.drawing + 1 } }
  | draw {s count} (hdrawing : s.transport.drawing = count + 1)
      (hzero : s.transport.nextStreamId ≠ 0) :
      Step s .opener { s with
        transport := { s.transport with
          drawing := count, drawn := s.transport.nextStreamId :: s.transport.drawn
          nextStreamId := s.transport.nextStreamId + 1 } }
  | drawZero {s count} (hdrawing : s.transport.drawing = count + 1)
      (hzero : s.transport.nextStreamId = 0) :
      Step s .opener { s with
        transport := { s.transport with nextStreamId := s.transport.nextStreamId + 1 } }
  | lock {s id} (hdrawn : id ∈ s.transport.drawn) (hlock : s.lock = none) :
      Step s .opener { s with lock := some (.entered id) }
  | refuse {s id} (hlock : s.lock = some (.entered id)) (hclosed : s.transport.closed = true) :
      Step s .opener
        ⟨{ s.transport with drawn := s.transport.drawn.erase id }, none⟩
  | pass {s id} (hlock : s.lock = some (.entered id)) (hopen : s.transport.closed = false) :
      Step s .opener { s with lock := some (.admitted id) }
  | collide {s id} (hlock : s.lock = some (.admitted id)) (hused : s.transport.routes id ≠ none) :
      Step s .opener
        ⟨{ s.transport with
            drawn := s.transport.drawn.erase id, drawing := s.transport.drawing + 1 }, none⟩
  | insert {s id stream} (hlock : s.lock = some (.admitted id))
      (hfree : s.transport.routes id = none) (hfresh : s.transport.streams stream = none) :
      Step s .opener
        ⟨{ s.transport with
            drawn := s.transport.drawn.erase id
            routes := s.transport.setRoute id (some stream)
            streams := s.transport.setStream stream
              (.new transport id (s.transport.reader.inHand id)) }, none⟩
  -- all else
  | other {s a t} (ha : a ≠ .opener) (hstep : StreamRoutes.Step transport s.transport a t)
      (hlock : TakesLock s.transport t a → s.lock = none) :
      Step s a { s with transport := t }

def system : System State Action where
  init := fun s => s = .initial
  step := Step transport

end Model

section Steps

variable {transport : DeviceTransport} {s t : StreamRoutes.State} {a : Action} {stream : Nat}
  {st value : DeviceStream}

theorem clearing_of_ended (hstep : StreamRoutes.Step transport s a t)
    (hended : t.reader = .ended) : s.reader = .ended ∨ (s.reader = .clearing ∧ a = .reader) := by
  cases hstep with
  | clear hreader => exact .inr ⟨hreader, rfl⟩
  | arm | seeClosed | shutdown | readFails | read | rejectUpdate | lookUpdate | strayUpdate
  | credit | rejectCredit | lookCancel | strayCancel | cancel | look | stray | deliver
  | overflow | orphan | removeFull | removeOrphan | signal => exact nomatch hended
  | _ => exact .inl hended

theorem ended_of_step (hstep : StreamRoutes.Step transport s a t) (hended : s.reader = .ended) :
    t.reader = .ended := by
  by_cases hreader : a = .reader
  · subst hreader
    cases hstep with
    | arm h | seeClosed h | shutdown h | readFails h | read h | rejectUpdate h | lookUpdate h
    | strayUpdate h | credit h | rejectCredit h | lookCancel h | strayCancel h | cancel h | look h
    | stray h | deliver h | overflow h | orphan h | removeFull h | removeOrphan h | signal h
    | clear h => simp [hended] at h
  · exact (reader_of_step hstep hreader).trans hended

theorem drawn_of_step (hstep : StreamRoutes.Step transport s a t) (ha : a ≠ .opener) :
    t.drawn = s.drawn := by
  cases hstep <;> first | rfl | exact absurd rfl ha

/-- There are finitely many streams. -/
def Bounded (streams : Nat → Option DeviceStream) : Prop :=
  ∃ bound, ∀ stream, bound ≤ stream → streams stream = none

theorem Bounded.set (h : Bounded s.streams) (stream : Nat) (value : DeviceStream) :
    Bounded (s.setStream stream value) := by
  obtain ⟨bound, hbound⟩ := h
  refine ⟨max bound (stream + 1), ?_⟩
  intro other hle
  have hne : other ≠ stream := by omega
  exact (Function.update_of_ne hne _ _).trans (hbound other (by omega))

theorem Bounded.step (h : Bounded s.streams) (hstep : StreamRoutes.Step transport s a t) :
    Bounded t.streams := by
  cases hstep with
  | register | recv | pollClosed | pollPending | park | abandon | tryRecv | tryEmpty
  | tryDisconnected | pop | canceled | recvClosed | tryRecvClosed | takeCredit | drop | dropQueue
  | credit | cancel | deliver => exact h.set _ _
  | read =>
      obtain ⟨bound, hbound⟩ := h
      exact ⟨bound, fun stream hle => by simp [StreamRoutes.State.arrive, hbound stream hle]⟩
  | _ => exact h

end Steps

structure Inv (s : State) : Prop where
  transport : StreamRoutes.Inv s.transport.routes s.transport.streams s.transport.reader
  left : Left s.transport
  locked : ∀ locked, s.lock = some locked → locked.id ∈ s.transport.drawn
  admitted : ∀ id, s.lock = some (.admitted id) → s.transport.reader ≠ .ended
  bounded : Bounded s.transport.streams

section Invariant

variable {transport : DeviceTransport} {s t : State} {a : Action}

theorem inv_initial : Inv .initial where
  transport := ⟨nofun, nofun, nofun, nofun⟩
  left := ⟨by simp [State.initial, StreamRoutes.State.initial], nofun⟩
  locked := nofun
  admitted := nofun
  bounded := ⟨0, fun _ _ => rfl⟩

theorem inv_unlocked {u : StreamRoutes.State}
    (htransport : StreamRoutes.Inv u.routes u.streams u.reader) (hleft : Left u)
    (hbounded : Bounded u.streams) : Inv ⟨u, none⟩ where
  transport := htransport
  left := hleft
  locked := nofun
  admitted := nofun
  bounded := hbounded

theorem Inv.other (h : Inv s) {u : StreamRoutes.State} (ha : a ≠ .opener)
    (hstep : StreamRoutes.Step transport s.transport a u)
    (hlock : TakesLock s.transport u a → s.lock = none) : Inv { s with transport := u } where
  transport := h.transport.step hstep
  left := h.left.step hstep
  locked locked hlocked := by
    rw [drawn_of_step hstep ha]
    exact h.locked locked hlocked
  admitted id hadmitted hended := by
    rcases clearing_of_ended hstep hended with hbefore | ⟨hclearing, rfl⟩
    · exact h.admitted id hadmitted hbefore
    · have htakes : TakesLock s.transport u .reader := by simp [TakesLock, hclearing]
      exact nomatch hadmitted.symm.trans (hlock htakes)
  bounded := h.bounded.step hstep

theorem Inv.step (h : Inv s) (hstep : Step transport s a t) : Inv t := by
  cases hstep with
  | enter | drawZero =>
      exact ⟨h.transport, ⟨h.left.closed, h.left.routes⟩, h.locked, h.admitted, h.bounded⟩
  | draw =>
      exact ⟨h.transport, ⟨h.left.closed, h.left.routes⟩,
        fun locked hlocked => List.mem_cons_of_mem _ (h.locked locked hlocked), h.admitted,
        h.bounded⟩
  | @lock id hdrawn =>
      refine ⟨h.transport, h.left, ?_, nofun, h.bounded⟩
      rintro _ ⟨⟩
      exact hdrawn
  | refuse | collide =>
      exact inv_unlocked h.transport ⟨h.left.closed, h.left.routes⟩ h.bounded
  | @pass id hlock hopen =>
      refine ⟨h.transport, h.left, ?_, ?_, h.bounded⟩
      · rintro _ ⟨⟩
        exact h.locked (.entered id) hlock
      · intro _ _ hended
        exact nomatch hopen.symm.trans (h.left.closed (.inr hended))
  | @insert id stream hlock hfree hfresh =>
      refine inv_unlocked (h.transport.register transport hfree hfresh) ⟨h.left.closed, ?_⟩
        (h.bounded.set _ _)
      intro hended
      exact absurd hended (h.admitted id hlock)
  | other ha hstep hlock => exact h.other ha hstep hlock

theorem inv_of_reachable (h : (system transport).Reachable s) : Inv s := by
  refine h.invariant ?_ fun _ _ _ => Inv.step
  rintro s rfl
  exact inv_initial

end Invariant

section Ending

variable {transport : DeviceTransport} {s t : State} {a : Action} {stream : Nat}
  {st : DeviceStream}

theorem leads_of_ended (hinv : Inv s) (hended : s.transport.reader = .ended)
    (hstep : Step transport s a t) :
    (StreamRoutes.system transport).Leads s.transport t.transport ∧
      t.transport.reader = .ended := by
  have hclosed := hinv.left.closed (.inr hended)
  cases hstep with
  | enter hopen | pass _ hopen => exact nomatch hopen.symm.trans hclosed
  | draw hdrawing hzero => exact ⟨.single (.draw hdrawing hzero), hended⟩
  | drawZero hdrawing hzero => exact ⟨.single (.drawZero hdrawing hzero), hended⟩
  | lock => exact ⟨.refl, hended⟩
  | refuse hlock => exact ⟨.single (.refuse (hinv.locked _ hlock) hclosed), hended⟩
  | collide hlock | insert hlock => exact absurd hended (hinv.admitted _ hlock)
  | other ha hstep => exact ⟨.single hstep, ended_of_step hstep hended⟩

theorem leads_transport (hinv : Inv s) (hended : s.transport.reader = .ended)
    (h : (system transport).Leads s t) :
    Inv t ∧ t.transport.reader = .ended ∧
      (StreamRoutes.system transport).Leads s.transport t.transport := by
  refine h.preserves (P := fun u => Inv u ∧ u.transport.reader = .ended ∧
    (StreamRoutes.system transport).Leads s.transport u.transport) ?_ ⟨hinv, hended, .refl⟩
  rintro u a v ⟨hinv', hended', hruns⟩ hstep
  obtain ⟨hnext, hended''⟩ := leads_of_ended hinv' hended' hstep
  exact ⟨hinv'.step hstep, hended'', hruns.trans hnext⟩

theorem Inv.severed (h : Inv s) (hended : s.transport.reader = .ended) (stream : Nat) :
    ¬ s.transport.SenderAlive stream := by
  rintro (⟨id, hroute⟩ | hholds)
  · exact nomatch (h.left.routes hended id).symm.trans hroute
  · simp [hended, Reader.holds] at hholds

theorem of_setStream {u : StreamRoutes.State} {other : Nat} {value st' : DeviceStream}
    (h : u.setStream stream value other = some st') :
    (other = stream ∧ value = st') ∨ u.streams other = some st' := by
  rcases eq_or_ne other stream with rfl | hne
  · rw [StreamRoutes.State.setStream, Function.update_self, Option.some.injEq] at h
    exact .inl ⟨rfl, h⟩
  · exact .inr ((Function.update_of_ne hne _ _).symm.trans h)

theorem senderAlive_of_park {u v : StreamRoutes.State} {st' : DeviceStream}
    (hstep : StreamRoutes.Step transport u a v) (hst : u.streams stream = some st)
    (hst' : v.streams stream = some st') (hpolled : st.owner = .polled)
    (hsleeps : st'.owner = .receiving) : u.SenderAlive stream := by
  have hkept : u.streams stream ≠ some st' := by
    intro hsame
    obtain rfl := Option.some.inj (hst.symm.trans hsame)
    exact nomatch hpolled.symm.trans hsleeps
  cases hstep with
  | park hother _ _ hsender =>
      rcases of_setStream hst' with ⟨rfl, _⟩ | hsame
      · exact hsender
      · exact absurd hsame hkept
  | recv hother howner =>
      rcases of_setStream hst' with ⟨rfl, _⟩ | hsame
      · obtain rfl := Option.some.inj (hst.symm.trans hother)
        exact nomatch hpolled.symm.trans howner
      · exact absurd hsame hkept
  | pollClosed | pollPending | abandon | tryRecv | tryEmpty | tryDisconnected | pop
  | canceled | recvClosed | tryRecvClosed | drop | dropQueue =>
      rcases of_setStream hst' with ⟨_, rfl⟩ | hsame
      · exact nomatch hsleeps
      · exact absurd hsame hkept
  | takeCredit hother | credit _ hother | cancel _ hother | deliver _ hother =>
      rcases of_setStream hst' with ⟨rfl, rfl⟩ | hsame
      · obtain rfl := Option.some.inj (hst.symm.trans hother)
        exact nomatch hpolled.symm.trans hsleeps
      · exact absurd hsame hkept
  | register _ _ _ hfresh =>
      rcases of_setStream hst' with ⟨rfl, _⟩ | hsame
      · exact nomatch hfresh.symm.trans hst
      · exact absurd hsame hkept
  | read =>
      obtain ⟨st'', hst'', rfl⟩ := arrive_eq_some hst'
      obtain rfl := Option.some.inj (hst.symm.trans hst'')
      split_ifs at hsleeps <;> exact nomatch hpolled.symm.trans hsleeps
  | _ => exact absurd hst' hkept

theorem returns_cases {u v : StreamRoutes.State}
    (hinv : StreamRoutes.Inv u.routes u.streams u.reader) (hst : u.streams stream = some st)
    (hcancel : st.cancel = none) (hsevered : ¬ u.SenderAlive stream)
    {result : Except RecvError (Option FrameCodec.Frame)}
    (hstep : StreamRoutes.Step transport u (.returns stream result) v) :
    (∃ frame rest, result = .ok (some frame) ∧ st.queue = frame :: rest ∧
      v.streams stream = some (st.take frame rest)) ∨
    (result = .error .closed ∧ st.queue = []) := by
  cases hstep with
  | tryEmpty _ _ _ hsender => exact absurd hsender hsevered
  | pop hst' _ hqueue =>
      obtain rfl := Option.some.inj (hst.symm.trans hst')
      exact .inl ⟨_, _, rfl, hqueue, Function.update_self ..⟩
  | canceled hst' _ hreason =>
      obtain rfl := Option.some.inj (hst.symm.trans hst')
      exact nomatch hcancel.symm.trans hreason
  | recvClosed hst' _ hqueue =>
      obtain rfl := Option.some.inj (hst.symm.trans hst')
      exact .inr ⟨rfl, hqueue⟩
  | tryRecvClosed hst' howner =>
      obtain rfl := Option.some.inj (hst.symm.trans hst')
      exact .inr ⟨rfl, (hinv.placed stream st hst).disconnected howner⟩

theorem returns_canceled {u v : StreamRoutes.State} {reason : CancelReason}
    (hst : u.streams stream = some st) (hcancel : st.cancel = some reason)
    (howner : st.owner = .idle) {result : Except RecvError (Option FrameCodec.Frame)}
    (hstep : StreamRoutes.Step transport u (.returns stream result) v) :
    result = .error (.canceled reason) := by
  cases hstep with
  | canceled hst' _ hreason =>
      obtain rfl := Option.some.inj (hst.symm.trans hst')
      rw [Option.some.inj (hcancel.symm.trans hreason)]
  | tryEmpty hst' hother | tryRecvClosed hst' hother =>
      obtain rfl := Option.some.inj (hst.symm.trans hst')
      exact nomatch howner.symm.trans hother
  | pop hst' hother =>
      obtain rfl := Option.some.inj (hst.symm.trans hst')
      simp [howner] at hother
  | recvClosed hst' hother =>
      obtain rfl := Option.some.inj (hst.symm.trans hst')
      simp [howner] at hother

end Ending

section Calls

variable {transport : DeviceTransport} {s : State} {stream : Nat} {st : DeviceStream}

theorem step_of_owner {value : DeviceStream}
    (hstep : StreamRoutes.Step transport s.transport (.owner stream)
      { s.transport with streams := s.transport.setStream stream value })
    (hvalue : value.owner ≠ .dropping) :
    Step transport s (.owner stream)
      ⟨{ s.transport with streams := s.transport.setStream stream value }, s.lock⟩ := by
  refine .other nofun hstep ?_
  rintro ⟨st, hst, hdropping⟩
  simp only [StreamRoutes.State.setStream, Function.update_self, Option.some.injEq] at hst
  exact absurd (hst ▸ hdropping) hvalue

theorem step_of_returns {u : StreamRoutes.State}
    {result : Except RecvError (Option FrameCodec.Frame)}
    (hstep : StreamRoutes.Step transport s.transport (.returns stream result) u) :
    Step transport s (.returns stream result) { s with transport := u } :=
  .other nofun hstep False.elim

/-- A call of `recv` returns by steps of its own. -/
def Returns (transport : DeviceTransport) (s : State) (stream : Nat) : Prop :=
  ∃ t u result, (system transport).LeadsBy (Action.ofOwner stream) s t ∧
    Step transport t (.returns stream result) u

theorem returns_of_step {u : StreamRoutes.State}
    (hstep : Step transport s (.owner stream) ⟨u, s.lock⟩)
    (h : Returns transport ⟨u, s.lock⟩ stream) : Returns transport s stream := by
  obtain ⟨t, v, result, hruns, hreturns⟩ := h
  exact ⟨t, v, result, .head (a := .owner stream) rfl hstep hruns, hreturns⟩

theorem Returns.canceled {reason : CancelReason} (hst : s.transport.streams stream = some st)
    (howner : st.owner = .idle ∨ st.owner = .receiving) (hcancel : st.cancel = some reason) :
    Returns transport s stream := by
  refine ⟨s, _, _, .refl, step_of_returns (.canceled hst ?_ hcancel)⟩
  exact howner.imp id .inl

theorem Returns.polled (hst : s.transport.streams stream = some st)
    (howner : st.owner = .polled ∨ st.owner = .draining)
    (hsevered : ¬ s.transport.SenderAlive stream) : Returns transport s stream := by
  cases hqueue : st.queue with
  | nil => exact ⟨s, _, _, .refl, step_of_returns (.recvClosed hst howner hqueue hsevered)⟩
  | cons frame rest =>
      exact ⟨s, _, _, .refl, step_of_returns (.pop hst (howner.imp id .inl) hqueue)⟩

theorem Returns.receiving (hst : s.transport.streams stream = some st)
    (howner : st.owner = .receiving) (hsevered : ¬ s.transport.SenderAlive stream) :
    Returns transport s stream := by
  cases hcancel : st.cancel with
  | some reason => exact .canceled hst (.inr howner) hcancel
  | none =>
      have hstep : Step transport s (.owner stream) _ :=
        step_of_owner (.pollClosed hst howner hcancel hsevered) nofun
      exact returns_of_step hstep (.polled (Function.update_self ..) (.inr rfl) hsevered)

theorem Returns.idle (hst : s.transport.streams stream = some st) (howner : st.owner = .idle)
    (hsevered : ¬ s.transport.SenderAlive stream) : Returns transport s stream := by
  cases hcancel : st.cancel with
  | some reason => exact .canceled hst (.inl howner) hcancel
  | none =>
      have hstep : Step transport s (.owner stream) _ :=
        step_of_owner (.recv hst howner hcancel) nofun
      exact returns_of_step hstep (.receiving (Function.update_self ..) rfl hsevered)

end Calls

section Opening

variable {transport : DeviceTransport} {s t : State} {id : UInt32}

/-- The calls of `open_stream` that have passed the first check of the flag. -/
def pending (s : StreamRoutes.State) : Nat := s.drawing + s.drawn.length

/-- One of these calls ends, by steps of such calls alone. -/
def Ends (transport : DeviceTransport) (s : State) : Prop :=
  ∃ t, (system transport).LeadsBy (· = .opener) s t ∧
    pending t.transport + 1 = pending s.transport

theorem ends_of_leads (hruns : (system transport).LeadsBy (· = .opener) s t)
    (hpending : pending t.transport = pending s.transport) (h : Ends transport t) :
    Ends transport s := by
  obtain ⟨u, hruns', hpending'⟩ := h
  exact ⟨u, hruns.trans hruns', hpending'.trans hpending⟩

theorem pending_erase {u : StreamRoutes.State} (hmem : id ∈ u.drawn) :
    u.drawing + (u.drawn.erase id).length + 1 = pending u := by
  have hpos := List.length_pos_of_mem hmem
  rw [pending, List.length_erase_of_mem hmem]
  omega

theorem ends_of_entered (hinv : Inv s) (hlock : s.lock = some (.entered id))
    (hclosed : s.transport.closed = true) : Ends transport s :=
  ⟨_, .head (a := .opener) rfl (.refuse hlock hclosed) .refl,
    pending_erase (hinv.locked _ hlock)⟩

theorem ends_of_admitted (hinv : Inv s) (hlock : s.lock = some (.admitted id))
    (hfree : s.transport.routes id = none) : Ends transport s := by
  obtain ⟨bound, hbound⟩ := hinv.bounded
  exact ⟨_, .head (a := .opener) rfl (.insert hlock hfree (hbound bound le_rfl)) .refl,
    pending_erase (hinv.locked _ hlock)⟩

/-- The call with the lock draws again. -/
structure Collides (transport : DeviceTransport) (id : UInt32) (s t : State) : Prop where
  runs : (system transport).LeadsBy (· = .opener) s t
  inv : Inv t
  used : s.transport.routes id ≠ none
  unset : s.lock = some (.entered id) → s.transport.closed = false
  eq : t = ⟨{ s.transport with
    drawn := s.transport.drawn.erase id, drawing := s.transport.drawing + 1 }, none⟩

theorem ends_or_collides (hinv : Inv s) {locked : Locked} (hlock : s.lock = some locked) :
    Ends transport s ∨ ∃ t, Collides transport locked.id s t := by
  have hadmitted : ∀ {u : State} {id : UInt32}, Inv u → u.lock = some (.admitted id) →
      Ends transport u ∨ ∃ t, Collides transport id u t := by
    intro u id hinv hlock
    cases hroute : u.transport.routes id with
    | none => exact .inl (ends_of_admitted hinv hlock hroute)
    | some stream =>
        have hused : u.transport.routes id ≠ none := by simp [hroute]
        have hstep : Step transport u .opener _ := .collide hlock hused
        refine .inr ⟨_, .head (a := .opener) rfl hstep .refl, hinv.step hstep, hused, ?_, rfl⟩
        intro hentered
        exact nomatch hlock.symm.trans hentered
  cases locked with
  | admitted id => exact hadmitted hinv hlock
  | entered id =>
      cases hclosed : s.transport.closed with
      | true => exact .inl (ends_of_entered hinv hlock hclosed)
      | false =>
          have hstep : Step transport s .opener _ := .pass hlock hclosed
          have hruns : (system transport).LeadsBy (· = .opener) s _ :=
            .head (a := .opener) rfl hstep .refl
          rcases hadmitted (hinv.step hstep) rfl with hends | ⟨t, hcollides⟩
          · exact .inl (ends_of_leads hruns rfl hends)
          · exact .inr ⟨t, hruns.trans hcollides.runs, hcollides.inv, hcollides.used,
              fun _ => hclosed, hcollides.eq⟩

theorem distance_succ {next : UInt32} (hne : next ≠ id) :
    (id - (next + 1)).toNat + 1 = (id - next).toNat := by
  have hne' : next.toNat ≠ id.toNat := fun heq => hne (UInt32.toNat_inj.mp heq)
  have hid := id.toNat_lt
  have hnext := next.toNat_lt
  simp only [UInt32.toNat_sub, UInt32.toNat_add, UInt32.reduceToNat]
  omega

/-- How far the openers are from a free id. -/
def distance (id : UInt32) (s : State) : Nat :=
  2 * (id - s.transport.nextStreamId).toNat + s.transport.drawn.length

theorem Collides.distance_lt {x : UInt32} (h : Collides transport x s t)
    (hmem : x ∈ s.transport.drawn) : distance id t < distance id s := by
  have hpos := List.length_pos_of_mem hmem
  have hless : (s.transport.drawn.erase x).length < s.transport.drawn.length := by
    rw [List.length_erase_of_mem hmem]
    omega
  rw [h.eq]
  exact Nat.add_lt_add_left hless _

theorem leads_entered (transport : DeviceTransport) {count : Nat} (hinv : Inv s)
    (hlock : s.lock = none) (hdrawn : s.transport.drawn = [])
    (hcount : s.transport.drawing = count + 1) (hzero : s.transport.nextStreamId ≠ 0) :
    ∃ t, (system transport).LeadsBy (· = .opener) s t ∧ Inv t ∧
      t.lock = some (.entered s.transport.nextStreamId) ∧
      pending t.transport = pending s.transport ∧ t.transport.closed = s.transport.closed ∧
      t.transport.routes = s.transport.routes ∧
      t.transport.drawn = [s.transport.nextStreamId] ∧
      t.transport.nextStreamId = s.transport.nextStreamId + 1 := by
  let drawn : State := { s with transport := { s.transport with
    drawing := count, drawn := s.transport.nextStreamId :: s.transport.drawn
    nextStreamId := s.transport.nextStreamId + 1 } }
  have hdraw : Step transport s .opener drawn := .draw hcount hzero
  have hstep : Step transport drawn .opener _ := .lock List.mem_cons_self hlock
  have hsame : pending drawn.transport = pending s.transport := by
    simp [pending, drawn, hcount, hdrawn]
  exact ⟨_, .head (a := .opener) rfl hdraw (.head (a := .opener) rfl hstep .refl),
    (hinv.step hdraw).step hstep, rfl, hsame, rfl, rfl, by simp [drawn, hdrawn], rfl⟩

/-- A call ends once the transport is closed, or while an id is left. The calls try the ids
one after the other, and those that collide come closer to that id. -/
theorem ends_of_free (hinv : Inv s) (hid : id ≠ 0)
    (hfree : s.transport.closed = true ∨ s.transport.routes id = none)
    (hpending : 0 < pending s.transport) : Ends transport s := by
  induction hdistance : distance id s using Nat.strong_induction_on generalizing s with
  | _ bound ih =>
  subst hdistance
  have hagain : ∀ {u v : State} {x : UInt32},
      (system transport).LeadsBy (· = .opener) s u → pending u.transport = pending s.transport →
      u.transport.closed = s.transport.closed → u.transport.routes = s.transport.routes →
      x ∈ u.transport.drawn → Collides transport x u v → distance id v < distance id s →
      Ends transport s := by
    intro u v x hruns hsame hclosed hroutes hmem hcollides hless
    have hsame' : pending v.transport = pending u.transport := by
      rw [← pending_erase hmem, hcollides.eq, pending]
      simp only
      omega
    refine ends_of_leads (hruns.trans hcollides.runs) (hsame'.trans hsame)
      (ih _ hless hcollides.inv ?_ (by omega) rfl)
    rw [hcollides.eq]
    simpa only [hclosed, hroutes] using hfree
  cases hlock : s.lock with
  | some locked =>
      rcases ends_or_collides hinv hlock with hends | ⟨t, hcollides⟩
      · exact hends
      · have hmem := hinv.locked locked hlock
        exact hagain .refl rfl rfl rfl hmem hcollides (hcollides.distance_lt hmem)
  | none =>
      cases hdrawn : s.transport.drawn with
      | cons x rest =>
          have hmem : x ∈ s.transport.drawn := by simp [hdrawn]
          have hstep : Step transport s .opener _ := .lock hmem hlock
          have hruns : (system transport).LeadsBy (· = .opener) s _ :=
            .head (a := .opener) rfl hstep .refl
          rcases ends_or_collides (hinv.step hstep) rfl with hends | ⟨t, hcollides⟩
          · exact ends_of_leads hruns rfl hends
          · have hless : distance id t < distance id s := hcollides.distance_lt hmem
            exact hagain hruns rfl rfl rfl hmem hcollides hless
      | nil =>
          have hdrawing : s.transport.drawing ≠ 0 := by
            rw [pending, hdrawn, List.length_nil] at hpending
            omega
          obtain ⟨count, hcount⟩ := Nat.exists_eq_succ_of_ne_zero hdrawing
          by_cases hzero : s.transport.nextStreamId = 0
          · have hstep : Step transport s .opener _ := .drawZero hcount hzero
            have hne : s.transport.nextStreamId ≠ id := hzero.symm ▸ hid.symm
            have hcloser := distance_succ hne
            refine ends_of_leads (.head (a := .opener) rfl hstep .refl) rfl
              (ih _ ?_ (hinv.step hstep) hfree hpending rfl)
            simp only [distance]
            omega
          · obtain ⟨u, hruns, hinv', hlock', hsame, hclosed, hroutes, hdrawn', hnext⟩ :=
              leads_entered transport hinv hlock hdrawn hcount hzero
            rcases ends_or_collides hinv' hlock' with hends | ⟨t, hcollides⟩
            · exact ends_of_leads hruns hsame hends
            · have hnone : s.transport.routes id = none :=
                hfree.resolve_left (by simp [← hclosed, hcollides.unset hlock'])
              have hne : s.transport.nextStreamId ≠ id := by
                rintro rfl
                exact hcollides.used (hroutes ▸ hnone)
              have hcloser := distance_succ hne
              refine hagain hruns hsame hclosed hroutes (by simp [hdrawn', Locked.id]) hcollides ?_
              rw [hcollides.eq]
              simp only [distance, Locked.id, hdrawn', hnext, hdrawn, List.erase_cons_head,
                List.length_nil]
              omega

end Opening

/-- What becomes of a call of `open_stream`: it fails because the transport is closed, or
returns a stream, and it does so while there is an id that has no route. -/
structure Opens (transport : DeviceTransport) (s : State) : Prop where
  outcome : ∀ t, Step transport s .opener t → pending t.transport < pending s.transport →
    (s.transport.closed = true ∧ t.transport.routes = s.transport.routes ∧
      t.transport.streams = s.transport.streams) ∨
    ∃ stream st, s.transport.streams stream = none ∧ t.transport.streams stream = some st ∧
      st.owner = .idle ∧ t.transport.routes st.id = some stream
  ends : ∀ id, id ≠ 0 → (s.transport.closed = true ∨ s.transport.routes id = none) →
    0 < pending s.transport → Ends transport s

/-- What holds of a transport from the end of its reader on. A stream that has not been
canceled hands out its queue and then an error, one that has been canceled the reason at
once, and `recv` does not wait. -/
structure Settled (transport : DeviceTransport) (s : State) : Prop where
  closed : s.transport.closed = true
  routes : ∀ id, s.transport.routes id = none
  severed : ∀ stream, ¬ s.transport.SenderAlive stream
  neverWaits : ∀ a t stream st st', Step transport s a t →
    s.transport.streams stream = some st → t.transport.streams stream = some st' →
    st.owner = .polled → st'.owner ≠ .receiving
  returns : ∀ stream st, s.transport.streams stream = some st →
    st.owner = .idle ∨ st.owner = .receiving ∨ st.owner = .polled ∨ st.owner = .draining →
    Returns transport s stream
  queued : ∀ stream st, s.transport.streams stream = some st → st.cancel = none →
    ∀ t, (system transport).Leads s t → ∃ st', t.transport.streams stream = some st' ∧
      (st'.delivered ++ st'.queue = st.delivered ++ st.queue ∨ st'.owner = .dropped) ∧
      ∀ result u, Step transport t (.returns stream result) u →
        (∃ frame rest, result = .ok (some frame) ∧ st'.queue = frame :: rest ∧
          u.transport.streams stream = some (st'.take frame rest)) ∨
        (result = .error .closed ∧ st'.queue = [])
  canceled : ∀ stream st reason, s.transport.streams stream = some st →
    st.cancel = some reason → st.owner = .idle →
    (∃ t, Step transport s (.returns stream (.error (.canceled reason))) t) ∧
      ∀ result t, Step transport s (.returns stream result) t → result = .error (.canceled reason)

section Closing

variable {transport : DeviceTransport} {s : State}

theorem Inv.opens (h : Inv s) : Opens transport s where
  outcome t hstep hless := by
    cases hstep with
    | enter | draw hdrawing =>
        simp only [pending, List.length_cons] at hless
        omega
    | drawZero | lock | pass => exact absurd hless (lt_irrefl _)
    | refuse _ hclosed => exact .inl ⟨hclosed, rfl, rfl⟩
    | collide hlock =>
        have hsame := pending_erase (h.locked _ hlock)
        simp only [pending, Locked.id] at hless hsame
        omega
    | insert _ _ hfresh =>
        exact .inr ⟨_, _, hfresh, Function.update_self .., rfl, Function.update_self ..⟩
    | other ha => exact absurd rfl ha
  ends _ hid hfree := ends_of_free h hid hfree

theorem Inv.settled (h : Inv s) (hended : s.transport.reader = .ended) :
    Settled transport s where
  closed := h.left.closed (.inr hended)
  routes := h.left.routes hended
  severed := h.severed hended
  neverWaits a t stream st st' hstep hst hst' hpolled hsleeps := by
    cases hstep with
    | other _ hstep =>
        exact h.severed hended stream (senderAlive_of_park hstep hst hst' hpolled hsleeps)
    | insert hlock => exact h.admitted _ hlock hended
    | enter | draw | drawZero | lock | refuse | pass | collide =>
        obtain rfl := Option.some.inj (hst.symm.trans hst')
        exact nomatch hpolled.symm.trans hsleeps
  returns stream st hst howner := by
    have hsevered := h.severed hended stream
    rcases howner with howner | howner | howner
    · exact .idle hst howner hsevered
    · exact .receiving hst howner hsevered
    · exact .polled hst howner hsevered
  queued stream st hst hcancel t hruns := by
    obtain ⟨hinv, hended', hleads⟩ := leads_transport h hended hruns
    obtain ⟨st', hst', hcancel', hsevered, hqueued⟩ :=
      leads_of_severed hleads hst hcancel (h.severed hended stream)
    refine ⟨st', hst', hqueued, ?_⟩
    intro result u hstep
    cases hstep with
    | other _ hstep => exact returns_cases hinv.transport hst' hcancel' hsevered hstep
  canceled stream st reason hst hcancel howner := by
    refine ⟨⟨_, step_of_returns (.canceled hst (.inl howner) hcancel)⟩, ?_⟩
    intro result t hstep
    cases hstep with
    | other _ hstep => exact returns_canceled hst hcancel howner hstep

/-- A transport that closes leaves no call and no stream behind. -/
theorem closing_settles (h : (system transport).Reachable s) :
    Opens transport s ∧ (s.transport.reader = .ended →
      ∀ t, (system transport).Leads s t → Settled transport t) := by
  have hinv := inv_of_reachable h
  refine ⟨hinv.opens, ?_⟩
  intro hended t hruns
  obtain ⟨hinv', hended', _⟩ := leads_transport hinv hended hruns
  exact hinv'.settled hended'

end Closing

section Canceled

theorem reachable_other {transport : DeviceTransport} {t u : StreamRoutes.State} {a : Action}
    (hreach : (system transport).Reachable ⟨t, none⟩) (hstep : StreamRoutes.Step transport t a u)
    (ha : a ≠ .opener) : (system transport).Reachable ⟨u, none⟩ :=
  hreach.leads (.single (.other ha hstep fun _ => rfl))

theorem reachable_opened : (system plainTransport).Reachable
    ⟨{ StreamRoutes.State.initial with
      nextStreamId := 2
      routes := StreamRoutes.State.initial.setRoute 1 (some 0)
      streams := StreamRoutes.State.initial.setStream 0 (.new plainTransport 1 []) }, none⟩ := by
  have hdrawn : (system plainTransport).Leads .initial
      ⟨{ StreamRoutes.State.initial with nextStreamId := 2, drawn := [1] }, none⟩ :=
    System.Leads.head (.enter rfl) <| .single (.draw rfl (by decide))
  have hopened := ((hdrawn.tail (@Step.lock plainTransport _ 1 List.mem_cons_self rfl)).tail
    (.pass rfl rfl)).tail (@Step.insert plainTransport _ 1 0 rfl rfl rfl)
  exact ⟨_, rfl, hopened⟩

theorem closing_settles_opened :
    ∃ s, s.transport.reader = .ended ∧ Opens plainTransport s ∧ Settled plainTransport s := by
  have hfailed := reachable_other (reachable_other reachable_opened
    (@StreamRoutes.Step.arm _ _ rfl rfl) nofun) (@StreamRoutes.Step.readFails _ _ rfl) nofun
  have hended := reachable_other (reachable_other hfailed
    (@StreamRoutes.Step.signal _ _ rfl) nofun) (@StreamRoutes.Step.clear _ _ rfl) nofun
  obtain ⟨hopens, hsettled⟩ := closing_settles hended
  exact ⟨_, rfl, hopens, hsettled rfl _ .refl⟩

/-- So many streams have been opened, and all of them have their routes. -/
structure Filled (count : Nat) (s : StreamRoutes.State) : Prop where
  closed : s.closed = false
  drawing : s.drawing = 0
  drawn : s.drawn = []
  next : s.nextStreamId = UInt32.ofNat (count + 1)
  routes : ∀ id, s.routes id ≠ none ↔ 0 < id.toNat ∧ id.toNat ≤ count
  fresh : ∀ stream, count ≤ stream → s.streams stream = none

theorem Filled.next_stream {count : Nat} {s : StreamRoutes.State} (h : Filled count s)
    (hcount : count + 1 < 2 ^ 32) : ∃ t,
    (system plainTransport).Leads ⟨s, none⟩ ⟨t, none⟩ ∧ Filled (count + 1) t := by
  have htoNat : s.nextStreamId.toNat = count + 1 := by
    rw [h.next, UInt32.toNat_ofNat_of_lt' hcount]
  have hne : s.nextStreamId ≠ 0 := by
    intro hzero
    simp [hzero] at htoNat
  have hfree : s.routes s.nextStreamId = none := by
    by_contra hused
    have hle := ((h.routes _).mp hused).2
    omega
  have hdrawn : (system plainTransport).Leads ⟨s, none⟩
      ⟨{ s with
        drawing := s.drawing, drawn := s.nextStreamId :: s.drawn
        nextStreamId := s.nextStreamId + 1 }, none⟩ :=
    System.Leads.head (.enter h.closed) <| .single (.draw rfl hne)
  have hopened := ((hdrawn.tail (@Step.lock plainTransport _ _ List.mem_cons_self rfl)).tail
    (.pass rfl h.closed)).tail
      (@Step.insert plainTransport _ _ count rfl hfree (h.fresh count le_rfl))
  refine ⟨_, hopened, h.closed, h.drawing, (List.erase_cons_head ..).trans h.drawn, ?_, ?_, ?_⟩
  · change s.nextStreamId + 1 = _
    rw [h.next]
    exact (UInt32.ofNat_add (count + 1) 1).symm
  · intro id
    rcases eq_or_ne id s.nextStreamId with rfl | hother
    · simp [StreamRoutes.State.setRoute, htoNat]
    · have htoNat' : id.toNat ≠ s.nextStreamId.toNat := fun heq => hother (UInt32.toNat_inj.mp heq)
      simp only [StreamRoutes.State.setRoute, Function.update_of_ne hother]
      exact (h.routes id).trans (by omega)
  · intro stream hle
    have hother : stream ≠ count := by omega
    exact (Function.update_of_ne hother _ _).trans (h.fresh stream (by omega))

theorem exists_filled {count : Nat} (hcount : count < 2 ^ 32) :
    ∃ s, (system plainTransport).Reachable ⟨s, none⟩ ∧ Filled count s := by
  induction count with
  | zero =>
      refine ⟨.initial, ⟨_, rfl, .refl⟩, rfl, rfl, rfl, rfl, ?_, fun _ _ => rfl⟩
      intro id
      simp only [StreamRoutes.State.initial, ne_eq, not_true_eq_false, false_iff]
      omega
  | succ count ih =>
      obtain ⟨s, hreach, hfilled⟩ := ih (by omega)
      obtain ⟨t, hleads, hfilled'⟩ := hfilled.next_stream hcount
      exact ⟨t, hreach.leads hleads, hfilled'⟩

/-- Every id has a route, and the transport is open. -/
structure Exhausted (s : State) : Prop where
  closed : s.transport.closed = false
  routes : ∀ id, id ≠ 0 → s.transport.routes id ≠ none
  drawn : ∀ id ∈ s.transport.drawn, id ≠ 0
  locked : ∀ locked, s.lock = some locked → locked.id ∈ s.transport.drawn

theorem Exhausted.step {transport : DeviceTransport} {s t : State} (h : Exhausted s)
    (hstep : Step transport s .opener t) :
    Exhausted t ∧ pending s.transport ≤ pending t.transport := by
  cases hstep with
  | enter | drawZero =>
      exact ⟨⟨h.closed, h.routes, h.drawn, h.locked⟩, by simp only [pending]; omega⟩
  | draw hdrawing hzero =>
      refine ⟨⟨h.closed, h.routes, List.forall_mem_cons.mpr ⟨hzero, h.drawn⟩,
        fun locked hlocked => List.mem_cons_of_mem _ (h.locked locked hlocked)⟩, ?_⟩
      simp only [pending, List.length_cons]
      omega
  | @lock id hdrawn =>
      refine ⟨⟨h.closed, h.routes, h.drawn, ?_⟩, le_rfl⟩
      rintro _ ⟨⟩
      exact hdrawn
  | @pass id hlock =>
      refine ⟨⟨h.closed, h.routes, h.drawn, ?_⟩, le_rfl⟩
      rintro _ ⟨⟩
      exact h.locked (.entered id) hlock
  | refuse _ hclosed => exact nomatch h.closed.symm.trans hclosed
  | insert hlock hfree => exact absurd hfree (h.routes _ (h.drawn _ (h.locked _ hlock)))
  | collide hlock =>
      have hsame := pending_erase (h.locked _ hlock)
      refine ⟨⟨h.closed, h.routes, fun id hmem => h.drawn id (List.mem_of_mem_erase hmem),
        nofun⟩, ?_⟩
      simp only [pending, Locked.id] at hsame ⊢
      omega
  | other ha => exact absurd rfl ha

theorem Exhausted.not_ends {transport : DeviceTransport} {s : State} (h : Exhausted s) :
    ¬ Ends transport s := by
  rintro ⟨t, hruns, hpending⟩
  have hkept : Exhausted t ∧ pending s.transport ≤ pending t.transport := by
    clear hpending
    induction hruns with
    | refl => exact ⟨h, le_rfl⟩
    | tail _ hnext ih =>
        obtain ⟨a, rfl, hstep⟩ := hnext
        obtain ⟨hexhausted, hle⟩ := ih.1.step hstep
        exact ⟨hexhausted, ih.2.trans hle⟩
  omega

/-- While every id has a route, a call of `open_stream` goes on forever. -/
theorem exists_exhausted : ∃ s, (system plainTransport).Reachable s ∧ 0 < pending s.transport ∧
    ¬ Ends plainTransport s := by
  obtain ⟨s, hreach, h⟩ := @exists_filled (2 ^ 32 - 1) (by decide)
  have hentered := hreach.leads (.single (.enter h.closed))
  refine ⟨_, hentered, by simp [pending], Exhausted.not_ends ⟨h.closed, ?_, ?_, nofun⟩⟩
  · intro id hid
    have hpos : id.toNat ≠ 0 := fun hzero => hid (UInt32.toNat_inj.mp hzero)
    have hlt := id.toNat_lt
    exact (h.routes id).mpr (by omega)
  · simp [h.drawn]

/-- A frame is queued, the device cancels the stream, and the connection ends: `recv` returns
the reason, and the frame stays in the queue. -/
theorem exists_canceled :
    ∃ s t st, (system plainTransport).Reachable s ∧ s.transport.reader = .ended ∧
      Step plainTransport s (.returns 0 (.error (.canceled (.remote [])))) t ∧
      t.transport.streams 0 = some st ∧ st.queue = [earlyFrame] ∧ st.delivered = [] := by
  have hread := reachable_other (reachable_other reachable_opened
    (@StreamRoutes.Step.arm _ _ rfl rfl) nofun)
    (@StreamRoutes.Step.read plainTransport _ earlyFrame rfl) nofun
  have hqueued := reachable_other (reachable_other hread
    (@StreamRoutes.Step.look _ _ _ 0 rfl rfl rfl) nofun)
    (@StreamRoutes.Step.deliver _ _ _ 0 _ rfl rfl (by decide) (by decide)) nofun
  have hread' := reachable_other (reachable_other hqueued
    (@StreamRoutes.Step.arm _ _ rfl rfl) nofun)
    (@StreamRoutes.Step.read plainTransport _ ⟨.streamCancel, 1, []⟩ rfl) nofun
  have hcanceled := reachable_other (reachable_other hread'
    (@StreamRoutes.Step.lookCancel _ _ _ 0 rfl rfl rfl) nofun)
    (@StreamRoutes.Step.cancel _ _ _ 0 _ _ rfl rfl) nofun
  have hfailed := reachable_other (reachable_other hcanceled
    (@StreamRoutes.Step.arm _ _ rfl rfl) nofun) (@StreamRoutes.Step.readFails _ _ rfl) nofun
  have hended := reachable_other (reachable_other hfailed
    (@StreamRoutes.Step.signal _ _ rfl) nofun) (@StreamRoutes.Step.clear _ _ rfl) nofun
  exact ⟨_, _, _, hended, rfl, step_of_returns (.canceled rfl (.inl rfl) rfl), rfl, rfl, rfl⟩

theorem canceled_and_exhausted :
    (∃ s t st, (system plainTransport).Reachable s ∧ s.transport.reader = .ended ∧
      Step plainTransport s (.returns 0 (.error (.canceled (.remote [])))) t ∧
      t.transport.streams 0 = some st ∧ st.queue = [earlyFrame] ∧ st.delivered = []) ∧
    ∃ s, (system plainTransport).Reachable s ∧ 0 < pending s.transport ∧
      ¬ Ends plainTransport s :=
  ⟨exists_canceled, exists_exhausted⟩

end Canceled

end SideWire.StreamClosing
