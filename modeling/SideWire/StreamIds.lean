import SideWire.StreamIsolation

/-!
The ids of the streams of a `DeviceTransport`, over runs in which the counter may wrap, with
the `StreamCancel` frames that `Drop for DeviceStream` spawns. Those that an overflow spawns
are left out. Draws of the counter are numbered, without wrapping.
-/

namespace SideWire.StreamIds

open SideWire.TransitionSystem
open SideWire.StreamRoutes

/-- A `DeviceStream` has not been dropped. -/
def held : Owner → Bool
  | .dropping | .dropped => false
  | _ => true

/-- A stream that is alive, and its id. -/
def Alive (streams : Nat → Option DeviceStream) (stream : Nat) (id : UInt32) : Prop :=
  ∃ st, streams stream = some st ∧ held st.owner = true ∧ st.id = id

/-- The id that so many earlier draws leave to the next one. -/
def idOf (draw : Nat) : UInt32 := UInt32.ofNat (draw + 1)

/-- So many ids have been drawn. The draws in `pending` are those of calls of `open_stream` that
have still to look at the routes, `drawn stream` is the last draw of the id of a stream that has
been settled by such a look, and those in `cancels` are the draws of streams that
`send_stream_cancel` has been spawned for, and has not sent yet. -/
structure State where
  transport : StreamRoutes.State
  draws : Nat
  pending : List Nat
  drawn : Nat → Nat
  cancels : List Nat

def State.initial : State := ⟨.initial, 0, [], fun _ => 0, []⟩

inductive Action
  | draw
  | settle
  | opens (id : UInt32)
  | drop (stream : Nat)
  | sendCancel (id : UInt32)
  | other

section Model

variable (transport : DeviceTransport) (supportsStreamCancel : Bool)

inductive Step : State → Action → State → Prop
  -- `fetch_add`
  | draw {s : State} {count : Nat} (hzero : s.transport.nextStreamId ≠ 0)
      (hstep : StreamRoutes.Step transport s.transport .opener { s.transport with
        drawing := count, drawn := s.transport.nextStreamId :: s.transport.drawn
        nextStreamId := s.transport.nextStreamId + 1 }) :
      Step s .draw { s with
        transport := { s.transport with
          drawing := count, drawn := s.transport.nextStreamId :: s.transport.drawn
          nextStreamId := s.transport.nextStreamId + 1 }
        draws := s.draws + 1, pending := s.draws :: s.pending }
  | drawZero {s : State} (hzero : s.transport.nextStreamId = 0)
      (hstep : StreamRoutes.Step transport s.transport .opener { s.transport with
        nextStreamId := s.transport.nextStreamId + 1 }) :
      Step s .draw { s with
        transport := { s.transport with nextStreamId := s.transport.nextStreamId + 1 }
        draws := s.draws + 1 }
  -- the rest of `open_stream`
  | refuse {s : State} {draw : Nat} (hpending : draw ∈ s.pending)
      (hstep : StreamRoutes.Step transport s.transport .opener { s.transport with
        drawn := s.transport.drawn.erase (idOf draw) }) :
      Step s .settle { s with
        transport := { s.transport with drawn := s.transport.drawn.erase (idOf draw) }
        pending := s.pending.erase draw }
  | collide {s : State} {draw stream : Nat} (hpending : draw ∈ s.pending)
      (hused : s.transport.routes (idOf draw) = some stream)
      (hstep : StreamRoutes.Step transport s.transport .opener { s.transport with
        drawn := s.transport.drawn.erase (idOf draw), drawing := s.transport.drawing + 1 }) :
      Step s .settle { s with
        transport := { s.transport with
          drawn := s.transport.drawn.erase (idOf draw), drawing := s.transport.drawing + 1 }
        pending := s.pending.erase draw, drawn := Function.update s.drawn stream draw }
  | opens {s : State} {draw stream : Nat} {value : DeviceStream} (hpending : draw ∈ s.pending)
      (hfree : s.transport.routes (idOf draw) = none)
      (hnew : s.transport.streams stream = none)
      (hvalue : value.id = idOf draw ∧ held value.owner = true)
      (hstep : StreamRoutes.Step transport s.transport .opener { s.transport with
        drawn := s.transport.drawn.erase (idOf draw)
        routes := s.transport.setRoute (idOf draw) (some stream)
        streams := s.transport.setStream stream value }) :
      Step s (.opens (idOf draw)) { s with
        transport := { s.transport with
          drawn := s.transport.drawn.erase (idOf draw)
          routes := s.transport.setRoute (idOf draw) (some stream)
          streams := s.transport.setStream stream value }
        pending := s.pending.erase draw, drawn := Function.update s.drawn stream draw }
  | drop {s : State} {stream : Nat} {st : DeviceStream}
      (hst : s.transport.streams stream = some st) (hheld : held st.owner = true)
      (hstep : StreamRoutes.Step transport s.transport (.owner stream) { s.transport with
        streams := s.transport.setStream stream { st with owner := .dropping }
        routes := s.transport.setRoute st.id none }) :
      Step s (.drop stream) { s with
        transport := { s.transport with
          streams := s.transport.setStream stream { st with owner := .dropping }
          routes := s.transport.setRoute st.id none }
        cancels := if st.completed = true then s.cancels else s.drawn stream :: s.cancels }
  -- a drop outside of a runtime
  | dropOutside {s : State} {stream : Nat} {st : DeviceStream}
      (hst : s.transport.streams stream = some st) (hheld : held st.owner = true)
      (hstep : StreamRoutes.Step transport s.transport (.owner stream) { s.transport with
        streams := s.transport.setStream stream { st with owner := .dropping }
        routes := s.transport.setRoute st.id none }) :
      Step s (.drop stream) { s with
        transport := { s.transport with
          streams := s.transport.setStream stream { st with owner := .dropping }
          routes := s.transport.setRoute st.id none } }
  -- all else
  | move {s : State} {a : StreamRoutes.Action} {t : StreamRoutes.State}
      (hstep : StreamRoutes.Step transport s.transport a t)
      (hsame : ∀ stream id, Alive t.streams stream id ↔ Alive s.transport.streams stream id)
      (hcounter : t.nextStreamId = s.transport.nextStreamId ∧ t.drawn = s.transport.drawn) :
      Step s .other { s with transport := t }
  -- `send_stream_cancel`, which gives up when the transport is closed or a write fails
  | sendCancel {s : State} {draw : Nat} (hsupported : supportsStreamCancel = true)
      (hcancel : draw ∈ s.cancels) :
      Step s (.sendCancel (idOf draw)) { s with cancels := s.cancels.erase draw }
  | giveUp {s : State} {draw : Nat} (hcancel : draw ∈ s.cancels) :
      Step s .other { s with cancels := s.cancels.erase draw }

def system : System State Action where
  init := fun s => s = .initial
  step := Step transport supportsStreamCancel

/-- No id is handed out twice, and a drop leaves the other streams alone. -/
structure Unambiguous (s : State) : Prop where
  nonzero : ∀ stream id, Alive s.transport.streams stream id → id ≠ 0
  distinct : ∀ id stream other, Alive s.transport.streams stream id →
    Alive s.transport.streams other id → stream = other
  drops : ∀ stream t, Step transport supportsStreamCancel s (.drop stream) t →
    ∀ id, t.transport.routes id = s.transport.routes id ∨
      s.transport.routes id = some stream
  cancels : ∀ id t, Step transport supportsStreamCancel s (.sendCancel id) t →
    ∀ stream, ¬ Alive s.transport.streams stream id

end Model

/-- The counter has not come round to an id again, fewer than 2^32 ids having been drawn since. -/
def Fresh (s : State) (draw : Nat) : Prop := s.draws ≤ draw + 2 ^ 32

/-- Nothing is left of an id without a route when the counter comes round to it: no stream that
is still held, no `StreamCancel` to be sent, and no call that is yet to look at the routes. -/
structure Recent (s : State) : Prop where
  pending : ∀ draw ∈ s.pending, Fresh s draw
  unrouted : ∀ stream id, Alive s.transport.streams stream id →
    s.transport.routes id ≠ some stream → Fresh s (s.drawn stream)
  cancels : ∀ draw ∈ s.cancels, Fresh s draw

section Streams

variable {transport : DeviceTransport} {s t : StreamRoutes.State} {a : StreamRoutes.Action}
  {stream other : Nat} {st value : DeviceStream} {id : UInt32}

theorem Alive.unique {id' : UInt32} (h : Alive s.streams stream id)
    (h' : Alive s.streams stream id') : id = id' := by
  obtain ⟨st, hst, _, rfl⟩ := h
  obtain ⟨st', hst', _, rfl⟩ := h'
  rw [Option.some.inj (hst.symm.trans hst')]

theorem alive_set_self :
    Alive (s.setStream stream value) stream id ↔ held value.owner = true ∧ value.id = id := by
  simp [Alive, StreamRoutes.State.setStream]

theorem alive_set_of_ne (hne : other ≠ stream) :
    Alive (s.setStream stream value) other id ↔ Alive s.streams other id := by
  simp [Alive, StreamRoutes.State.setStream, Function.update_of_ne hne]

theorem alive_set (hst : s.streams stream = some st) (hid : value.id = st.id)
    (hheld : held value.owner = held st.owner) :
    Alive (s.setStream stream value) other id ↔ Alive s.streams other id := by
  by_cases heq : other = stream
  · subst heq
    rw [alive_set_self, hid, hheld]
    simp [Alive, hst]
  · exact alive_set_of_ne heq

theorem alive_arrive {frame : FrameCodec.Frame} :
    Alive (s.arrive frame) other id ↔ Alive s.streams other id := by
  constructor
  · rintro ⟨st, hst, hheld, rfl⟩
    obtain ⟨st', hst', rfl⟩ := arrive_eq_some hst
    refine ⟨st', hst', ?_, ?_⟩
    · split_ifs at hheld <;> exact hheld
    · split_ifs <;> rfl
  · rintro ⟨st, hst, hheld, rfl⟩
    refine ⟨_, arrive_of_eq hst, ?_, ?_⟩
    · split_ifs <;> exact hheld
    · split_ifs <;> rfl

theorem alive_of_route (h : StreamRoutes.Inv s.routes s.streams s.reader)
    (hroute : s.routes id = some stream) : Alive s.streams stream id := by
  obtain ⟨st, hst, rfl⟩ := h.registered id stream hroute
  refine ⟨st, hst, ?_, rfl⟩
  have hdropped := (h.placed stream st hst).dropped
  cases howner : st.owner with
  | dropping => exact absurd hroute (hdropped (.inl howner))
  | dropped => exact absurd hroute (hdropped (.inr howner))
  | idle | receiving | polled | draining | trying | disconnected => rfl

end Streams

theorem idOf_inj {s : State} {first second : Nat} (hfirst : Fresh s first)
    (hsecond : Fresh s second) (hfirst' : first < s.draws) (hsecond' : second < s.draws)
    (h : idOf first = idOf second) : first = second := by
  have hmod : (first + 1) % 2 ^ 32 = (second + 1) % 2 ^ 32 := by
    simpa [idOf] using congrArg UInt32.toNat h
  unfold Fresh at hfirst hsecond
  omega

structure Inv (s : State) : Prop where
  transport : StreamRoutes.Inv s.transport.routes s.transport.streams s.transport.reader
  counter : s.transport.nextStreamId = idOf s.draws
  listed : (s.pending.map idOf).Perm s.transport.drawn
  pending : ∀ draw ∈ s.pending, draw < s.draws ∧ idOf draw ≠ 0
  once : s.pending.Nodup
  streams : ∀ stream id, Alive s.transport.streams stream id → id = idOf (s.drawn stream) ∧
    id ≠ 0 ∧ s.drawn stream < s.draws ∧ s.drawn stream ∉ s.pending
  distinct : ∀ id stream other, Alive s.transport.streams stream id →
    Alive s.transport.streams other id → stream = other
  cancels : ∀ draw ∈ s.cancels, draw < s.draws ∧ draw ∉ s.pending ∧
    ∀ stream, ¬ Alive s.transport.streams stream (idOf draw)

section Invariant

variable {transport : DeviceTransport} {supportsStreamCancel : Bool} {s t : State}
  {draw stream : Nat}

theorem inv_initial : Inv .initial where
  transport := ⟨nofun, nofun, nofun, nofun⟩
  counter := rfl
  listed := .nil
  pending := nofun
  once := .nil
  streams := by rintro _ _ ⟨_, hst, _⟩; exact nomatch hst
  distinct := by rintro _ _ _ ⟨_, hst, _⟩; exact nomatch hst
  cancels := nofun

theorem Inv.listed_erase (h : Inv s) (hpending : draw ∈ s.pending) :
    ((s.pending.erase draw).map idOf).Perm (s.transport.drawn.erase (idOf draw)) := by
  have hsplit : (s.pending.map idOf).Perm (idOf draw :: (s.pending.erase draw).map idOf) :=
    (List.perm_cons_erase hpending).map idOf
  have herased := (hsplit.symm.trans h.listed).erase (idOf draw)
  rwa [List.erase_cons_head] at herased

theorem Inv.draws (h : Inv s) {u : StreamRoutes.State} {pending : List Nat}
    (htransport : StreamRoutes.Inv u.routes u.streams u.reader)
    (hstreams : u.streams = s.transport.streams)
    (hcounter : u.nextStreamId = s.transport.nextStreamId + 1)
    (hlisted : (pending.map idOf).Perm u.drawn)
    (hpending : ∀ draw ∈ pending, draw ∈ s.pending ∨ draw = s.draws ∧ idOf draw ≠ 0)
    (honce : pending.Nodup) :
    Inv { s with transport := u, draws := s.draws + 1, pending := pending } where
  transport := htransport
  counter := by
    rw [hcounter, h.counter]
    exact (UInt32.ofNat_add (s.draws + 1) 1).symm
  listed := hlisted
  pending draw hmem := by
    rcases hpending draw hmem with hold | ⟨rfl, hzero⟩
    · exact ⟨Nat.lt_succ_of_lt (h.pending draw hold).1, (h.pending draw hold).2⟩
    · exact ⟨Nat.lt_succ_self _, hzero⟩
  once := honce
  streams stream id hstream := by
    rw [hstreams] at hstream
    obtain ⟨hid, hzero, hless, hapart⟩ := h.streams stream id hstream
    refine ⟨hid, hzero, Nat.lt_succ_of_lt hless, fun hmem => ?_⟩
    rcases hpending _ hmem with hold | ⟨heq, -⟩
    · exact hapart hold
    · exact Nat.ne_of_lt hless heq
  distinct id stream other hstream hother :=
    h.distinct id stream other (hstreams ▸ hstream) (hstreams ▸ hother)
  cancels draw hmem := by
    obtain ⟨hless, hapart, hnone⟩ := h.cancels draw hmem
    refine ⟨Nat.lt_succ_of_lt hless, fun hpend => ?_, fun stream hstream => ?_⟩
    · rcases hpending _ hpend with hold | ⟨heq, -⟩
      · exact hapart hold
      · exact Nat.ne_of_lt hless heq
    · exact hnone stream (hstreams ▸ hstream)

theorem Inv.settle (h : Inv s) {u : StreamRoutes.State} {drawn : Nat → Nat}
    (htransport : StreamRoutes.Inv u.routes u.streams u.reader)
    (hstreams : u.streams = s.transport.streams)
    (hcounter : u.nextStreamId = s.transport.nextStreamId)
    (hlisted : u.drawn = s.transport.drawn.erase (idOf draw)) (hpending : draw ∈ s.pending)
    (hdrawn : ∀ stream id, Alive s.transport.streams stream id →
      drawn stream = s.drawn stream ∨ drawn stream = draw ∧ id = idOf draw) :
    Inv { s with transport := u, pending := s.pending.erase draw, drawn := drawn } where
  transport := htransport
  counter := hcounter.trans h.counter
  listed := hlisted ▸ h.listed_erase hpending
  pending draw hmem := h.pending draw (List.mem_of_mem_erase hmem)
  once := h.once.erase draw
  streams stream id hstream := by
    rw [hstreams] at hstream
    obtain ⟨hid, hzero, hless, hapart⟩ := h.streams stream id hstream
    rcases hdrawn stream id hstream with hsame | ⟨hdraw, hid'⟩
    · dsimp only
      rw [hsame]
      exact ⟨hid, hzero, hless, fun hmem => hapart (List.mem_of_mem_erase hmem)⟩
    · dsimp only
      rw [hdraw]
      exact ⟨hid', hzero, (h.pending draw hpending).1, h.once.not_mem_erase⟩
  distinct id stream other hstream hother :=
    h.distinct id stream other (hstreams ▸ hstream) (hstreams ▸ hother)
  cancels draw hmem := by
    obtain ⟨hless, hapart, hnone⟩ := h.cancels draw hmem
    exact ⟨hless, fun hpend => hapart (List.mem_of_mem_erase hpend),
      fun stream hstream => hnone stream (hstreams ▸ hstream)⟩

/-- An id that `open_stream` finds no route for is neither that of a stream that is still held,
nor that of a cancellation that is still to be sent. -/
theorem Inv.unused (h : Inv s) (hrecent : Recent s) (hpending : draw ∈ s.pending)
    (hfree : s.transport.routes (idOf draw) = none) :
    (∀ stream, ¬ Alive s.transport.streams stream (idOf draw)) ∧
      ∀ other ∈ s.cancels, idOf other ≠ idOf draw := by
  have hless := (h.pending draw hpending).1
  have hfresh := hrecent.pending draw hpending
  constructor
  · intro stream hstream
    obtain ⟨hid, -, hless', hapart⟩ := h.streams stream _ hstream
    have hunrouted : s.transport.routes (idOf draw) ≠ some stream := by
      rw [hfree]
      exact nofun
    have hfresh' := hrecent.unrouted stream _ hstream hunrouted
    exact hapart (idOf_inj hfresh hfresh' hless hless' hid ▸ hpending)
  · intro other hmem hid
    obtain ⟨hless', hapart, -⟩ := h.cancels other hmem
    exact hapart (idOf_inj (hrecent.cancels other hmem) hfresh hless' hless hid ▸ hpending)

theorem Inv.opens (h : Inv s) (hrecent : Recent s) {value : DeviceStream}
    (hpending : draw ∈ s.pending) (hfree : s.transport.routes (idOf draw) = none)
    (hnew : s.transport.streams stream = none)
    (hvalue : value.id = idOf draw ∧ held value.owner = true)
    (htransport : StreamRoutes.Inv (s.transport.setRoute (idOf draw) (some stream))
      (s.transport.setStream stream value) s.transport.reader) :
    Inv { s with
      transport := { s.transport with
        drawn := s.transport.drawn.erase (idOf draw)
        routes := s.transport.setRoute (idOf draw) (some stream)
        streams := s.transport.setStream stream value }
      pending := s.pending.erase draw, drawn := Function.update s.drawn stream draw } := by
  obtain ⟨hnone, hcancels⟩ := h.unused hrecent hpending hfree
  have hback : ∀ other id, Alive (s.transport.setStream stream value) other id →
      other = stream ∧ id = idOf draw ∨ other ≠ stream ∧ Alive s.transport.streams other id := by
    intro other id hother
    by_cases heq : other = stream
    · subst heq
      exact .inl ⟨rfl, (alive_set_self.mp hother).2.symm.trans hvalue.1⟩
    · exact .inr ⟨heq, (alive_set_of_ne heq).mp hother⟩
  refine ⟨htransport, h.counter, h.listed_erase hpending,
    fun other hmem => h.pending other (List.mem_of_mem_erase hmem), h.once.erase draw,
    fun other id hother => ?_, fun id first second hfirst hsecond => ?_, fun other hmem => ?_⟩
  · rcases hback other id hother with ⟨rfl, rfl⟩ | ⟨hne, hold⟩
    · dsimp only
      rw [Function.update_self]
      exact ⟨rfl, (h.pending draw hpending).2, (h.pending draw hpending).1,
        h.once.not_mem_erase⟩
    · dsimp only
      rw [Function.update_of_ne hne]
      obtain ⟨hid, hzero, hless, hapart⟩ := h.streams other id hold
      exact ⟨hid, hzero, hless, fun hmem => hapart (List.mem_of_mem_erase hmem)⟩
  · rcases hback first id hfirst with ⟨rfl, rfl⟩ | ⟨-, hfirst'⟩
    · rcases hback second _ hsecond with ⟨rfl, -⟩ | ⟨-, hsecond'⟩
      · rfl
      · exact absurd hsecond' (hnone second)
    · rcases hback second id hsecond with ⟨rfl, rfl⟩ | ⟨-, hsecond'⟩
      · exact absurd hfirst' (hnone first)
      · exact h.distinct id first second hfirst' hsecond'
  · obtain ⟨hless, hapart, halive⟩ := h.cancels other hmem
    refine ⟨hless, fun hpend => hapart (List.mem_of_mem_erase hpend), fun first hfirst => ?_⟩
    rcases hback first _ hfirst with ⟨-, hid⟩ | ⟨-, hfirst⟩
    · exact hcancels other hmem hid
    · exact halive first hfirst

theorem Inv.drop (h : Inv s) {st : DeviceStream}
    (hst : s.transport.streams stream = some st) (hheld : held st.owner = true)
    (htransport : StreamRoutes.Inv (s.transport.setRoute st.id none)
      (s.transport.setStream stream { st with owner := .dropping }) s.transport.reader)
    {cancels : List Nat} (hcancels : ∀ draw ∈ cancels, draw = s.drawn stream ∨ draw ∈ s.cancels) :
    Inv { s with
      transport := { s.transport with
        streams := s.transport.setStream stream { st with owner := .dropping }
        routes := s.transport.setRoute st.id none }
      cancels := cancels } := by
  have halive : Alive s.transport.streams stream st.id := ⟨st, hst, hheld, rfl⟩
  have hback : ∀ other id,
      Alive (s.transport.setStream stream { st with owner := .dropping }) other id →
        other ≠ stream ∧ Alive s.transport.streams other id := by
    intro other id hother
    have hne : other ≠ stream := by
      rintro rfl
      simp [alive_set_self, held] at hother
    exact ⟨hne, (alive_set_of_ne hne).mp hother⟩
  refine ⟨htransport, h.counter, h.listed, h.pending, h.once,
    fun other id hother => h.streams other id (hback other id hother).2,
    fun id first second hfirst hsecond =>
      h.distinct id first second (hback first id hfirst).2 (hback second id hsecond).2,
    fun draw hmem => ?_⟩
  rcases hcancels draw hmem with rfl | hmem
  · obtain ⟨hid, -, hless, hapart⟩ := h.streams stream st.id halive
    refine ⟨hless, hapart, fun other hother => ?_⟩
    obtain ⟨hne, hold⟩ := hback other _ hother
    exact hne (h.distinct st.id other stream (hid ▸ hold) halive)
  · obtain ⟨hless, hapart, hnone⟩ := h.cancels draw hmem
    exact ⟨hless, hapart, fun other hother => hnone other (hback other _ hother).2⟩

theorem Inv.step {a : Action} (h : Inv s) (hrecent : Recent s)
    (hstep : Step transport supportsStreamCancel s a t) : Inv t := by
  cases hstep with
  | draw hzero hstep =>
      refine h.draws (h.transport.step hstep) rfl rfl ?_ ?_ ?_
      · rw [List.map_cons, ← h.counter]
        exact h.listed.cons _
      · intro draw hmem
        rcases List.mem_cons.mp hmem with rfl | hmem
        · exact .inr ⟨rfl, h.counter ▸ hzero⟩
        · exact .inl hmem
      · exact List.nodup_cons.mpr ⟨fun hmem => Nat.lt_irrefl _ (h.pending _ hmem).1, h.once⟩
  | drawZero hzero hstep =>
      exact h.draws (h.transport.step hstep) rfl rfl h.listed (fun _ => .inl) h.once
  | refuse hpending hstep =>
      exact h.settle (h.transport.step hstep) rfl rfl rfl hpending fun _ _ _ => .inl rfl
  | @collide draw stream hpending hused hstep =>
      refine h.settle (h.transport.step hstep) rfl rfl rfl hpending fun other id hother => ?_
      by_cases heq : other = stream
      · subst heq
        exact .inr ⟨Function.update_self .., hother.unique (alive_of_route h.transport hused)⟩
      · exact .inl (Function.update_of_ne heq _ _)
  | opens hpending hfree hnew hvalue hstep =>
      exact h.opens hrecent hpending hfree hnew hvalue (h.transport.step hstep)
  | drop hst hheld hstep =>
      refine h.drop hst hheld (h.transport.step hstep) fun draw hmem => ?_
      split_ifs at hmem
      · exact .inr hmem
      · exact List.mem_cons.mp hmem
  | dropOutside hst hheld hstep =>
      exact h.drop hst hheld (h.transport.step hstep) fun _ => .inr
  | move hstep hsame hcounter =>
      refine ⟨h.transport.step hstep, hcounter.1.trans h.counter, hcounter.2 ▸ h.listed, h.pending,
        h.once, fun stream id hstream => h.streams stream id ((hsame stream id).mp hstream),
        fun id first second hfirst hsecond => ?_, fun draw hmem => ?_⟩
      · exact h.distinct id first second ((hsame first id).mp hfirst) ((hsame second id).mp hsecond)
      · obtain ⟨hless, hapart, hnone⟩ := h.cancels draw hmem
        exact ⟨hless, hapart, fun stream hstream => hnone stream ((hsame stream _).mp hstream)⟩
  | sendCancel | giveUp =>
      exact ⟨h.transport, h.counter, h.listed, h.pending, h.once, h.streams, h.distinct,
        fun draw hmem => h.cancels draw (List.mem_of_mem_erase hmem)⟩

theorem Inv.drops (h : Inv s)
    (hstep : Step transport supportsStreamCancel s (.drop stream) t) (id : UInt32) :
    t.transport.routes id = s.transport.routes id ∨ s.transport.routes id = some stream := by
  obtain ⟨st, hst, hheld, hroutes⟩ : ∃ st, s.transport.streams stream = some st ∧
      held st.owner = true ∧ t.transport.routes = s.transport.setRoute st.id none := by
    cases hstep with
    | drop hst hheld hstep | dropOutside hst hheld hstep => exact ⟨_, hst, hheld, rfl⟩
  rw [hroutes]
  by_cases hid : id = st.id
  · subst hid
    cases hroute : s.transport.routes st.id with
    | none => exact .inl (by simp [StreamRoutes.State.setRoute])
    | some other =>
        have hsame := h.distinct st.id other stream (alive_of_route h.transport hroute)
          ⟨st, hst, hheld, rfl⟩
        exact .inr (congrArg some hsame)
  · exact .inl (Function.update_of_ne hid _ _)

theorem Inv.unambiguous (h : Inv s) : Unambiguous transport supportsStreamCancel s where
  nonzero stream id hstream := (h.streams stream id hstream).2.1
  distinct := h.distinct
  drops _ _ hstep := h.drops hstep
  cancels id t hstep := by
    cases hstep with
    | sendCancel _ hcancel => exact (h.cancels _ hcancel).2.2

/-- Every step of the transport is one of these. -/
theorem Inv.exists_step (h : Inv s) {a : StreamRoutes.Action} {u : StreamRoutes.State}
    (hstep : StreamRoutes.Step transport s.transport a u) :
    ∃ b t, Step transport supportsStreamCancel s b t ∧ t.transport = u := by
  have hcall : ∀ id ∈ s.transport.drawn, ∃ draw ∈ s.pending, idOf draw = id := fun id hmem =>
    List.mem_map.mp (h.listed.mem_iff.mpr hmem)
  have hmove (hsame : ∀ stream id, Alive u.streams stream id ↔
      Alive s.transport.streams stream id)
      (hcounter : u.nextStreamId = s.transport.nextStreamId ∧ u.drawn = s.transport.drawn) :
      ∃ b t, Step transport supportsStreamCancel s b t ∧ t.transport = u :=
    ⟨_, _, .move hstep hsame hcounter, rfl⟩
  cases hstep with
  | draw hdrawing hzero => exact ⟨_, _, .draw hzero (.draw hdrawing hzero), rfl⟩
  | drawZero hdrawing hzero => exact ⟨_, _, .drawZero hzero (.drawZero hdrawing hzero), rfl⟩
  | refuse hdrawn hclosed =>
      obtain ⟨draw, hpending, rfl⟩ := hcall _ hdrawn
      exact ⟨_, _, .refuse hpending (.refuse hdrawn hclosed), rfl⟩
  | collide hdrawn hopen hused =>
      obtain ⟨draw, hpending, rfl⟩ := hcall _ hdrawn
      obtain ⟨stream, hroute⟩ := Option.ne_none_iff_exists'.mp hused
      exact ⟨_, _, .collide hpending hroute (.collide hdrawn hopen hused), rfl⟩
  | register hdrawn hopen hfree hfresh =>
      obtain ⟨draw, hpending, rfl⟩ := hcall _ hdrawn
      exact ⟨_, _, .opens hpending hfree hfresh ⟨rfl, rfl⟩
        (.register hdrawn hopen hfree hfresh), rfl⟩
  | drop hst howner =>
      exact ⟨_, _, .drop hst (by rw [howner]; rfl) (.drop hst howner), rfl⟩
  | enter | close | closeRoutes | writerEnds | arm | seeClosed | shutdown | readFails
  | rejectUpdate | lookUpdate | strayUpdate | rejectCredit | lookCancel | strayCancel | look
  | stray | overflow | orphan | removeFull | removeOrphan | signal | clear =>
      exact hmove (fun _ _ => Iff.rfl) ⟨rfl, rfl⟩
  | recv hst howner | pollClosed hst howner | pollPending hst howner | park hst howner
  | tryRecv hst howner | tryEmpty hst howner | tryDisconnected hst howner
  | tryRecvClosed hst howner | dropQueue hst howner =>
      exact hmove (fun _ _ => alive_set hst rfl (by simp [howner, held])) ⟨rfl, rfl⟩
  | abandon hst howner | recvClosed hst howner =>
      exact hmove (fun _ _ => alive_set hst rfl (by rcases howner with h | h <;> simp [h, held]))
        ⟨rfl, rfl⟩
  | pop hst howner | canceled hst howner =>
      refine hmove (fun _ _ => alive_set hst rfl ?_) ⟨rfl, rfl⟩
      rcases howner with h | h | h <;> simp [h, held, DeviceStream.take, DeviceStream.giveUp]
  | takeCredit hst | credit _ hst | cancel _ hst | deliver _ hst =>
      exact hmove (fun _ _ => alive_set hst rfl rfl) ⟨rfl, rfl⟩
  | read => exact hmove (fun _ _ => alive_arrive) ⟨rfl, rfl⟩

end Invariant

/-- In every run in which nothing outlives a round of the counter, streams keep apart. -/
theorem unambiguous_of_recent {transport : DeviceTransport} {supportsStreamCancel : Bool}
    {t : State} {trace : List (State × Action)}
    (hrun : (system transport supportsStreamCancel).Run .initial trace t)
    (hrecent : ∀ p ∈ trace, Recent p.1) :
    ∀ s ∈ System.visited trace t, Unambiguous transport supportsStreamCancel s := by
  intro s hs
  have hinv := hrun.visited_of_steps (fun s _ => Recent s)
    (fun _ _ _ h hok hstep => h.step hok hstep) inv_initial hrecent
  exact (hinv s hs).unambiguous

section Openings

variable (transport : DeviceTransport) (s : StreamRoutes.State) (id next : UInt32) (stream : Nat)

/-- An id has been drawn, and no other is. -/
def afterDraw : StreamRoutes.State :=
  { s with nextStreamId := next, drawing := 0, drawn := [id] }

/-- The stream with the drawn id has been opened. -/
def afterOpen : StreamRoutes.State :=
  { s with
    nextStreamId := next, drawing := 0, drawn := []
    routes := s.setRoute id (some stream)
    streams := s.setStream stream (.new transport id (s.reader.inHand id)) }

/-- A stream has been dropped. -/
def afterDrop (st : DeviceStream) : StreamRoutes.State :=
  { s with
    routes := s.setRoute st.id none
    streams := s.setStream stream { st with owner := .dropping } }

variable {transport s id next stream} {supportsStreamCancel : Bool} {draw draws : Nat}
  {drawn : Nat → Nat} {cancels : List Nat}

theorem step_enter (hopen : s.closed = false) (hdrawing : s.drawing = 0) :
    Step transport supportsStreamCancel ⟨s, draws, [], drawn, cancels⟩ .other
      ⟨{ s with drawing := 1 }, draws, [], drawn, cancels⟩ := by
  have henter : StreamRoutes.Step transport s .opener _ := .enter hopen
  rw [hdrawing] at henter
  exact .move henter (fun _ _ => Iff.rfl) ⟨rfl, rfl⟩

theorem step_draw (hid : s.nextStreamId = id) (hzero : id ≠ 0) (hdrawn : s.drawn = []) :
    Step transport supportsStreamCancel ⟨{ s with drawing := 1 }, draws, [], drawn, cancels⟩ .draw
      ⟨afterDraw s id (id + 1), draws + 1, [draws], drawn, cancels⟩ := by
  subst hid
  have hafter : afterDraw s s.nextStreamId (s.nextStreamId + 1) =
      { s with
        drawing := 0, drawn := s.nextStreamId :: s.drawn, nextStreamId := s.nextStreamId + 1 } := by
    rw [afterDraw, hdrawn]
  rw [hafter]
  exact .draw hzero (@StreamRoutes.Step.draw transport { s with drawing := 1 } 0 rfl hzero)

theorem step_drawZero (hid : s.nextStreamId = 0) :
    Step transport supportsStreamCancel ⟨{ s with drawing := 1 }, draws, [], drawn, cancels⟩ .draw
      ⟨{ s with drawing := 1, nextStreamId := 1 }, draws + 1, [], drawn, cancels⟩ := by
  have hnext : s.nextStreamId + 1 = 1 := by rw [hid]; rfl
  rw [← hnext]
  exact .drawZero hid (@StreamRoutes.Step.drawZero transport { s with drawing := 1 } 0 rfl hid)

theorem step_opens (hid : id = idOf draw) (hopen : s.closed = false) (hfree : s.routes id = none)
    (hfresh : s.streams stream = none) :
    Step transport supportsStreamCancel ⟨afterDraw s id next, draws, [draw], drawn, cancels⟩
      (.opens id)
      ⟨afterOpen transport s id next stream, draws, [], Function.update drawn stream draw,
        cancels⟩ := by
  subst hid
  have hopens := @Step.opens transport supportsStreamCancel
    ⟨afterDraw s (idOf draw) next, draws, [draw], drawn, cancels⟩ draw stream _ List.mem_cons_self
    hfree hfresh ⟨rfl, rfl⟩ (.register List.mem_cons_self hopen hfree hfresh)
  have herase : (afterDraw s (idOf draw) next).drawn.erase (idOf draw) = [] :=
    List.erase_cons_head ..
  rw [herase, List.erase_cons_head] at hopens
  exact hopens

theorem step_drop {st : DeviceStream} (hst : s.streams stream = some st)
    (howner : st.owner = .idle) (hcompleted : st.completed = false) :
    Step transport supportsStreamCancel ⟨s, draws, [], drawn, cancels⟩ (.drop stream)
      ⟨afterDrop s stream st, draws, [], drawn, drawn stream :: cancels⟩ := by
  have hdrop := @Step.drop transport supportsStreamCancel ⟨s, draws, [], drawn, cancels⟩ stream st
    hst (by rw [howner]; rfl) (.drop hst howner)
  have hcancels : (if st.completed = true then cancels else drawn stream :: cancels) =
      drawn stream :: cancels := if_neg (by simp [hcompleted])
  dsimp only at hdrop
  rw [hcancels] at hdrop
  exact hdrop

theorem streams_afterOpen {other : Nat} (hne : other ≠ stream) :
    (afterOpen transport s id next stream).streams other = s.streams other :=
  Function.update_of_ne hne _ _

theorem streams_afterDrop {st : DeviceStream} {other : Nat} (hne : other ≠ stream) :
    (afterDrop (afterOpen transport s id next stream) stream st).streams other =
      s.streams other :=
  (Function.update_of_ne hne _ _).trans (streams_afterOpen hne)

end Openings

theorem run_opened (transport : DeviceTransport) (supportsStreamCancel : Bool) :
    (system transport supportsStreamCancel).Run .initial
      [(.initial, .other),
        (⟨{ StreamRoutes.State.initial with drawing := 1 }, 0, [], fun _ => 0, []⟩, .draw),
        (⟨afterDraw .initial 1 2, 1, [0], fun _ => 0, []⟩, .opens 1)]
      ⟨afterOpen transport .initial 1 2 0, 1, [], Function.update (fun _ => 0) 0 0, []⟩ :=
  .cons (step_enter rfl rfl) <| .cons (step_draw rfl (by decide) rfl) <|
    .cons (step_opens rfl rfl rfl rfl) (.nil _)

theorem unambiguous_of_recent_opened :
    Alive (afterOpen plainTransport .initial 1 2 0).streams 0 1 ∧
      Unambiguous plainTransport true
        ⟨afterOpen plainTransport .initial 1 2 0, 1, [], Function.update (fun _ => 0) 0 0, []⟩ := by
  refine ⟨alive_set_self.mpr ⟨rfl, rfl⟩, ?_⟩
  refine unambiguous_of_recent (run_opened _ _) ?_ _ (by simp [System.visited])
  have hnone : ∀ stream id, ¬ Alive StreamRoutes.State.initial.streams stream id := by
    rintro stream id ⟨_, hst, _⟩
    cases hst
  simp only [List.forall_mem_cons, List.not_mem_nil, false_implies, implies_true, and_true]
  refine ⟨⟨List.forall_mem_nil _, fun stream id h => absurd h (hnone stream id),
      List.forall_mem_nil _⟩,
    ⟨List.forall_mem_nil _, fun stream id h => absurd h (hnone stream id), List.forall_mem_nil _⟩,
    ⟨fun draw _ => ?_, fun stream id h => absurd h (hnone stream id), List.forall_mem_nil _⟩⟩
  exact Nat.le_add_left_of_le (by decide)

section Wrap

variable {transport : DeviceTransport}

/-- The first stream has been canceled by the device and is still held, and `count` more have
been opened and dropped since. -/
structure Spent (count : Nat) (s : StreamRoutes.State) : Prop where
  closed : s.closed = false
  drawing : s.drawing = 0
  drawn : s.drawn = []
  next : s.nextStreamId = idOf (count + 1)
  routes : ∀ id, s.routes id = none
  first : ∃ st, s.streams 0 = some st ∧ st.owner = .idle ∧ st.id = 1 ∧ st.completed = false
  fresh : ∀ stream, count < stream → s.streams stream = none

def cancelFrame : FrameCodec.Frame := ⟨.streamCancel, 1, []⟩

theorem exists_spent_zero :
    ∃ s drawn, (system transport true).Reachable ⟨s, 1, [], drawn, []⟩ ∧ drawn 0 = 0 ∧
      Spent 0 s := by
  have hopened := (run_opened transport true).leads
  have hread := (hopened.tail (.move (@StreamRoutes.Step.arm transport _ rfl rfl)
    (fun _ _ => Iff.rfl) ⟨rfl, rfl⟩)).tail (.move (@StreamRoutes.Step.read _ _ cancelFrame rfl)
      (fun _ _ => alive_arrive) ⟨rfl, rfl⟩)
  have hlooked := hread.tail (.move (@StreamRoutes.Step.lookCancel _ _ _ 0 rfl rfl rfl)
    (fun _ _ => Iff.rfl) ⟨rfl, rfl⟩)
  have hcanceled := hlooked.tail (.move (@StreamRoutes.Step.cancel _ _ _ 0 _ _ rfl rfl)
    (fun _ _ => alive_set rfl rfl rfl) ⟨rfl, rfl⟩)
  refine ⟨_, _, ⟨_, rfl, hcanceled⟩, rfl, rfl, rfl, rfl, rfl, ?_, ⟨_, rfl, rfl, rfl, rfl⟩, ?_⟩
  · intro id
    by_cases hid : id = 1
    · rw [hid]
      rfl
    · exact (Function.update_of_ne hid _ _).trans (Function.update_of_ne hid _ _)
  · intro stream hpos
    have hne : stream ≠ 0 := by omega
    simp [StreamRoutes.State.setStream, StreamRoutes.State.initial, Function.update_of_ne hne,
      afterOpen, StreamRoutes.State.arrive]

theorem idOf_ne_zero {draw : Nat} (hdraw : draw + 1 < 2 ^ 32) : idOf draw ≠ 0 := by
  intro hzero
  have hmod : (draw + 1) % 2 ^ 32 = 0 := by simpa [idOf] using congrArg UInt32.toNat hzero
  omega

theorem Spent.next_stream {count : Nat} {s : StreamRoutes.State} (h : Spent count s)
    (hcount : count + 2 < 2 ^ 32) {drawn : Nat → Nat} (hdrawn : drawn 0 = 0) :
    ∃ t drawn', (system transport true).Leads ⟨s, count + 1, [], drawn, []⟩
      ⟨t, count + 2, [], drawn', []⟩ ∧ drawn' 0 = 0 ∧ Spent (count + 1) t := by
  have hne : idOf (count + 1) ≠ 0 := idOf_ne_zero hcount
  have hfresh : s.streams (count + 1) = none := h.fresh _ (by omega)
  have hpending : (system transport true).Leads ⟨s, count + 1, [], drawn, []⟩
      ⟨afterDraw s (idOf (count + 1)) (idOf (count + 1) + 1), count + 2, [count + 1], drawn, []⟩ :=
    System.Leads.head (step_enter h.closed h.drawing) (.single (step_draw h.next hne h.drawn))
  have hopened := hpending.tail (step_opens rfl h.closed (h.routes _) hfresh)
  have hdropped := hopened.tail (step_drop (Function.update_self ..) rfl rfl)
  have hgone := hdropped.tail (.giveUp List.mem_cons_self)
  rw [List.erase_cons_head] at hgone
  have hfirst : Function.update drawn (count + 1) (count + 1) 0 = 0 :=
    (Function.update_of_ne (Nat.succ_ne_zero _).symm _ _).trans hdrawn
  refine ⟨_, _, hgone, hfirst, h.closed, rfl, rfl, ?_, ?_, ?_, ?_⟩
  · exact (UInt32.ofNat_add (count + 2) 1).symm
  · intro id
    by_cases hid : id = idOf (count + 1)
    · subst hid
      exact Function.update_self ..
    · exact (Function.update_of_ne hid _ _).trans
        ((Function.update_of_ne hid _ _).trans (h.routes id))
  · obtain ⟨st, hst, hrest⟩ := h.first
    exact ⟨st, (streams_afterDrop (by omega)).trans hst, hrest⟩
  · intro stream hless
    exact (streams_afterDrop (by omega)).trans (h.fresh stream (by omega))

theorem exists_spent {count : Nat} (hcount : count + 2 ≤ 2 ^ 32) :
    ∃ s drawn, (system transport true).Reachable ⟨s, count + 1, [], drawn, []⟩ ∧ drawn 0 = 0 ∧
      Spent count s := by
  induction count with
  | zero => exact exists_spent_zero
  | succ count ih =>
      obtain ⟨s, drawn, hreach, hdrawn, hspent⟩ := ih (by omega)
      obtain ⟨t, drawn', hleads, hdrawn', hspent'⟩ := hspent.next_stream (by omega) hdrawn
      exact ⟨t, drawn', hreach.leads hleads, hdrawn', hspent'⟩

/-- Once the counter has wrapped, a stream gets the id of one that is still held. To drop the
old one takes the route of the new one away, and cancels it at the device. -/
theorem wrapped_ambiguous :
    ∃ s t u stream, (system plainTransport true).Reachable s ∧ stream ≠ 0 ∧
      Alive s.transport.streams 0 1 ∧ Alive s.transport.streams stream 1 ∧
      s.transport.routes 1 = some stream ∧
      Step plainTransport true s (.drop 0) t ∧ t.transport.routes 1 = none ∧
      Step plainTransport true t (.sendCancel 1) u ∧ Alive u.transport.streams stream 1 := by
  obtain ⟨s, drawn, hreach, hfirstDrawn, h⟩ := @exists_spent plainTransport (2 ^ 32 - 2) (by decide)
  obtain ⟨st, hst, howner, hid, hcompleted⟩ := h.first
  have hzero : s.nextStreamId = 0 := h.next
  have hne : (0 : Nat) ≠ 2 ^ 32 := by decide
  have hone : (1 : UInt32) ≠ 0 := by decide
  have hdraw : Step plainTransport true
      ⟨{ s with drawing := 1, nextStreamId := 1 }, 2 ^ 32, [], drawn, []⟩ .draw
      ⟨afterDraw s 1 2, 2 ^ 32 + 1, [2 ^ 32], drawn, []⟩ :=
    step_draw (s := { s with nextStreamId := 1 }) rfl hone h.drawn
  have hdrawn : (system plainTransport true).Leads ⟨s, 2 ^ 32 - 1, [], drawn, []⟩
      ⟨afterDraw s 1 2, 2 ^ 32 + 1, [2 ^ 32], drawn, []⟩ :=
    System.Leads.head (step_enter h.closed h.drawing) <|
      System.Leads.head (step_drawZero hzero) (.single hdraw)
  have hfresh : s.streams (2 ^ 32) = none := h.fresh _ (by decide)
  have hopened := hdrawn.tail (step_opens rfl h.closed (h.routes 1) hfresh)
  have hfirst : (afterOpen plainTransport s 1 2 (2 ^ 32)).streams 0 = some st :=
    (streams_afterOpen hne).trans hst
  have hnew : Alive (afterOpen plainTransport s 1 2 (2 ^ 32)).streams (2 ^ 32) 1 :=
    alive_set_self.mpr ⟨rfl, rfl⟩
  have hroute : (afterOpen plainTransport s 1 2 (2 ^ 32)).routes 1 = some (2 ^ 32) := by
    simp only [afterOpen, StreamRoutes.State.setRoute, Function.update_self]
  have hkept :
      Alive (afterDrop (afterOpen plainTransport s 1 2 (2 ^ 32)) 0 st).streams (2 ^ 32) 1 :=
    (alive_set_of_ne hne.symm).mpr hnew
  have hcancel : Function.update drawn (2 ^ 32) (2 ^ 32) 0 = 0 :=
    (Function.update_of_ne hne _ _).trans hfirstDrawn
  refine ⟨_, _, _, 2 ^ 32, hreach.leads hopened, hne.symm,
    ⟨st, hfirst, by simp [howner, held], hid⟩, hnew, hroute,
    step_drop hfirst howner hcompleted, ?_,
    @Step.sendCancel plainTransport true _ 0 rfl (List.mem_singleton.mpr hcancel.symm), hkept⟩
  rw [← hid]
  exact Function.update_self ..

end Wrap

end SideWire.StreamIds
