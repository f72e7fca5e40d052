import SideWire.StreamRoutes

namespace SideWire.StreamRoutes

open SideWire.TransitionSystem
open SideWire.ByteString
open SideWire.FlowControl
open SideWire.FrameCodec

namespace DeviceStream

variable (st : DeviceStream)

/-- Every frame that has been put into the queue. -/
def queued : List Frame := st.delivered ++ st.queue

/-- Every frame for the stream that the reader has read, or had in hand, since the stream
was opened. -/
def incoming : List Frame := st.early ++ st.arrived

end DeviceStream

/-- A reader without a frame for a queue and without a route. -/
def Reader.resting (reader : Reader) : Prop :=
  (∀ stream, reader.holds stream = false) ∧ ∀ id, reader.inHand id = []

/-- How a stream stands to the routes and to the reader. -/
structure Placed (routes : UInt32 → Option Nat) (reader : Reader) (stream : Nat)
    (st : DeviceStream) : Prop where
  behind : st.queued <+: st.incoming
  routed : ∀ frame, reader = .routed frame stream → st.owner ≠ .dropped →
    st.incoming = st.queued ++ [frame]
  live : routes st.id = some stream → (∀ frame, reader ≠ .routed frame stream) →
    (∀ id, reader ≠ .full id stream) → st.incoming = st.queued ++ reader.inHand st.id
  canceled : st.cancel ≠ none → routes st.id ≠ some stream ∧ reader.holds stream = false
  canceling : ∀ id reason, reader = .canceling id stream reason →
    routes st.id ≠ some stream
  dropped : st.owner = .dropping ∨ st.owner = .dropped → routes st.id ≠ some stream
  held : reader.holds stream = true → reader.subject = some st.id
  severed : st.owner = .draining ∨ st.owner = .disconnected →
    routes st.id ≠ some stream ∧ reader.holds stream = false
  disconnected : st.owner = .disconnected → st.queue = []
  tagged : ∀ frame ∈ st.incoming, isRouted frame = true ∧ frame.streamId = st.id
  early : st.early.length ≤ 1

structure Inv (routes : UInt32 → Option Nat) (streams : Nat → Option DeviceStream)
    (reader : Reader) : Prop where
  placed : ∀ stream st, streams stream = some st → Placed routes reader stream st
  registered : ∀ id stream, routes id = some stream →
    ∃ st, streams stream = some st ∧ st.id = id
  held : ∀ stream, reader.holds stream = true → ∃ st, streams stream = some st
  crediting : ∀ id stream bytes, reader = .crediting id stream bytes →
    ∃ st flow, streams stream = some st ∧ st.id = id ∧ st.flow = some flow

section Changes

variable {routes routes' : UInt32 → Option Nat} {streams : Nat → Option DeviceStream}
  {reader reader' : Reader} {stream : Nat} {st st' : DeviceStream}

theorem Placed.shrink (h : Placed routes reader stream st)
    (hroutes : routes' st.id = some stream → routes st.id = some stream) :
    Placed routes' reader stream st where
  behind := h.behind
  routed := h.routed
  live hroute := h.live (hroutes hroute)
  canceled hcancel := ⟨fun hroute => (h.canceled hcancel).1 (hroutes hroute),
    (h.canceled hcancel).2⟩
  canceling id reason hreader hroute := h.canceling id reason hreader (hroutes hroute)
  dropped howner hroute := h.dropped howner (hroutes hroute)
  held := h.held
  severed howner := ⟨fun hroute => (h.severed howner).1 (hroutes hroute),
    (h.severed howner).2⟩
  disconnected := h.disconnected
  tagged := h.tagged
  early := h.early

theorem Inv.shrink (h : Inv routes streams reader)
    (hroutes : ∀ id stream, routes' id = some stream → routes id = some stream) :
    Inv routes' streams reader where
  placed stream st hst := (h.placed stream st hst).shrink (hroutes st.id stream)
  registered id stream hroute := h.registered id stream (hroutes id stream hroute)
  held := h.held
  crediting := h.crediting

theorem of_update_none {id other : UInt32}
    (h : Function.update routes id none other = some stream) :
    other ≠ id ∧ routes other = some stream := by
  by_cases heq : other = id
  · simp [heq] at h
  · rw [Function.update_of_ne heq] at h
    exact ⟨heq, h⟩

theorem Placed.removed (h : Placed routes reader stream st) (id : UInt32) :
    Placed (Function.update routes id none) reader stream st :=
  h.shrink fun hroute => (of_update_none hroute).2

theorem Inv.removed (h : Inv routes streams reader) (id : UInt32) :
    Inv (Function.update routes id none) streams reader :=
  h.shrink fun _ _ hroute => (of_update_none hroute).2

theorem Inv.cleared (h : Inv routes streams reader) : Inv (fun _ => none) streams reader :=
  h.shrink fun _ _ => nofun

theorem Inv.set (h : Inv routes streams reader) (hst : streams stream = some st)
    (hid : st'.id = st.id) (hflow : st.flow ≠ none → st'.flow ≠ none)
    (hplaced : Placed routes reader stream st') :
    Inv routes (Function.update streams stream (some st')) reader where
  placed other st'' hother := by
    by_cases heq : other = stream
    · subst heq
      rw [Function.update_self, Option.some.injEq] at hother
      exact hother ▸ hplaced
    · rw [Function.update_of_ne heq] at hother
      exact h.placed other st'' hother
  registered id other hroute := by
    obtain ⟨st'', hst'', rfl⟩ := h.registered id other hroute
    by_cases heq : other = stream
    · subst heq
      obtain rfl := Option.some.inj (hst.symm.trans hst'')
      exact ⟨st', Function.update_self .., hid⟩
    · exact ⟨st'', by rw [Function.update_of_ne heq, hst''], rfl⟩
  held other hholds := by
    by_cases heq : other = stream
    · exact ⟨st', by rw [heq, Function.update_self]⟩
    · rw [Function.update_of_ne heq]
      exact h.held other hholds
  crediting id other bytes hreader := by
    obtain ⟨st'', flow, hst'', hid'', hflow''⟩ := h.crediting id other bytes hreader
    by_cases heq : other = stream
    · subst heq
      obtain rfl := Option.some.inj (hst.symm.trans hst'')
      obtain ⟨flow', hflow'⟩ := Option.ne_none_iff_exists'.mp (hflow (by simp [hflow'']))
      exact ⟨st', flow', Function.update_self .., hid.trans hid'', hflow'⟩
    · exact ⟨st'', flow, by rw [Function.update_of_ne heq, hst''], hid'', hflow''⟩

theorem Placed.own (h : Placed routes reader stream st) (hid : st'.id = st.id)
    (hcancel : st'.cancel = st.cancel) (hqueued : st'.queued = st.queued)
    (hincoming : st'.incoming = st.incoming) (hearly : st'.early = st.early)
    (hdropped : st.owner = .dropped → st'.owner = .dropped)
    (hdrops : st'.owner = .dropping ∨ st'.owner = .dropped → routes st.id ≠ some stream)
    (hsevered : st'.owner = .draining ∨ st'.owner = .disconnected →
      routes st.id ≠ some stream ∧ reader.holds stream = false)
    (hdisconnected : st'.owner = .disconnected → st'.queue = []) :
    Placed routes reader stream st' where
  behind := by rw [hqueued, hincoming]; exact h.behind
  routed frame hreader howner := by
    rw [hqueued, hincoming]
    exact h.routed frame hreader fun hdrop => howner (hdropped hdrop)
  live := by rw [hid, hqueued, hincoming]; exact h.live
  canceled := by rw [hid, hcancel]; exact h.canceled
  canceling := by rw [hid]; exact h.canceling
  dropped := by rw [hid]; exact hdrops
  held := by rw [hid]; exact h.held
  severed := by rw [hid]; exact hsevered
  disconnected := hdisconnected
  tagged := by rw [hid, hincoming]; exact h.tagged
  early := by rw [hearly]; exact h.early

end Changes

section Turns

variable {routes : UInt32 → Option Nat} {streams : Nat → Option DeviceStream}
  {reader reader' : Reader} {stream : Nat} {st : DeviceStream} {frame : Frame}

theorem Placed.turn (h : Placed routes reader stream st) (hholds : reader'.holds stream = false)
    (hhand : reader'.inHand st.id = [])
    (hsettled : routes st.id = some stream → st.incoming = st.queued) :
    Placed routes reader' stream st where
  behind := h.behind
  routed frame hreader := by simp [hreader, Reader.holds] at hholds
  live hroute _ _ := by rw [hhand, List.append_nil, hsettled hroute]
  canceled hcancel := ⟨(h.canceled hcancel).1, hholds⟩
  canceling id reason hreader := by simp [hreader, Reader.holds] at hholds
  dropped := h.dropped
  held hheld := by simp [hholds] at hheld
  severed howner := ⟨(h.severed howner).1, hholds⟩
  disconnected := h.disconnected
  tagged := h.tagged
  early := h.early

/-- A stream that the reader does not hold has queued what has arrived, but for a frame
in hand. -/
theorem Placed.settled (h : Placed routes reader stream st)
    (hholds : reader.holds stream = false) (hroute : routes st.id = some stream) :
    st.incoming = st.queued ++ reader.inHand st.id := by
  apply h.live hroute
  · rintro frame rfl
    simp [Reader.holds] at hholds
  · rintro id rfl
    simp [Reader.holds] at hholds

theorem Reader.length_inHand_le (reader : Reader) (id : UInt32) :
    (reader.inHand id).length ≤ 1 := by
  unfold Reader.inHand
  split
  · split_ifs <;> simp
  · simp

theorem Reader.inHand_of_holds {reader : Reader} (h : reader.holds stream = true) (id : UInt32) :
    reader.inHand id = [] := by
  cases reader <;> first | rfl | simp [Reader.holds] at h

theorem Inv.turn (h : Inv routes streams reader) (hrest : reader'.resting)
    (hsettled : ∀ stream st, streams stream = some st → routes st.id = some stream →
      st.incoming = st.queued)
    (hcrediting : ∀ id stream bytes, reader' = .crediting id stream bytes →
      ∃ st flow, streams stream = some st ∧ st.id = id ∧ st.flow = some flow) :
    Inv routes streams reader' where
  placed stream st hst :=
    (h.placed stream st hst).turn (hrest.1 stream) (hrest.2 st.id) (hsettled stream st hst)
  registered := h.registered
  held stream hholds := by simp [hrest.1 stream] at hholds
  crediting := hcrediting

theorem Inv.settled (h : Inv routes streams reader) (hrest : reader.resting) (stream : Nat)
    (st : DeviceStream) (hst : streams stream = some st) (hroute : routes st.id = some stream) :
    st.incoming = st.queued := by
  rw [(h.placed stream st hst).settled (hrest.1 stream) hroute, hrest.2, List.append_nil]

theorem Inv.look (h : Inv routes streams (.looking frame)) (hkind : isRouted frame = true)
    (hroute : routes frame.streamId = some stream) :
    Inv routes streams (.routed frame stream) where
  placed other st hst := by
    have hplaced := h.placed other st hst
    by_cases heq : other = stream
    · subst heq
      obtain ⟨st', hst', hid⟩ := h.registered _ _ hroute
      obtain rfl := Option.some.inj (hst.symm.trans hst')
      have hlive : routes st.id = some other := hid ▸ hroute
      have hincoming : st.incoming = st.queued ++ [frame] := by
        simpa [Reader.inHand, hkind, hid] using hplaced.settled rfl hlive
      refine ⟨hplaced.behind, ?_, fun _ hrouted => absurd rfl (hrouted frame),
        fun hcancel => absurd hlive (hplaced.canceled hcancel).1, nofun,
        hplaced.dropped, fun _ => by simp [Reader.subject, hid],
        fun howner => absurd hlive (hplaced.severed howner).1, hplaced.disconnected,
        hplaced.tagged, hplaced.early⟩
      rintro _ ⟨⟩ _
      exact hincoming
    · refine hplaced.turn (by simp [Reader.holds, Ne.symm heq]) rfl ?_
      intro hlive
      have hne : frame.streamId ≠ st.id := by
        intro hid
        rw [← hid, hroute, Option.some.injEq] at hlive
        exact heq hlive.symm
      rw [hplaced.settled rfl hlive]
      simp [Reader.inHand, hne]
  registered := h.registered
  held other hholds := by
    obtain rfl : stream = other := by simpa [Reader.holds] using hholds
    obtain ⟨st, hst, _⟩ := h.registered _ _ hroute
    exact ⟨st, hst⟩
  crediting := nofun

theorem Inv.others (h : Inv routes streams reader) (hholds : reader.holds stream = true)
    {other : Nat} (hst : streams other = some st) (hne : other ≠ stream)
    (hroute : routes st.id = some other) : st.incoming = st.queued := by
  have hother : reader.holds other = false := by
    cases reader <;> simp [Reader.holds] at hholds ⊢ <;> omega
  rw [(h.placed other st hst).settled hother hroute, Reader.inHand_of_holds hholds,
    List.append_nil]

theorem Inv.overflow (h : Inv routes streams (.routed frame stream)) :
    Inv routes streams (.full frame.streamId stream) where
  placed other st hst := by
    have hplaced := h.placed other st hst
    by_cases heq : other = stream
    · subst heq
      exact ⟨hplaced.behind, nofun, fun _ _ hfull => absurd rfl (hfull _), hplaced.canceled,
        nofun, hplaced.dropped, hplaced.held, hplaced.severed, hplaced.disconnected,
        hplaced.tagged, hplaced.early⟩
    · exact hplaced.turn (by simp [Reader.holds, Ne.symm heq]) rfl
        (h.others (by simp [Reader.holds]) hst heq)
  registered := h.registered
  held := h.held
  crediting := nofun

theorem Inv.orphan (h : Inv routes streams (.routed frame stream))
    (hst : streams stream = some st) (howner : st.owner = .dropped) :
    Inv routes streams (.orphaned frame.streamId stream) where
  placed other st' hst' := by
    have hplaced := h.placed other st' hst'
    by_cases heq : other = stream
    · subst heq
      obtain rfl := Option.some.inj (hst.symm.trans hst')
      exact ⟨hplaced.behind, nofun,
        fun hlive _ _ => absurd hlive (hplaced.dropped (.inr howner)), hplaced.canceled, nofun,
        hplaced.dropped, hplaced.held, hplaced.severed, hplaced.disconnected, hplaced.tagged,
        hplaced.early⟩
    · exact hplaced.turn (by simp [Reader.holds, Ne.symm heq]) rfl
        (h.others (by simp [Reader.holds]) hst' heq)
  registered := h.registered
  held := h.held
  crediting := nofun

theorem Inv.removeRoute {id : UInt32} {reason : CancelReason} (h : Inv routes streams reader)
    (hst : streams stream = some st) (hid : st.id = id)
    (hcanceled : st.cancel = none)
    (hsevered : st.owner ≠ .draining ∧ st.owner ≠ .disconnected)
    (hsettled : ∀ other st, streams other = some st → other ≠ stream →
      routes st.id = some other → st.incoming = st.queued) :
    Inv (Function.update routes id none) streams (.canceling id stream reason) where
  placed other st' hst' := by
    have hplaced := (h.placed other st' hst').removed id
    by_cases heq : other = stream
    · subst heq
      obtain rfl := Option.some.inj (hst.symm.trans hst')
      have hgone : Function.update routes id none st.id ≠ some other := by simp [hid]
      exact ⟨hplaced.behind, nofun, fun hlive => absurd hlive hgone,
        fun hcancel => absurd hcanceled hcancel, fun _ _ _ => hgone, hplaced.dropped,
        fun _ => by simp [Reader.subject, hid],
        fun howner => by rcases howner with howner | howner <;> simp [howner] at hsevered,
        hplaced.disconnected, hplaced.tagged, hplaced.early⟩
    · refine hplaced.turn (by simp [Reader.holds, Ne.symm heq]) rfl ?_
      intro hroute
      exact hsettled other st' hst' heq (of_update_none hroute).2
  registered id' other hroute := h.registered id' other (of_update_none hroute).2
  held other hholds := by
    obtain rfl : stream = other := by simpa [Reader.holds] using hholds
    exact ⟨st, hst⟩
  crediting := nofun

theorem Inv.deliver (h : Inv routes streams (.routed frame stream))
    (hst : streams stream = some st) (howner : st.owner ≠ .dropped) :
    Inv routes
      (Function.update streams stream (some { st with queue := st.queue ++ [frame] })) .top := by
  have hplaced := h.placed stream st hst
  have hincoming := hplaced.routed frame rfl howner
  have hqueued : { st with queue := st.queue ++ [frame] }.queued = st.incoming := by
    rw [hincoming]
    simp [DeviceStream.queued]
  have hholds : Reader.holds (.routed frame stream) stream = true := by simp [Reader.holds]
  constructor
  · intro other st' hother
    by_cases heq : other = stream
    · subst heq
      rw [Function.update_self, Option.some.injEq] at hother
      subst hother
      refine ⟨hqueued ▸ List.prefix_rfl, nofun, ?_, ?_, nofun, hplaced.dropped, nofun, ?_, ?_,
        hplaced.tagged, hplaced.early⟩
      · intro _ _ _
        exact hqueued.symm.trans (List.append_nil _).symm
      · intro hcancel
        exact ⟨(hplaced.canceled hcancel).1, rfl⟩
      · intro hsevered
        exact ⟨(hplaced.severed hsevered).1, rfl⟩
      · intro hdisconnected
        have hgone := (hplaced.severed (.inr hdisconnected)).2
        rw [hholds] at hgone
        exact nomatch hgone
    · rw [Function.update_of_ne heq] at hother
      exact (h.placed other st' hother).turn rfl rfl (h.others hholds hother heq)
  · intro id other hroute
    obtain ⟨st', hst', rfl⟩ := h.registered id other hroute
    by_cases heq : other = stream
    · subst heq
      obtain rfl := Option.some.inj (hst.symm.trans hst')
      exact ⟨_, Function.update_self .., rfl⟩
    · exact ⟨st', by rw [Function.update_of_ne heq, hst'], rfl⟩
  · nofun
  · nofun

theorem Inv.cancel {id : UInt32} {reason : CancelReason}
    (h : Inv routes streams (.canceling id stream reason)) (hst : streams stream = some st) :
    Inv routes (Function.update streams stream (some { st with cancel := some reason })) .top := by
  have hplaced := h.placed stream st hst
  have hgone := hplaced.canceling id reason rfl
  have hholds : Reader.holds (.canceling id stream reason) stream = true := by
    simp [Reader.holds]
  constructor
  · intro other st' hother
    by_cases heq : other = stream
    · subst heq
      rw [Function.update_self, Option.some.injEq] at hother
      subst hother
      exact ⟨hplaced.behind, nofun, fun hlive => absurd hlive hgone, fun _ => ⟨hgone, rfl⟩,
        nofun, hplaced.dropped, nofun, fun howner => ⟨(hplaced.severed howner).1, rfl⟩,
        hplaced.disconnected, hplaced.tagged, hplaced.early⟩
    · rw [Function.update_of_ne heq] at hother
      exact (h.placed other st' hother).turn rfl rfl (h.others hholds hother heq)
  · intro id other hroute
    obtain ⟨st', hst', rfl⟩ := h.registered id other hroute
    by_cases heq : other = stream
    · subst heq
      obtain rfl := Option.some.inj (hst.symm.trans hst')
      exact ⟨_, Function.update_self .., rfl⟩
    · exact ⟨st', by rw [Function.update_of_ne heq, hst'], rfl⟩
  · nofun
  · nofun

end Turns

section Arrivals

variable {s : State} {frame : Frame} {stream : Nat} {st : DeviceStream}

theorem arrive_of_eq (h : s.streams stream = some st) :
    s.arrive frame stream = some (if isRouted frame = true ∧ frame.streamId = st.id then
      { st with arrived := st.arrived ++ [frame] } else st) := by
  simp only [State.arrive, h, Option.map_some]

theorem arrive_eq_some (h : s.arrive frame stream = some st) :
    ∃ st', s.streams stream = some st' ∧
      st = if isRouted frame = true ∧ frame.streamId = st'.id then
        { st' with arrived := st'.arrived ++ [frame] } else st' := by
  obtain ⟨st', hst', heq⟩ := Option.map_eq_some_iff.mp h
  exact ⟨st', hst', heq.symm⟩

theorem Placed.arrive {routes : UInt32 → Option Nat} (h : Placed routes .selecting stream st) :
    Placed routes (.looking frame) stream
      (if isRouted frame = true ∧ frame.streamId = st.id then
        { st with arrived := st.arrived ++ [frame] } else st) := by
  have hlive : routes st.id = some stream → st.incoming = st.queued := by
    intro hroute
    simpa [Reader.inHand] using h.settled rfl hroute
  split_ifs with harrives
  · have hincoming : { st with arrived := st.arrived ++ [frame] }.incoming =
        st.incoming ++ [frame] := by
      simp [DeviceStream.incoming]
    refine ⟨?_, nofun, ?_, fun hcancel => ⟨(h.canceled hcancel).1, rfl⟩, nofun, h.dropped, nofun,
      fun howner => ⟨(h.severed howner).1, rfl⟩, h.disconnected, ?_, h.early⟩
    · rw [hincoming]
      exact h.behind.trans (List.prefix_append _ _)
    · intro hroute _ _
      rw [hincoming, hlive hroute]
      simp [Reader.inHand, harrives, DeviceStream.queued]
    · intro frame' hmem
      rw [hincoming] at hmem
      rcases List.mem_append.mp hmem with hmem | hmem
      · exact h.tagged frame' hmem
      · obtain rfl := List.mem_singleton.mp hmem
        exact harrives
  · exact h.turn rfl (by simp [Reader.inHand, harrives]) hlive

theorem Inv.arrive (h : Inv s.routes s.streams .selecting) (frame : Frame) :
    Inv s.routes (s.arrive frame) (.looking frame) where
  placed stream st hst := by
    obtain ⟨st', hst', rfl⟩ := arrive_eq_some hst
    exact (h.placed stream st' hst').arrive
  registered id stream hroute := by
    obtain ⟨st, hst, rfl⟩ := h.registered id stream hroute
    refine ⟨_, arrive_of_eq hst, ?_⟩
    split_ifs <;> rfl
  held := nofun
  crediting := nofun

theorem Inv.register (h : Inv s.routes s.streams s.reader) (transport : DeviceTransport)
    {id : UInt32} (hfree : s.routes id = none) (hfresh : s.streams stream = none) :
    Inv (s.setRoute id (some stream))
      (s.setStream stream (.new transport id (s.reader.inHand id))) s.reader := by
  have hunused : ∀ id, s.routes id ≠ some stream := by
    intro id hroute
    obtain ⟨st, hst, _⟩ := h.registered id stream hroute
    simp [hfresh] at hst
  have hholds : s.reader.holds stream = false := by
    by_contra hheld
    obtain ⟨st, hst⟩ := h.held stream (by simpa using hheld)
    simp [hfresh] at hst
  constructor
  · intro other st hother
    by_cases heq : other = stream
    · subst heq
      rw [State.setStream, Function.update_self, Option.some.injEq] at hother
      subst hother
      refine ⟨List.nil_prefix, ?_, fun _ _ _ => by simp [DeviceStream.incoming,
        DeviceStream.queued, DeviceStream.new], by simp [DeviceStream.new], ?_, ?_, ?_, ?_, ?_, ?_,
        Reader.length_inHand_le ..⟩
      · intro frame hreader
        simp [hreader, Reader.holds] at hholds
      · intro id reason hreader
        simp [hreader, Reader.holds] at hholds
      · simp [DeviceStream.new]
      · simp [hholds]
      · simp [DeviceStream.new]
      · simp [DeviceStream.new]
      · intro frame hmem
        simp only [DeviceStream.incoming, DeviceStream.new, List.append_nil] at hmem ⊢
        unfold Reader.inHand at hmem
        split at hmem
        · split_ifs at hmem with harrives
          · obtain rfl := List.mem_singleton.mp hmem
            exact harrives
          · exact nomatch hmem
        · exact nomatch hmem
    · rw [State.setStream, Function.update_of_ne heq] at hother
      apply (h.placed other st hother).shrink
      intro hroute
      by_cases hid : st.id = id
      · rw [State.setRoute, hid, Function.update_self, Option.some.injEq] at hroute
        exact absurd hroute.symm heq
      · rwa [State.setRoute, Function.update_of_ne hid] at hroute
  · intro id' other hroute
    by_cases hid : id' = id
    · subst hid
      rw [State.setRoute, Function.update_self, Option.some.injEq] at hroute
      subst hroute
      exact ⟨_, Function.update_self .., rfl⟩
    · rw [State.setRoute, Function.update_of_ne hid] at hroute
      obtain ⟨st, hst, hid'⟩ := h.registered id' other hroute
      have hne : other ≠ stream := by
        rintro rfl
        exact hunused id' hroute
      exact ⟨st, by rw [State.setStream, Function.update_of_ne hne, hst], hid'⟩
  · intro other hheld
    have hne : other ≠ stream := by
      rintro rfl
      simp [hholds] at hheld
    rw [State.setStream, Function.update_of_ne hne]
    exact h.held other hheld
  · intro id' other bytes hreader
    obtain ⟨st, flow, hst, hid', hflow⟩ := h.crediting id' other bytes hreader
    have hne : other ≠ stream := by
      rintro rfl
      simp [hfresh] at hst
    exact ⟨st, flow, by rw [State.setStream, Function.update_of_ne hne, hst], hid', hflow⟩

end Arrivals

section Owners

variable {s : State} {stream : Nat} {st : DeviceStream}

theorem State.severed (h : ¬ s.SenderAlive stream) (id : UInt32) :
    s.routes id ≠ some stream ∧ s.reader.holds stream = false := by
  refine ⟨fun hroute => h (.inl ⟨id, hroute⟩), ?_⟩
  by_contra hholds
  exact h (.inr (by simpa using hholds))

theorem Inv.move (h : Inv s.routes s.streams s.reader) (hst : s.streams stream = some st)
    {owner : Owner} (hbefore : st.owner ≠ .dropped)
    (hafter : owner ≠ .dropping ∧ owner ≠ .dropped)
    (hsevered : owner = .draining ∨ owner = .disconnected → ¬ s.SenderAlive stream)
    (hqueue : owner = .disconnected → st.queue = []) :
    Inv s.routes (s.setStream stream { st with owner := owner }) s.reader := by
  refine h.set hst (by rfl) (by exact id) ?_
  refine (h.placed stream st hst).own rfl rfl rfl rfl rfl ?_ ?_ ?_ ?_
  · exact fun hdropped => absurd hdropped hbefore
  · rintro (hdrop | hdrop)
    · exact absurd hdrop hafter.1
    · exact absurd hdrop hafter.2
  · exact fun howner => State.severed (hsevered howner) st.id
  · exact hqueue

theorem Inv.take (h : Inv s.routes s.streams s.reader) (hst : s.streams stream = some st)
    {frame : Frame} {rest : List Frame} (hqueue : st.queue = frame :: rest)
    (hbefore : st.owner ≠ .dropped) :
    Inv s.routes (s.setStream stream (st.take frame rest)) s.reader := by
  refine h.set hst (by rfl) (by exact id) ?_
  refine (h.placed stream st hst).own rfl rfl ?_ rfl rfl ?_ ?_ ?_ ?_
  · simp [DeviceStream.queued, DeviceStream.take, hqueue]
  · exact fun hdropped => absurd hdropped hbefore
  · simp [DeviceStream.take]
  · simp [DeviceStream.take]
  · simp [DeviceStream.take]

theorem Inv.giveUp (h : Inv s.routes s.streams s.reader) (hst : s.streams stream = some st)
    (hbefore : st.owner ≠ .dropped) :
    Inv s.routes (s.setStream stream st.giveUp) s.reader := by
  refine h.set hst (by rfl) (by exact id) ?_
  refine (h.placed stream st hst).own rfl rfl rfl rfl rfl ?_ ?_ ?_ ?_
  · exact fun hdropped => absurd hdropped hbefore
  · simp [DeviceStream.giveUp]
  · simp [DeviceStream.giveUp]
  · simp [DeviceStream.giveUp]

theorem Inv.setFlow (h : Inv s.routes s.streams s.reader) (hst : s.streams stream = some st)
    (credit : FlowCredit) :
    Inv s.routes (s.setStream stream { st with flow := some credit }) s.reader := by
  have hplaced := h.placed stream st hst
  refine h.set hst (by rfl) (fun _ => by simp) ?_
  exact hplaced.own rfl rfl rfl rfl rfl id hplaced.dropped hplaced.severed hplaced.disconnected

theorem Inv.drop (h : Inv s.routes s.streams s.reader) (hst : s.streams stream = some st)
    (hbefore : st.owner ≠ .dropped) :
    Inv (s.setRoute st.id none) (s.setStream stream { st with owner := .dropping })
      s.reader := by
  have hremoved := h.removed st.id
  refine hremoved.set hst (by rfl) (by exact id) ?_
  refine (hremoved.placed stream st hst).own rfl rfl rfl rfl rfl ?_ ?_ ?_ ?_
  · exact fun hdropped => absurd hdropped hbefore
  · simp
  · simp
  · simp

theorem Inv.dropQueue (h : Inv s.routes s.streams s.reader) (hst : s.streams stream = some st)
    (howner : st.owner = .dropping) :
    Inv s.routes (s.setStream stream { st with owner := .dropped, queue := [] })
      s.reader := by
  have hplaced := h.placed stream st hst
  have hgone := hplaced.dropped (.inl howner)
  refine h.set hst (by rfl) (by exact id) ?_
  refine ⟨?_, fun _ _ hdropped => absurd rfl hdropped, fun hlive => absurd hlive hgone,
    hplaced.canceled, hplaced.canceling, fun _ => hgone, hplaced.held, by simp, fun _ => rfl,
    hplaced.tagged, hplaced.early⟩
  rw [DeviceStream.queued, List.append_nil]
  exact (List.prefix_append _ _).trans hplaced.behind

end Owners

section Steps

variable {transport : DeviceTransport} {s t : State} {action : Action}

theorem resting_of_not_routed {frame : Frame} (h : isRouted frame = false) :
    (Reader.looking frame).resting :=
  ⟨fun _ => rfl, fun _ => by simp [Reader.inHand, h]⟩

theorem Inv.rest {reader : Reader} (h : Inv s.routes s.streams s.reader)
    (hbefore : s.reader.resting) (hafter : reader.resting)
    (hcrediting : ∀ id stream bytes, reader ≠ .crediting id stream bytes) :
    Inv s.routes s.streams reader :=
  h.turn hafter (h.settled hbefore) fun id stream bytes hreader =>
    absurd hreader (hcrediting id stream bytes)

theorem resting_crediting (id : UInt32) (stream : Nat) (bytes : UInt32) :
    (Reader.crediting id stream bytes).resting :=
  ⟨fun _ => rfl, fun _ => rfl⟩

theorem Inv.lookUpdate {frame : Frame} {stream : Nat} {st : DeviceStream} {flow : FlowCredit}
    (h : Inv s.routes s.streams (.looking frame)) (hkind : isRouted frame = false)
    (hroute : s.routes frame.streamId = some stream) (hst : s.streams stream = some st)
    (hflow : st.flow = some flow) (bytes : UInt32) :
    Inv s.routes s.streams (.crediting frame.streamId stream bytes) := by
  apply h.turn (resting_crediting _ _ _) (h.settled (resting_of_not_routed hkind))
  rintro id other bytes' ⟨⟩
  obtain ⟨st', hst', hid⟩ := h.registered _ _ hroute
  obtain rfl := Option.some.inj (hst.symm.trans hst')
  exact ⟨st, flow, hst, hid, hflow⟩

theorem Inv.lookCancel {frame : Frame} {stream : Nat} {reason : CancelReason}
    (h : Inv s.routes s.streams (.looking frame)) (hkind : isRouted frame = false)
    (hroute : s.routes frame.streamId = some stream) :
    Inv (s.setRoute frame.streamId none) s.streams
      (.canceling frame.streamId stream reason) := by
  obtain ⟨st, hst, hid⟩ := h.registered _ _ hroute
  have hplaced := h.placed stream st hst
  have hlive : s.routes st.id = some stream := hid ▸ hroute
  refine h.removeRoute hst hid ?_ ⟨?_, ?_⟩ fun other st' hst' _ =>
    h.settled (resting_of_not_routed hkind) other st' hst'
  · by_contra hcancel
    exact (hplaced.canceled hcancel).1 hlive
  · exact fun howner => (hplaced.severed (.inl howner)).1 hlive
  · exact fun howner => (hplaced.severed (.inr howner)).1 hlive

theorem Inv.stray {frame : Frame} (h : Inv s.routes s.streams (.looking frame))
    (hroute : s.routes frame.streamId = none) : Inv s.routes s.streams .top := by
  refine h.turn ⟨fun _ => rfl, fun _ => rfl⟩ ?_ nofun
  intro stream st hst hlive
  have hne : frame.streamId ≠ st.id := by
    intro hid
    simp [← hid, hroute] at hlive
  rw [(h.placed stream st hst).settled rfl hlive]
  simp [Reader.inHand, hne]

theorem Inv.removeFull {id : UInt32} {stream : Nat} (h : Inv s.routes s.streams (.full id stream)) :
    Inv (s.setRoute id none) s.streams (.canceling id stream .overflow) := by
  have hholds : Reader.holds (.full id stream) stream = true := by simp [Reader.holds]
  obtain ⟨st, hst⟩ := h.held stream hholds
  have hplaced := h.placed stream st hst
  have hid : st.id = id := (Option.some.inj (hplaced.held hholds)).symm
  refine h.removeRoute hst hid ?_ ⟨?_, ?_⟩ fun other st' hst' hne => h.others hholds hst' hne
  · by_contra hcancel
    simp [(hplaced.canceled hcancel).2] at hholds
  · exact fun howner => by simp [(hplaced.severed (.inl howner)).2] at hholds
  · exact fun howner => by simp [(hplaced.severed (.inr howner)).2] at hholds

theorem Inv.removeOrphan {id : UInt32} {stream : Nat}
    (h : Inv s.routes s.streams (.orphaned id stream)) :
    Inv (s.setRoute id none) s.streams .top := by
  have hholds : Reader.holds (.orphaned id stream) stream = true := by simp [Reader.holds]
  refine (h.removed id).turn ⟨fun _ => rfl, fun _ => rfl⟩ ?_ nofun
  intro other st hst hlive
  obtain ⟨hne, hroute⟩ := of_update_none hlive
  apply h.others hholds hst ?_ hroute
  rintro rfl
  exact hne (Option.some.inj ((h.placed other st hst).held hholds)).symm

theorem Inv.step (h : Inv s.routes s.streams s.reader)
    (hstep : Step transport s action t) : Inv t.routes t.streams t.reader := by
  cases hstep with
  | enter | draw | drawZero | refuse | collide | close | writerEnds => exact h
  | register _ _ hfree hfresh => exact h.register transport hfree hfresh
  | recv hst howner | pollPending hst howner | park hst howner | tryRecv hst howner
  | tryEmpty hst howner | tryRecvClosed hst howner =>
      exact h.move hst (by simp [howner]) (by simp) (by simp) (by simp)
  | abandon hst howner | recvClosed hst howner =>
      exact h.move hst (by grind) (by simp) (by simp) (by simp)
  | pollClosed hst howner _ hsender =>
      exact h.move hst (by simp [howner]) (by simp) (fun _ => hsender) (by simp)
  | tryDisconnected hst howner hqueue hsender =>
      exact h.move hst (by simp [howner]) (by simp) (fun _ => hsender) (fun _ => hqueue)
  | pop hst howner hqueue => exact h.take hst hqueue (by grind)
  | canceled hst howner => exact h.giveUp hst (by grind)
  | takeCredit hst => exact h.setFlow hst _
  | drop hst howner => exact h.drop hst (by simp [howner])
  | dropQueue hst howner => exact h.dropQueue hst howner
  | closeRoutes => exact h.cleared
  | arm hreader | seeClosed hreader | shutdown hreader | readFails hreader | signal hreader =>
      refine h.rest ?_ ⟨fun _ => rfl, fun _ => rfl⟩ nofun
      rw [hreader]
      exact ⟨fun _ => rfl, fun _ => rfl⟩
  | clear hreader =>
      exact h.cleared.turn ⟨fun _ => rfl, fun _ => rfl⟩ (fun _ _ _ => nofun) nofun
  | read hreader => exact (hreader ▸ h).arrive _
  | rejectUpdate hreader hkind | strayUpdate hreader hkind | strayCancel hreader hkind =>
      refine h.rest ?_ ⟨fun _ => rfl, fun _ => rfl⟩ nofun
      rw [hreader]
      exact resting_of_not_routed (by simp [isRouted, hkind])
  | lookUpdate hreader hkind _ _ hroute hst hflow =>
      obtain ⟨flow, hflow⟩ := Option.ne_none_iff_exists'.mp hflow
      exact (hreader ▸ h).lookUpdate (by simp [isRouted, hkind]) hroute hst hflow _
  | credit hreader hst =>
      refine (h.setFlow hst _).turn ⟨fun _ => rfl, fun _ => rfl⟩ ?_ nofun
      exact (h.setFlow hst _).settled (hreader ▸ resting_crediting _ _ _)
  | rejectCredit hreader =>
      exact h.rest (hreader ▸ resting_crediting _ _ _) ⟨fun _ => rfl, fun _ => rfl⟩ nofun
  | lookCancel hreader hkind hroute =>
      exact (hreader ▸ h).lookCancel (by simp [isRouted, hkind]) hroute
  | cancel hreader hst => exact (hreader ▸ h).cancel hst
  | look hreader hkind hroute => exact (hreader ▸ h).look hkind hroute
  | stray hreader _ hroute => exact (hreader ▸ h).stray hroute
  | deliver hreader hst howner => exact (hreader ▸ h).deliver hst howner
  | overflow hreader => exact (hreader ▸ h).overflow
  | orphan hreader hst howner => exact (hreader ▸ h).orphan hst howner
  | removeFull hreader => exact (hreader ▸ h).removeFull
  | removeOrphan hreader => exact (hreader ▸ h).removeOrphan

theorem inv_of_reachable (h : (system transport).Reachable s) :
    Inv s.routes s.streams s.reader := by
  refine h.invariant (P := fun s => Inv s.routes s.streams s.reader) ?_ fun _ _ _ => Inv.step
  rintro s rfl
  exact ⟨nofun, nofun, nofun, nofun⟩

end Steps

end SideWire.StreamRoutes
