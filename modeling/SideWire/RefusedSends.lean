import SideWire.RefusedFrame
import SideWire.StreamSends

namespace SideWire.StreamSends

open SideWire.TransitionSystem
open SideWire.FlowControl
open SideWire.FrameCodec
open SideWire.RecordLayer
open SideWire.FrameTransport
open SideWire.CreditWait
open SideWire.SharedWriter (Refused refusal)
open SideWire.StreamRoutes (DeviceTransport DeviceStream CancelReason)

variable {Handshake Cipher : Type}

/-- The codec's refusal never comes up for this frame: it goes by another stream id, or it is a
chunk for which credit has to be taken. -/
def Barred (st : DeviceStream) (frame : Frame) : Prop :=
  frame.streamId ≠ st.id ∨ frame.kind = .fileChunk ∧ st.flow.isSome = true

/-- A frame that the codec refuses is sent only where it cannot come to the writer task: barred,
or on a stream that is canceled, or after the end of the connection. -/
def Harmless (s : State Cipher) : Action → Prop
  | .begins stream frame => Refused frame → ∀ st, s.transport.streams stream = some st →
      st.cancel ≠ none ∨ s.transport.closed = true ∨ Barred st frame
  | .direct frame => ¬ Refused frame
  | _ => True

/-- Where it stands, the call does not come to the writer task. -/
def Stops (st : DeviceStream) (closed : Bool) (frame : Frame) : Stage → Prop
  | .ensureActive .entry => st.cancel ≠ none ∨ closed = true ∨ Barred st frame
  | .ensureOpen .entry => closed = true ∨ Barred st frame
  | .matching => Barred st frame
  | .told result => ∃ error, result = .error error
  | .abandoned => True
  | _ => False

section Calls

variable {st st' : DeviceStream} {closed closed' : Bool} {frame : Frame} {stage stage' : Stage}

theorem guardAmount_of_refused (h : Refused frame) :
    guardAmount true frame.payload.length =
      .error s!"frame requires more than {maxFlowCredit} bytes of flow credit" := by
  have hlength : maxPayload < frame.payload.length := h
  have hpositive : 0 < frame.payload.length := Nat.zero_lt_of_lt hlength
  have hlimit : ¬ frame.payload.length ≤ maxFlowCredit := Nat.not_le_of_lt hlength
  rw [guardAmount, dif_pos ⟨rfl, hpositive⟩, dif_neg hlimit]

theorem Stops.move (h : Stops st closed frame stage) (hrefused : Refused frame)
    (hmove : Moves st closed frame stage stage') : Stops st closed frame stage' := by
  cases hmove with
  | canceled | closed | mismatched | tooMuch => exact ⟨_, rfl⟩
  | @active place hcancel =>
      cases place with
      | entry => exact h.resolve_left fun hne => hne hcancel
      | turn | acquired | after => exact h.elim
  | @opened place hopen =>
      cases place with
      | entry => exact h.resolve_left fun hclosed => nomatch hopen.symm.trans hclosed
      | turn | acquired | after => exact h.elim
  | matched hid hkind => exact h.elim (absurd hid) fun hchunk => absurd hchunk.1 hkind
  | unlimited hid hkind hguard | limited hid hkind hguard =>
      rcases h with hother | ⟨-, hlimited⟩
      · exact absurd hid hother
      · rw [hlimited, guardAmount_of_refused hrefused] at hguard
        cases hguard
  | starved => exact h.elim

/-- A stream keeps its id, and whether it has flow control; a cancellation stays. -/
structure Keeps (st st' : DeviceStream) : Prop where
  id : st'.id = st.id
  limited : st'.flow.isSome = st.flow.isSome
  cancel : st.cancel ≠ none → st'.cancel ≠ none

theorem Stops.keep (h : Stops st closed frame stage) (hkeeps : Keeps st st')
    (hclosed : closed = true → closed' = true) : Stops st' closed' frame stage := by
  have hbarred : Barred st frame → Barred st' frame := by
    rw [Barred, Barred, hkeeps.id, hkeeps.limited]
    exact fun h => h
  cases stage with
  | ensureActive place =>
      cases place with
      | entry => exact h.imp hkeeps.cancel (Or.imp hclosed hbarred)
      | turn | acquired | after => exact h.elim
  | ensureOpen place =>
      cases place with
      | entry => exact h.imp hclosed hbarred
      | turn | acquired | after => exact h.elim
  | matching => exact hbarred h
  | taking | sending | told | abandoned => exact h

theorem Stops.moves (h : Stops st closed frame stage) (hrefused : Refused frame)
    (hover : stage.over = false) :
    ∃ error, Relation.ReflTransGen (Moves st closed frame) stage (.told (.error error)) := by
  have hmatching : Barred st frame →
      ∃ error, Relation.ReflTransGen
        (Moves st closed frame) .matching (.told (.error error)) := by
    intro hbarred
    by_cases hid : frame.streamId = st.id
    · obtain ⟨hkind, hlimited⟩ := hbarred.resolve_left (not_not.mpr hid)
      exact ⟨_, .single (.tooMuch hid hkind (hlimited ▸ guardAmount_of_refused hrefused))⟩
    · exact ⟨_, .single (.mismatched hid)⟩
  have hopening : closed = true ∨ Barred st frame → ∃ error, Relation.ReflTransGen
      (Moves st closed frame) (.ensureOpen .entry) (.told (.error error)) := by
    intro hstops
    cases hclosed : closed with
    | true => exact ⟨_, .single (.closed rfl)⟩
    | false =>
        obtain ⟨error, hrest⟩ := hmatching (hstops.resolve_left (by simp [hclosed]))
        exact ⟨error, .head (.opened rfl) (hclosed ▸ hrest)⟩
  cases stage with
  | ensureActive place =>
      cases place with
      | entry =>
          cases hcancel : st.cancel with
          | some reason => exact ⟨_, .single (.canceled hcancel)⟩
          | none =>
              obtain ⟨error, hrest⟩ := hopening (h.resolve_left (not_not.mpr hcancel))
              exact ⟨error, .head (.active hcancel) hrest⟩
      | turn | acquired | after => exact h.elim
  | ensureOpen place =>
      cases place with
      | entry => exact hopening h
      | turn | acquired | after => exact h.elim
  | matching => exact hmatching h
  | taking | sending => exact h.elim
  | told | abandoned => cases hover

end Calls

section Writer

variable {snow : Snow Handshake Cipher} {build : Build} {w w' : SharedWriter.State Cipher}
  {actor : SharedWriter.Actor} {call : Nat} {frame : Frame}

/-- No refused frame has been handed to the writer. -/
structure Clean (w : SharedWriter.State Cipher) : Prop where
  submissions : ∀ call submission, w.submissions call = some submission →
    ¬ Refused submission.frame
  accepted : ∀ command ∈ w.accepted, ¬ Refused command.frame

theorem Clean.accept {task : SharedWriter.WriterTask} (h : Clean w)
    (hstep : SharedWriter.Step snow build task w actor w') :
    ∀ command ∈ w'.accepted, ¬ Refused command.frame := by
  rcases accepted_of_step hstep with hsame | ⟨call, frame, hcall, hmore⟩
  · exact hsame ▸ h.accepted
  · intro command hmem
    rw [hmore] at hmem
    rcases List.mem_append.mp hmem with hmem | hmem
    · exact h.accepted command hmem
    · obtain rfl := List.mem_singleton.mp hmem
      exact h.submissions call _ hcall

theorem Clean.step {task : SharedWriter.WriterTask} (h : Clean w)
    (hstep : SharedWriter.Step snow build task w actor w') (hactor : actor ≠ .caller) :
    Clean w' where
  submissions := submissions_of_step hstep hactor ▸ h.submissions
  accepted := h.accept hstep

theorem Clean.submits (h : Clean w) (hframe : ¬ Refused frame)
    (hsubmits : Submits snow build w call frame w') : Clean w' := by
  obtain ⟨hstep, stage, hstage⟩ := hsubmits
  refine ⟨?_, h.accept hstep⟩
  intro other submission hother
  rw [hstage] at hother
  by_cases heq : other = call
  · subst heq
    rw [SharedWriter.State.submission, Function.update_self] at hother
    exact Option.some.inj hother ▸ hframe
  · rw [SharedWriter.State.submission, Function.update_of_ne heq] at hother
    exact h.submissions other submission hother

end Writer

/-- The calls with refused frames do not come to the writer task. -/
structure Kept (s : State Cipher) : Prop where
  stops : ∀ call c, s.calls call = some c → Refused c.frame →
    ∃ st, s.transport.streams c.stream = some st ∧ Stops st s.transport.closed c.frame c.stage
  clean : Clean s.writer

section Invariant

variable {snow : Snow Handshake Cipher} {build : Build} {transport : DeviceTransport}
  {s t : State Cipher} {a : Action}

theorem keeps_of_step {s t : StreamRoutes.State} {action : StreamRoutes.Action}
    (hstep : StreamRoutes.Step transport s action t) {stream : Nat} {st : DeviceStream}
    (hst : s.streams stream = some st) : ∃ st', t.streams stream = some st' ∧ Keeps st st' := by
  obtain ⟨st', hst', hchange⟩ := StreamRoutes.change_of_step hstep hst
  exact ⟨st', hst', hchange.sameId, limited_of_step hstep hst hst', hchange.canceled⟩

variable (transport) in
theorem Kept.proceed (h : Kept s) {t : StreamRoutes.State} {action : StreamRoutes.Action}
    (hstep : StreamRoutes.Step transport s.transport action t)
    (hclosed : s.transport.closed = true → t.closed = true) {w : SharedWriter.State Cipher}
    (hclean : Clean w) : Kept { s with transport := t, writer := w } where
  stops call c hcall hrefused := by
    obtain ⟨st, hst, hstops⟩ := h.stops call c hcall hrefused
    obtain ⟨st', hst', hkeeps⟩ := keeps_of_step hstep hst
    exact ⟨st', hst', hstops.keep hkeeps hclosed⟩
  clean := hclean

theorem Kept.setCall (h : Kept s) {call : Nat} {c : Call}
    (hc : Refused c.frame → ∃ st, s.transport.streams c.stream = some st ∧
      Stops st s.transport.closed c.frame c.stage) :
    Kept { s with calls := s.setCall call c } where
  stops other c' hother hrefused := by
    change Function.update s.calls call (some c) other = some c' at hother
    by_cases heq : other = call
    · rw [heq, Function.update_self] at hother
      obtain rfl := Option.some.inj hother
      exact hc hrefused
    · rw [Function.update_of_ne heq] at hother
      exact h.stops other c' hother hrefused
  clean := h.clean

theorem Kept.not_refused (h : Kept s) {call : Nat} {c : Call} (hcall : s.calls call = some c)
    (hstage : ∀ st, ¬ Stops st s.transport.closed c.frame c.stage) : ¬ Refused c.frame := by
  intro hrefused
  obtain ⟨st, -, hstops⟩ := h.stops call c hcall hrefused
  exact hstage st hstops

theorem Kept.step (h : Kept s) (hok : Harmless s a)
    (hstep : Step snow build transport s a t) : Kept t := by
  cases hstep with
  | begins hst => exact h.setCall fun hrefused => ⟨_, hst, hok hrefused _ hst⟩
  | @move call c st stage hcall hst hmove =>
      refine h.setCall fun hrefused => ⟨st, hst, ?_⟩
      obtain ⟨st', hst', hstops⟩ := h.stops call c hcall hrefused
      obtain rfl := Option.some.inj (hst.symm.trans hst')
      exact hstops.move hrefused hmove
  | @take call c st amount flow rest hcall hstage hst hflow htake =>
      have hframe : ¬ Refused c.frame :=
        h.not_refused hcall fun _ => by rw [hstage]; exact id
      have htaken := h.proceed transport (.takeCredit hst hflow htake) id h.clean
      exact htaken.setCall fun hrefused => absurd hrefused hframe
  | submit hcall hstage hsubmits =>
      have hframe := h.not_refused hcall fun _ => by rw [hstage]; exact id
      exact ⟨h.stops, h.clean.submits hframe hsubmits⟩
  | @hear call c result hcall hstage =>
      have hframe : ¬ Refused c.frame :=
        h.not_refused hcall fun _ => by rw [hstage]; exact id
      exact h.setCall fun hrefused => absurd hrefused hframe
  | abandon hcall =>
      refine h.setCall fun hrefused => ?_
      obtain ⟨st, hst, -⟩ := h.stops _ _ hcall hrefused
      exact ⟨st, hst, trivial⟩
  | direct _ hsubmits => exact ⟨h.stops, h.clean.submits hok hsubmits⟩
  | closes hstep _ _ hclosed hwriter =>
      exact h.proceed transport hstep (fun _ => hclosed) (h.clean.step hwriter nofun)
  | writerEnds hstep =>
      exact h.proceed transport .writerEnds (fun _ => rfl) (h.clean.step hstep nofun)
  | writer hstep hactor => exact ⟨h.stops, h.clean.step hstep hactor⟩
  | transport hstep _ _ hsame =>
      exact h.proceed transport hstep (fun hclosed => hsame ▸ hclosed) h.clean

end Invariant

/-- The calls with frames that the codec takes. -/
def others (calls : Nat → Option Call) : Nat → Option Call :=
  fun call => (calls call).filter fun c => c.frame.payload.length ≤ maxPayload

/-- As if no refused frame had been sent. -/
def State.without (s : State Cipher) : State Cipher := { s with calls := others s.calls }

/-- No refused frame is sent in this step. -/
def Action.Unrefused : Action → Prop
  | .begins _ frame | .direct frame => ¬ Refused frame
  | _ => True

section Erasure

variable {calls : Nat → Option Call} {call : Nat} {c old : Call}

theorem others_eq_some : others calls call = some c ↔ calls call = some c ∧ ¬ Refused c.frame := by
  rw [others, Option.filter_eq_some_iff, decide_eq_true_eq, Refused, not_lt]

theorem others_eq_none (h : calls call = none) : others calls call = none := by
  rw [others, h]
  rfl

theorem others_update (calls : Nat → Option Call) (call : Nat) (h : ¬ Refused c.frame) :
    others (Function.update calls call (some c)) =
      Function.update (others calls) call (some c) := by
  funext other
  by_cases heq : other = call
  · subst heq
    rw [Function.update_self, others_eq_some]
    exact ⟨Function.update_self .., h⟩
  · rw [Function.update_of_ne heq, others, others, Function.update_of_ne heq]

theorem others_update_refused (h : Refused c.frame)
    (hold : ∀ old, calls call = some old → Refused old.frame) :
    others (Function.update calls call (some c)) = others calls := by
  have hnone : ∀ calls' : Nat → Option Call,
      (∀ old, calls' call = some old → Refused old.frame) → others calls' call = none := by
    intro calls' hrefused
    rw [Option.eq_none_iff_forall_ne_some]
    intro old hold
    obtain ⟨hcall, hnot⟩ := others_eq_some.mp hold
    exact hnot (hrefused old hcall)
  funext other
  by_cases heq : other = call
  · subst heq
    rw [hnone calls hold, hnone]
    intro old hcall
    rw [Function.update_self] at hcall
    exact Option.some.inj hcall ▸ h
  · rw [others, others, Function.update_of_ne heq]

variable {snow : Snow Handshake Cipher} {build : Build} {transport : DeviceTransport}
  {s t : State Cipher} {a : Action}

theorem not_borrows_without {action : StreamRoutes.Action} (h : ¬ s.Borrows action) :
    ¬ s.without.Borrows action := by
  rintro ⟨call, c, hcall, hrest⟩
  exact h ⟨call, c, (others_eq_some.mp hcall).1, hrest⟩

theorem without_setCall (transport' : StreamRoutes.State) (stage : Stage)
    (hcall : s.calls call = some c) :
    let t : State Cipher :=
      { s with transport := transport', calls := s.setCall call { c with stage := stage } }
    (Refused c.frame → t.without = { s.without with transport := transport' }) ∧
      (¬ Refused c.frame → t.without = { s.without with
        transport := transport', calls := s.without.setCall call { c with stage := stage } }) := by
  constructor
  · intro hrefused
    have hsame := others_update_refused (c := { c with stage := stage }) hrefused
      fun old hold => Option.some.inj (hcall.symm.trans hold) ▸ hrefused
    exact congrArg (State.mk transport' s.writer) hsame
  · intro hframe
    have hmore := others_update s.calls call (c := { c with stage := stage }) hframe
    exact congrArg (State.mk transport' s.writer) hmore

/-- Without the refused frames, the same step is taken or none. -/
theorem without_step (h : Kept s) (hok : Harmless s a)
    (hstep : Step snow build transport s a t) :
    t.without = s.without ∨ a.Unrefused ∧ Step snow build transport s.without a t.without := by
  cases hstep with
  | @begins call stream frame st hst howner hfresh hunused =>
      by_cases hrefused : Refused frame
      · have hsame := others_update_refused (c := ⟨stream, frame, .ensureActive .entry⟩)
          hrefused fun old hold => nomatch hfresh.symm.trans hold
        exact .inl (congrArg (State.mk s.transport s.writer) hsame)
      · have hmore := others_update s.calls call (c := ⟨stream, frame, .ensureActive .entry⟩)
          hrefused
        have heq := congrArg (State.mk s.transport s.writer) hmore
        refine .inr ⟨hrefused, ?_⟩
        change Step snow build transport s.without _ ⟨s.transport, s.writer, others _⟩
        rw [State.setCall, heq]
        exact .begins hst howner (others_eq_none hfresh) hunused
  | @move call c st stage hcall hst hmove =>
      have hmoved := without_setCall s.transport stage hcall
      by_cases hrefused : Refused c.frame
      · exact .inl (hmoved.1 hrefused)
      · refine .inr ⟨trivial, ?_⟩
        rw [hmoved.2 hrefused]
        exact .move (others_eq_some.mpr ⟨hcall, hrefused⟩) hst hmove
  | @take call c st amount flow rest hcall hstage hst hflow htake =>
      have hframe : ¬ Refused c.frame :=
        h.not_refused hcall fun _ => by rw [hstage]; exact id
      refine .inr ⟨trivial, ?_⟩
      rw [(without_setCall _ _ hcall).2 hframe]
      exact .take (others_eq_some.mpr ⟨hcall, hframe⟩) hstage hst hflow htake
  | @submit call c w hcall hstage hsubmits =>
      have hframe : ¬ Refused c.frame :=
        h.not_refused hcall fun _ => by rw [hstage]; exact id
      exact .inr ⟨trivial, .submit (others_eq_some.mpr ⟨hcall, hframe⟩) hstage hsubmits⟩
  | @hear call c result hcall hstage htold =>
      have hframe : ¬ Refused c.frame :=
        h.not_refused hcall fun _ => by rw [hstage]; exact id
      refine .inr ⟨trivial, ?_⟩
      rw [(without_setCall s.transport _ hcall).2 hframe]
      exact .hear (others_eq_some.mpr ⟨hcall, hframe⟩) hstage htold
  | @abandon call c hcall hover hidle =>
      have hmoved := without_setCall s.transport .abandoned hcall
      by_cases hrefused : Refused c.frame
      · exact .inl (hmoved.1 hrefused)
      · refine .inr ⟨trivial, ?_⟩
        rw [hmoved.2 hrefused]
        exact .abandon (others_eq_some.mpr ⟨hcall, hrefused⟩) hover hidle
  | direct hcall hsubmits => exact .inr ⟨hok, .direct (others_eq_none hcall) hsubmits⟩
  | closes hstep hcloser hopen hclosed hwriter hsignaled =>
      exact .inr ⟨trivial, .closes hstep hcloser hopen hclosed hwriter hsignaled⟩
  | writerEnds hstep hopen hclosed => exact .inr ⟨trivial, .writerEnds hstep hopen hclosed⟩
  | writer hstep hactor hsame => exact .inr ⟨trivial, .writer hstep hactor hsame⟩
  | transport hstep hfree hkeeps hsame =>
      exact .inr ⟨trivial, .transport hstep (not_borrows_without hfree) hkeeps hsame⟩

/-- Without the refused ones a call that goes on does so beside them, too. -/
theorem step_of_without (hcall : s.calls call = some c) (hframe : ¬ Refused c.frame)
    (hstep : Step snow build transport s.without (.call call) t) :
    ∃ u, Step snow build transport s (.call call) u ∧ u.without = t := by
  have hback : ∀ c', s.without.calls call = some c' → s.calls call = some c' :=
    fun c' hc' => (others_eq_some.mp hc').1
  cases hstep with
  | @move _ c' st stage hc hst hmove =>
      obtain rfl := Option.some.inj (hcall.symm.trans (hback _ hc))
      exact ⟨_, .move hcall hst hmove,
        (without_setCall s.transport _ hcall).2 hframe⟩
  | take hc hstage hst hflow htake =>
      obtain rfl := Option.some.inj (hcall.symm.trans (hback _ hc))
      exact ⟨_, .take hcall hstage hst hflow htake, (without_setCall _ _ hcall).2 hframe⟩
  | submit hc hstage hsubmits =>
      obtain rfl := Option.some.inj (hcall.symm.trans (hback _ hc))
      exact ⟨_, .submit hcall hstage hsubmits, rfl⟩
  | hear hc hstage htold =>
      obtain rfl := Option.some.inj (hcall.symm.trans (hback _ hc))
      exact ⟨_, .hear hcall hstage htold,
        (without_setCall s.transport _ hcall).2 hframe⟩
  | abandon hc hover hidle =>
      obtain rfl := Option.some.inj (hcall.symm.trans (hback _ hc))
      exact ⟨_, .abandon hcall hover hidle,
        (without_setCall s.transport _ hcall).2 hframe⟩

end Erasure

section Ending

variable {snow : Snow Handshake Cipher} {build : Build} {transport : DeviceTransport}
  {noise : Option (TransportState Cipher)} {s t : State Cipher} {a : Action}

/-- Once a refused frame has come back from the writer task, with its error, the connection is
closed, or is about to be, for all streams and for good. -/
theorem refused_closes (h : (system snow build transport noise).Reachable s) {call : Nat}
    {frame : Frame} (hrefused : Refused frame) {result : Except String Unit}
    (htold : s.writer.submissions call = some ⟨frame, .told result⟩) :
    (∃ message, result = .error message) ∧
      (∀ command ∈ s.writer.written, command.done ≠ call) ∧
      ∀ t, (system snow build transport noise).Leads s t →
        ∃ u, (system snow build transport noise).LeadsBy (· = .other) t u ∧
          u.transport.closed = true := by
  obtain ⟨herror, hwritten, hends⟩ := SharedWriter.refused_ends_connection snow build
    SharedWriter.DeviceTransport.writerTask noise (reachable_writer h) hrefused htold
  refine ⟨herror, hwritten, ?_⟩
  intro t hruns
  obtain ⟨-, w, hwriter, hclosed⟩ := hends t.writer (leads_writer hruns)
  obtain ⟨u, hother, rfl⟩ := leads_other transport hwriter rfl
  exact ⟨u, hother, closed_of_reachable ((h.leads hruns).leads hother.leads) ▸ hclosed⟩

end Ending

section Runs

variable {snow : Snow Handshake Cipher} {build : Build} {transport : DeviceTransport}
  {noise : Option (TransportState Cipher)} {s t : State Cipher} {a : Action}

variable (snow build transport noise) in
/-- The frames that the codec refuses are errors of their own calls, and all else is as if they
had not been sent. -/
structure Isolated (s : State Cipher) : Prop where
  error : ∀ call c result, s.calls call = some c → Refused c.frame → c.stage = .told result →
    ∃ error, result = .error error
  returns : ∀ call c, s.calls call = some c → Refused c.frame → c.stage.over = false →
    ∃ error, (system snow build transport noise).LeadsBy (· = .call call) s
      { s with calls := s.setCall call { c with stage := .told (.error error) } }
  unwritten : ∀ command ∈ s.writer.accepted, ¬ Refused command.frame
  asIf : (system snow build transport noise).LeadsWith (fun _ a => a.Unrefused) (.initial noise)
    s.without
  goesOn : ∀ call c t, s.calls call = some c → ¬ Refused c.frame →
    Step snow build transport s.without (.call call) t →
      ∃ u, Step snow build transport s (.call call) u ∧ u.without = t

theorem Kept.isolated (h : Kept s)
    (hasIf : (system snow build transport noise).LeadsWith (fun _ a => a.Unrefused)
      (.initial noise) s.without) : Isolated snow build transport noise s where
  error call c result hcall hrefused hstage := by
    obtain ⟨st, -, hstops⟩ := h.stops call c hcall hrefused
    rw [hstage] at hstops
    exact hstops
  returns call c hcall hrefused hover := by
    obtain ⟨st, hst, hstops⟩ := h.stops call c hcall hrefused
    obtain ⟨error, hmoves⟩ := hstops.moves hrefused hover
    exact ⟨error, leads_of_moves hcall hst hmoves⟩
  unwritten := h.clean.accepted
  asIf := hasIf
  goesOn _ _ _ hcall hframe := step_of_without hcall hframe

theorem kept_initial : Kept (.initial noise) where
  stops := nofun
  clean := ⟨nofun, nofun⟩

end Runs

/-- In a run in which refused frames are sent only where they cannot come to the writer task,
each is an error of its own call and of nothing else. Where one has come to the writer task, its
error ends the connection for all. -/
theorem refused_isolated (snow : Snow Handshake Cipher) (build : Build)
    (transport : DeviceTransport) (noise : Option (TransportState Cipher)) :
    (∀ t trace, (system snow build transport noise).Run (.initial noise) trace t →
      (∀ p ∈ trace, Harmless p.1 p.2) →
      ∀ s ∈ System.visited trace t, Isolated snow build transport noise s) ∧
    ∀ s, (system snow build transport noise).Reachable s → ∀ call frame result,
      Refused frame → s.writer.submissions call = some ⟨frame, .told result⟩ →
        (∃ message, result = .error message) ∧
        (∀ command ∈ s.writer.written, command.done ≠ call) ∧
        ∀ t, (system snow build transport noise).Leads s t →
          ∃ u, (system snow build transport noise).LeadsBy (· = .other) t u ∧
            u.transport.closed = true := by
  refine ⟨?_, fun s h _ _ _ hrefused htold => refused_closes h hrefused htold⟩
  intro t trace hrun hharmless s hs
  have hvisited := hrun.visited_of_steps
    (P := fun u => Kept u ∧ (system snow build transport noise).LeadsWith
      (fun _ a => a.Unrefused) (.initial noise) u.without)
    Harmless ?_ ⟨kept_initial, .refl _⟩ hharmless
  · exact (hvisited s hs).1.isolated (hvisited s hs).2
  · rintro u a v ⟨hkept, hruns⟩ hok hstep
    refine ⟨hkept.step hok hstep, ?_⟩
    rcases without_step hkept hok hstep with hsame | ⟨hunrefused, hwithout⟩
    · rwa [hsame]
    · exact hruns.trans (.head hwithout hunrefused (.refl _))

/-! Two streams are opened, and a frame of more than 16 MiB is sent on the first. -/

section Frames

def longFrame (kind : FrameKind) : Frame := ⟨kind, 1, List.replicate (maxPayload + 1) 0x61⟩
def ping : Frame := ⟨.ping, 2, [1, 2, 3, 4, 5, 6, 7, 8]⟩

def limitedTransport : DeviceTransport := ⟨true, fun _ => .ok 4⟩

theorem refused_longFrame (kind : FrameKind) : Refused (longFrame kind) := by
  rw [Refused, longFrame, List.length_replicate]
  exact Nat.lt_succ_self _

variable {snow : Snow Handshake Cipher} {build : Build} {transport : DeviceTransport}
  {s : State Cipher}

/-- The first two streams have been opened, with the ids 1 and 2. -/
def openedState (transport : DeviceTransport) : State Unit where
  transport :=
    { StreamRoutes.State.initial with
      nextStreamId := 3
      routes := Function.update (Function.update (fun _ => none) 1 (some 0)) 2 (some 1)
      streams := Function.update (Function.update (fun _ => none) 0
        (some (.new transport 1 []))) 1 (some (.new transport 2 [])) }
  writer := .initial none
  calls _ := none

theorem leads_opened (ok : State Unit → Action → Prop) (hok : ∀ s, ok s .other) :
    (system clearSnow currentBuild transport none).LeadsWith ok (.initial none)
      (openedState transport) := by
  have hone : (1 : UInt32) ≠ 0 := by decide
  have htwo : (2 : UInt32) ≠ 0 := by decide
  exact .head (opener_step (.enter rfl)) (hok _) <|
    .head (opener_step (.draw rfl hone)) (hok _) <|
    .head (opener_step (@StreamRoutes.Step.register _ _ 1 0 List.mem_cons_self rfl rfl rfl))
      (hok _) <|
    .head (opener_step (.enter rfl)) (hok _) <|
    .head (opener_step (.draw rfl htwo)) (hok _) <|
    .head (opener_step (@StreamRoutes.Step.register _ _ 2 1 List.mem_cons_self rfl rfl rfl))
      (hok _) <|
    .refl _

/-- On a stream with flow control a chunk is refused before it comes to the codec. -/
theorem leads_longChunk : ∃ s,
    (system clearSnow currentBuild limitedTransport none).LeadsWith Harmless (.initial none) s ∧
      s.calls 0 = some ⟨0, longFrame .fileChunk, .told (.error (.other
        s!"frame requires more than {maxFlowCredit} bytes of flow credit"))⟩ ∧
      s.transport.closed = false := by
  have hbarred : Barred (.new limitedTransport 1 []) (longFrame .fileChunk) := .inr ⟨rfl, rfl⟩
  have hharmless : Harmless (openedState limitedTransport) (.begins 0 (longFrame .fileChunk)) := by
    intro _ st hst
    obtain rfl := Option.some.inj hst
    exact .inr (.inr hbarred)
  have hsent : (system clearSnow currentBuild limitedTransport none).LeadsWith Harmless
      (openedState limitedTransport) _ :=
    .head (@Step.begins _ _ _ _ _ _ 0 0 (longFrame .fileChunk) _ rfl rfl rfl rfl) hharmless <|
    .head (@Step.move _ _ _ _ _ _ 0 _ _ _ rfl rfl (.active rfl)) trivial <|
    .head (@Step.move _ _ _ _ _ _ 0 _ _ _ rfl rfl (.opened rfl)) trivial <|
    .head (@Step.move _ _ _ _ _ _ 0 _ _ _ rfl rfl
      (.tooMuch rfl rfl (guardAmount_of_refused (refused_longFrame _)))) trivial <|
    .refl _
  exact ⟨_, (leads_opened Harmless fun _ => trivial).trans hsent, rfl, rfl⟩

/-- A text on the first stream is refused by the codec. Nobody else ends the connection, and
what is sent on the second stream fails with it. -/
theorem leads_longText : ∃ s,
    (system clearSnow currentBuild limitedTransport none).LeadsWith (fun _ a => a ≠ .closes)
      (.initial none) s ∧
      s.calls 0 = some ⟨0, longFrame .clipboardSet,
        .told (.error (.other (refusal (longFrame .clipboardSet))))⟩ ∧
      s.calls 1 = some ⟨1, ping, .told (.error (.other "device connection is closed"))⟩ ∧
      s.writer.submissions 0 = some ⟨longFrame .clipboardSet,
        .told (.error (refusal (longFrame .clipboardSet)))⟩ ∧
      s.transport.closed = true := by
  let M := system clearSnow currentBuild limitedTransport none
  have hsent : M.LeadsWith (fun _ a => a ≠ .closes) (openedState limitedTransport) _ :=
    .head (@Step.begins _ _ _ _ _ _ 0 0 (longFrame .clipboardSet) _ rfl rfl rfl rfl) nofun <|
    .head (@Step.move _ _ _ _ _ _ 0 _ _ _ rfl rfl (.active rfl)) nofun <|
    .head (@Step.move _ _ _ _ _ _ 0 _ _ _ rfl rfl (.opened rfl)) nofun <|
    .head (@Step.move _ _ _ _ _ _ 0 _ _ _ rfl rfl (.matched rfl nofun)) nofun <|
    .head (@Step.submit _ _ _ _ _ _ 0 _ _ rfl rfl ⟨.submit rfl rfl rfl, _, rfl⟩) nofun <|
    .head (@Step.submit _ _ _ _ _ _ 0 _ _ rfl rfl ⟨.send rfl nofun (by decide), _, rfl⟩) nofun <|
    .head (@Step.begins _ _ _ _ _ _ 1 1 ping _ rfl rfl rfl rfl) nofun <|
    .head (@Step.move _ _ _ _ _ _ 1 _ _ _ rfl rfl (.active rfl)) nofun <|
    .head (@Step.move _ _ _ _ _ _ 1 _ _ _ rfl rfl (.opened rfl)) nofun <|
    .head (@Step.move _ _ _ _ _ _ 1 _ _ _ rfl rfl (.matched rfl nofun)) nofun <|
    .head (@Step.submit _ _ _ _ _ _ 1 _ _ rfl rfl ⟨.submit rfl rfl rfl, _, rfl⟩) nofun <|
    .head (@Step.submit _ _ _ _ _ _ 1 _ _ rfl rfl ⟨.send rfl nofun (by decide), _, rfl⟩) nofun <|
    .refl _
  have hrefused := hsent.trans <|
    .head (.writer (.arm rfl rfl) nofun rfl) nofun <|
    .head (.writer (.receive rfl rfl) nofun rfl) nofun <|
    .head (.writer (.startWrite rfl rfl) nofun rfl) nofun <|
    .head (.writer (.failWrite rfl
      (SharedWriter.progress_of_refused (refused_longFrame _) _ _) (by rintro _ ⟨⟩; rfl))
      nofun rfl) nofun <|
    .head (.writer (.report rfl) nofun rfl) nofun <|
    .head (@Step.submit _ _ _ _ _ _ 0 _ _ rfl rfl ⟨.hear rfl rfl, _, rfl⟩) nofun <|
    .head (@Step.hear _ _ _ _ _ _ 0 _ _ rfl rfl rfl) nofun <|
    .head (@Step.move _ _ _ _ _ _ 0 _ _ _ rfl rfl (.active rfl)) nofun <|
    .head (@Step.move _ _ _ _ _ _ 0 _ _ _ rfl rfl (.opened rfl)) nofun <|
    .refl _
  have hended := hrefused.trans <|
    .head (.writerEnds (.signal rfl) rfl rfl) nofun <|
    .head (.writer (.finish rfl) nofun rfl) nofun <|
    .head (@Step.submit _ _ _ _ _ _ 1 _ _ rfl rfl ⟨.hearDropped rfl rfl, _, rfl⟩) nofun <|
    .head (@Step.hear _ _ _ _ _ _ 1 _ _ rfl rfl rfl) nofun <|
    .head (@Step.move _ _ _ _ _ _ 1 _ _ _ rfl rfl (.active rfl)) nofun <|
    .head (@Step.move _ _ _ _ _ _ 1 _ _ _ rfl rfl (.closed rfl)) nofun <|
    .refl _
  exact ⟨_, (leads_opened _ fun _ => nofun).trans hended, rfl, rfl, rfl, rfl⟩

theorem refused_isolated_longFrame :
    (∃ s : State Unit, s.calls 0 = some ⟨0, longFrame .fileChunk, .told (.error (.other
        s!"frame requires more than {maxFlowCredit} bytes of flow credit"))⟩ ∧
      s.transport.closed = false ∧
      Isolated clearSnow currentBuild limitedTransport none s) ∧
    ∃ s : State Unit, s.calls 0 = some ⟨0, longFrame .clipboardSet,
        .told (.error (.other (refusal (longFrame .clipboardSet))))⟩ ∧
      ∀ t, (system clearSnow currentBuild limitedTransport none).Leads s t →
        ∃ u, (system clearSnow currentBuild limitedTransport none).LeadsBy (· = .other) t u ∧
          u.transport.closed = true := by
  obtain ⟨hisolated, hcloses⟩ := refused_isolated clearSnow currentBuild limitedTransport none
  obtain ⟨s, ⟨trace, hrun, hharmless⟩, hcall, hopen⟩ := leads_longChunk
  obtain ⟨t, hruns, htext, -, htold, -⟩ := leads_longText
  refine ⟨⟨s, hcall, hopen, hisolated s trace hrun hharmless s ?_⟩, t, htext, ?_⟩
  · exact List.mem_append_right _ List.mem_cons_self
  · exact (hcloses t ⟨_, rfl, hruns.leads⟩ 0 _ _ (refused_longFrame _) htold).2.2

/-- A refused frame leaves neither the connection open nor the sends of other streams alone. -/
theorem longText_fails_ping :
    let Sent (s : State Unit) : Prop :=
      (system clearSnow currentBuild limitedTransport none).LeadsWith (fun _ a => a ≠ .closes)
        (.initial none) s ∧
      s.calls 0 = some ⟨0, longFrame .clipboardSet,
        .told (.error (.other (refusal (longFrame .clipboardSet))))⟩
    ¬ (∀ s, Sent s → s.transport.closed = false) ∧
      ¬ ∀ s, Sent s → ∀ error, s.calls 1 ≠ some ⟨1, ping, .told (.error error)⟩ := by
  obtain ⟨s, hruns, htext, hping, -, hclosed⟩ := leads_longText
  refine ⟨fun h => ?_, fun h => h s ⟨hruns, htext⟩ _ hping⟩
  exact nomatch hclosed.symm.trans (h s ⟨hruns, htext⟩)

end Frames

end SideWire.StreamSends
