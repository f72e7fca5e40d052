import SideWire.DaemonServe

namespace SideWire.DaemonServe

open SideWire.TransitionSystem
open SideWire.FrameCodec

variable {serve : Serve} {s t : State} {a : Action}

namespace Phase

/-- The handler has returned, and its task has nothing left but to take back what it has
registered and to report. -/
def concluded : Phase → Bool
  | returned | unrouted | uncanceled | finished => true
  | _ => false

end Phase

/-- The entries of others are as they were. -/
def Intact (s t : State) : Prop :=
  ∀ id task, (s.routes id = some task → t.routes id = some task) ∧
    (s.cancels id = some task → t.cancels id = some task) ∧
    (s.flowCredits id = some task → t.flowCredits id = some task)

/-- When `serve` has returned, every handler has, too, or has been told to. -/
def Settled (s : State) : Prop :=
  s.dispatcher = .returned → ∀ task h, s.handlers task = some h →
    h.phase.concluded = true ∨ h.watch = true ∨
      .stream ∈ h.request.registers ∧ ∀ id, s.routes id ≠ some task

/-- The task is being registered, and what is pending has no entry of its own yet. -/
def Pending (s : State) (task : Nat) (pending : List Register) : Prop :=
  pending.Nodup ∧ ∃ h, s.handlers task = some h ∧ h.phase = .starting ∧
    (.stream ∈ pending → s.routes h.streamId = none) ∧
    ∀ id, (.cancel ∈ pending → s.cancels id ≠ some task) ∧
      (.flow ∈ pending → s.flowCredits id ≠ some task)

/-- The entries go by the numbers of tasks. -/
structure Numbered (s : State) : Prop where
  handlers : ∀ task h, s.handlers task = some h → task < s.next
  cancels : ∀ id task, s.cancels id = some task → task < s.next
  flowCredits : ∀ id task, s.flowCredits id = some task → task < s.next
  pending : ∀ task pending, s.dispatcher = .registering task pending → Pending s task pending

theorem Numbered.initial : Numbered .initial where
  handlers _ _ hh := nomatch hh
  cancels _ _ hentry := nomatch hentry
  flowCredits _ _ hentry := nomatch hentry
  pending _ _ hdispatcher := nomatch hdispatcher

theorem Numbered.move (hn : Numbered s) {task : Nat} {h : Handler} (k : Handler)
    (hh : s.handlers task = some h) (hstarting : h.phase ≠ .starting)
    {t : State} (hnext : t.next = s.next) (hdispatcher : t.dispatcher = s.dispatcher)
    (hhandlers : t.handlers = s.setHandler task k)
    (hroutes : ∀ id, s.routes id = none → t.routes id = none)
    (hcancels : ∀ id owner, t.cancels id = some owner → s.cancels id = some owner)
    (hflows : ∀ id owner, t.flowCredits id = some owner → s.flowCredits id = some owner) :
    Numbered t := by
  refine ⟨?_, ?_, ?_, ?_⟩
  · intro owner l hl
    rw [hnext]
    by_cases heq : owner = task
    · exact heq ▸ hn.handlers task h hh
    · rw [hhandlers, State.setHandler, Function.update_of_ne heq] at hl
      exact hn.handlers owner l hl
  · exact fun id owner hentry => hnext ▸ hn.cancels id owner (hcancels id owner hentry)
  · exact fun id owner hentry => hnext ▸ hn.flowCredits id owner (hflows id owner hentry)
  · intro owner pending hregistering
    rw [hdispatcher] at hregistering
    obtain ⟨hnodup, l, hl, hphase, hroute, hentries⟩ := hn.pending owner pending hregistering
    have hne : owner ≠ task := by
      rintro rfl
      obtain rfl := Option.some.inj (hh.symm.trans hl)
      exact hstarting hphase
    refine ⟨hnodup, l, ?_, hphase, fun hmem => hroutes _ (hroute hmem), fun id =>
      ⟨fun hmem hentry => (hentries id).1 hmem (hcancels id owner hentry),
        fun hmem hentry => (hentries id).2 hmem (hflows id owner hentry)⟩⟩
    rw [hhandlers, State.setHandler, Function.update_of_ne hne, hl]

theorem Numbered.dispatch (hn : Numbered s) {t : State} (hnext : t.next = s.next)
    (hdispatcher : ∀ task pending, t.dispatcher ≠ .registering task pending)
    (hhandlers : ∀ task h, t.handlers task = some h → ∃ k, s.handlers task = some k)
    (hcancels : ∀ id owner, t.cancels id = some owner → s.cancels id = some owner)
    (hflows : ∀ id owner, t.flowCredits id = some owner → s.flowCredits id = some owner) :
    Numbered t where
  handlers task h hh := by
    obtain ⟨k, hk⟩ := hhandlers task h hh
    exact hnext ▸ hn.handlers task k hk
  cancels id owner hentry := hnext ▸ hn.cancels id owner (hcancels id owner hentry)
  flowCredits id owner hentry := hnext ▸ hn.flowCredits id owner (hflows id owner hentry)
  pending task pending hregistering := absurd hregistering (hdispatcher task pending)

theorem register_cases {id : UInt32} {task : Nat} {entry : Register} {accepted : Bool}
    (h : DaemonServe.register serve s id task entry = (accepted, t)) :
    t.next = s.next ∧ t.handlers = s.handlers ∧ (entry = .stream ∨ t.routes = s.routes) ∧
      (t.cancels = s.cancels ∨ entry = .cancel ∧ t.cancels = s.setCancel id (some task)) ∧
      (t.flowCredits = s.flowCredits ∨
        entry = .flow ∧ t.flowCredits = s.setFlow id (some task)) := by
  cases entry with
  | stream =>
      rw [DaemonServe.register] at h
      split_ifs at h <;> obtain ⟨_, rfl⟩ := Prod.mk.inj h <;> simp
  | cancel =>
      obtain ⟨_, rfl⟩ := Prod.mk.inj h
      simp
  | flow =>
      rw [DaemonServe.register] at h
      split_ifs at h <;> obtain ⟨_, rfl⟩ := Prod.mk.inj h <;> simp

theorem entry_of_set {entries entries' : UInt32 → Option Nat} {id other : UInt32}
    {task owner : Nat} {P : Prop}
    (h : entries' = entries ∨ P ∧ entries' = Function.update entries id (some task))
    (hentry : entries' other = some owner) :
    entries other = some owner ∨ P ∧ owner = task := by
  rcases h with rfl | ⟨hP, rfl⟩
  · exact .inl hentry
  · by_cases heq : other = id
    · rw [heq, Function.update_self] at hentry
      exact .inr ⟨hP, (Option.some.inj hentry).symm⟩
    · rw [Function.update_of_ne heq] at hentry
      exact .inl hentry

theorem Numbered.register (hn : Numbered s) {task : Nat} {h : Handler} {entry : Register}
    {pending : List Register} {accepted : Bool}
    (hdispatcher : s.dispatcher = .registering task (entry :: pending))
    (hh : s.handlers task = some h)
    (hregister : DaemonServe.register serve s h.streamId task entry = (accepted, t)) :
    t.next = s.next ∧ t.handlers = s.handlers ∧
      (∀ id owner, t.cancels id = some owner → owner < s.next) ∧
      (∀ id owner, t.flowCredits id = some owner → owner < s.next) ∧
      Pending t task pending := by
  obtain ⟨hnext, hhandlers, hroutes, hcancels, hflows⟩ := register_cases hregister
  obtain ⟨hnodup, k, hk, hphase, hroute, hentries⟩ := hn.pending _ _ hdispatcher
  obtain rfl := Option.some.inj (hh.symm.trans hk)
  obtain ⟨hfirst, hrest⟩ := List.nodup_cons.mp hnodup
  refine ⟨hnext, hhandlers, ?_, ?_, hrest, h, hhandlers ▸ hh, hphase, ?_, ?_⟩
  · intro id owner howner
    rcases entry_of_set hcancels howner with howner | ⟨_, rfl⟩
    · exact hn.cancels id owner howner
    · exact hn.handlers _ h hh
  · intro id owner howner
    rcases entry_of_set hflows howner with howner | ⟨_, rfl⟩
    · exact hn.flowCredits id owner howner
    · exact hn.handlers _ h hh
  · intro hmem
    rcases hroutes with rfl | hroutes
    · exact absurd hmem hfirst
    · exact hroutes ▸ hroute (List.mem_cons_of_mem _ hmem)
  · intro id
    refine ⟨fun hmem howner => ?_, fun hmem howner => ?_⟩
    · rcases entry_of_set hcancels howner with howner | ⟨rfl, _⟩
      · exact (hentries id).1 (List.mem_cons_of_mem _ hmem) howner
      · exact hfirst hmem
    · rcases entry_of_set hflows howner with howner | ⟨rfl, _⟩
      · exact (hentries id).2 (List.mem_cons_of_mem _ hmem) howner
      · exact hfirst hmem

theorem Numbered.request (hn : Numbered s) (h : Handler) (hstarting : h.phase = .starting)
    (hroute : s.routes h.streamId = none) :
    Numbered { s with
      dispatcher := .registering s.next h.request.registers, next := s.next + 1
      handlers := s.setHandler s.next h } := by
  refine ⟨?_, fun id owner howner => Nat.lt_succ_of_lt (hn.cancels id owner howner),
    fun id owner howner => Nat.lt_succ_of_lt (hn.flowCredits id owner howner), ?_⟩
  · intro task k hk
    by_cases heq : task = s.next
    · exact heq ▸ Nat.lt_succ_self _
    · exact Nat.lt_succ_of_lt
        (hn.handlers task k ((Function.update_of_ne heq _ _).symm.trans hk))
  · rintro task pending ⟨⟩
    refine ⟨by cases h.request <;> decide, h, Function.update_self .., hstarting,
      fun _ => hroute, fun id => ⟨fun _ howner => ?_, fun _ howner => ?_⟩⟩
    · exact absurd (hn.cancels id _ howner) (Nat.lt_irrefl _)
    · exact absurd (hn.flowCredits id _ howner) (Nat.lt_irrefl _)

theorem Numbered.step (hn : Numbered s) (hstep : Step serve s a t) : Numbered t := by
  cases hstep with
  | windowUpdate => exact hn
  | badUpdate | cancel | route | unsupported | stop | unroute | overflow | inboxClosed | drop
  | pongFails | clearRoutes | drainProxies | close =>
      exact hn.dispatch rfl (fun _ _ => nofun) (fun _ h hh => ⟨h, hh⟩) (fun _ _ hc => hc)
        fun _ _ hf => hf
  | signal =>
      refine hn.dispatch rfl (fun _ _ => nofun) ?_ (fun _ _ hc => some_of_update_none hc)
        fun _ _ hf => hf
      intro task h hh
      obtain ⟨k, hk, _⟩ := Option.map_eq_some_iff.mp hh
      exact ⟨k, hk⟩
  | answer =>
      exact hn.dispatch rfl (fun _ _ => nofun) (fun _ h hh => ⟨h, hh⟩) (fun _ _ hc => hc)
        fun _ _ hf => some_of_update_none hf
  | drainCancels =>
      refine hn.dispatch rfl (fun _ _ => nofun) ?_ nofun fun _ _ hf => hf
      intro task h hh
      obtain ⟨k, hk, _⟩ := Option.map_eq_some_iff.mp hh
      exact ⟨k, hk⟩
  | writerFails | sendCancel | cancelSent =>
      exact ⟨hn.handlers, hn.cancels, hn.flowCredits, hn.pending⟩
  | @request frame request _ hroute _ =>
      exact hn.request ⟨frame.streamId, request, frame.payload, .starting, false, []⟩ rfl hroute
  | @deliver _ task h _ hh | @spawn task h _ hh =>
      refine hn.dispatch rfl (fun _ _ => nofun) ?_ (fun _ _ hc => hc) fun _ _ hf => hf
      intro owner l hl
      by_cases heq : owner = task
      · exact ⟨h, heq ▸ hh⟩
      · exact ⟨l, (Function.update_of_ne heq _ _).symm.trans hl⟩
  | register hdispatcher hh hregister =>
      obtain ⟨hnext, hhandlers, hcancels, hflows, hpending⟩ :=
        hn.register hdispatcher hh hregister
      refine ⟨fun task l hl => hnext ▸ hn.handlers task l (hhandlers ▸ hl),
        fun id owner howner => hnext ▸ hcancels id owner howner,
        fun id owner howner => hnext ▸ hflows id owner howner, ?_⟩
      rintro _ _ ⟨⟩
      exact hpending
  | @reject t task h _ _ hdispatcher hh hregister =>
      obtain ⟨hnext, _, hcancels, hflows, _⟩ := hn.register hdispatcher hh hregister
      refine ⟨?_, fun id owner howner => hnext ▸ hcancels id owner howner,
        fun id owner howner => hnext ▸ hflows id owner howner, fun _ _ => nofun⟩
      intro owner l hl
      by_cases heq : owner = task
      · exact hnext ▸ heq ▸ hn.handlers task h hh
      · exact hnext ▸ hn.handlers owner l ((Function.update_of_ne heq _ _).symm.trans hl)
  | take hh hphase | handlerReturns hh hphase | bind hh hphase | ack hh hphase | ackFails hh hphase
  | store hh hphase =>
      exact hn.move _ hh (by rw [hphase]; exact nofun) rfl rfl rfl (fun _ hnone => hnone)
        (fun _ _ hc => hc) fun _ _ hf => hf
  | unregisterStream hh hphase =>
      refine hn.move _ hh (by rw [hphase]; exact nofun) rfl rfl rfl ?_ (fun _ _ hc => hc)
        fun _ _ hf => hf
      intro id hnone
      dsimp only
      split_ifs with hstream
      · exact update_none hnone
      · exact hnone
  | unregisterCancel hh hphase =>
      refine hn.move _ hh (by rw [hphase]; exact nofun) rfl rfl rfl (fun _ hnone => hnone) ?_
        fun _ _ hf => hf
      intro id owner howner
      dsimp only at howner
      split_ifs at howner
      · exact some_of_update_none howner
      · exact howner
  | finish hh hphase =>
      exact hn.move _ hh (by rw [hphase]; exact nofun) rfl rfl rfl (fun _ hnone => hnone)
        (fun _ _ hc => hc) fun _ _ hf => some_of_update_none hf

/-- No registration is rejected, and a task takes back no watch but its own. -/
structure Proper (s : State) (a : Action) : Prop where
  accepted : a ≠ .rejects
  own : ∀ task h, a = .uncancels task → s.handlers task = some h →
    .cancel ∈ h.request.registers → ∀ other, s.cancels h.streamId = some other → other = task

namespace Dispatcher

def routesGone : Dispatcher → Bool
  | unrouted | uncanceled | drained | returned => true
  | _ => false

def cancelsGone : Dispatcher → Bool
  | uncanceled | drained | returned => true
  | _ => false

end Dispatcher

/-- A handler that can be canceled has been told so, has its watch in `cancels`, or is
still to get it. -/
def Watched (s : State) : Prop :=
  ∀ task h, s.handlers task = some h → h.phase.cancelable = true →
    .cancel ∈ h.request.registers → h.watch = true ∨ s.cancels h.streamId = some task ∨
      ∃ pending, s.dispatcher = .registering task pending ∧ .cancel ∈ pending

/-- A handler that `serve` is still registering. -/
def Started (s : State) : Prop :=
  ∀ task h, s.handlers task = some h → h.phase = .starting →
    ∃ pending, s.dispatcher = .registering task pending

structure Attached (s : State) : Prop where
  watched : Watched s
  started : Started s
  routes : s.dispatcher.routesGone = true → ∀ id, s.routes id = none
  cancels : s.dispatcher.cancelsGone = true → ∀ id, s.cancels id = none

theorem Attached.initial : Attached .initial where
  watched _ _ hh := nomatch hh
  started _ _ hh := nomatch hh
  routes h := nomatch h
  cancels h := nomatch h

theorem Attached.settled (h : Attached s) : Settled s := by
  intro hreturned task k hk
  have hroutes := h.routes (by rw [hreturned]; rfl)
  have hcancels := h.cancels (by rw [hreturned]; rfl)
  by_cases hover : k.phase.concluded = true
  · exact .inl hover
  have hcancelable : k.phase.cancelable = true := by
    cases hphase : k.phase <;> simp [hphase, Phase.concluded, Phase.cancelable] at hover ⊢
  by_cases hcancel : Register.cancel ∈ k.request.registers
  · rcases h.watched task k hk hcancelable hcancel with hwatch | hentry | ⟨_, hregistering, _⟩
    · exact .inr (.inl hwatch)
    · exact nomatch (hcancels _).symm.trans hentry
    · exact nomatch hreturned.symm.trans hregistering
  · have hstream : Register.stream ∈ k.request.registers := by
      cases hrequest : k.request <;> simp [hrequest, Request.registers] at hcancel ⊢
    exact .inr (.inr ⟨hstream, fun id hentry => nomatch (hroutes id).symm.trans hentry⟩)

theorem Watched.step (h : Watched s)
    (hhandlers : ∀ task k, t.handlers task = some k → k.phase.cancelable = true →
      ∃ l, s.handlers task = some l ∧ l.phase.cancelable = true ∧ k.streamId = l.streamId ∧
        k.request = l.request ∧ (l.watch = true → k.watch = true) ∧
        (s.cancels l.streamId = some task →
          k.watch = true ∨ t.cancels l.streamId = some task))
    (hpending : ∀ task pending, s.dispatcher = .registering task pending →
      .cancel ∈ pending → (t.dispatcher = s.dispatcher)) :
    Watched t := by
  intro task k hk hcancelable hcancel
  obtain ⟨l, hl, hlcancelable, hid, hrequest, hwatch, hentry⟩ := hhandlers task k hk hcancelable
  rcases h task l hl hlcancelable (hrequest ▸ hcancel) with hset | hcancels |
    ⟨pending, hregistering, hmem⟩
  · exact .inl (hwatch hset)
  · rw [hid]
    rcases hentry hcancels with hset | hcancels
    · exact .inl hset
    · exact .inr (.inl hcancels)
  · exact .inr (.inr ⟨pending, (hpending task pending hregistering hmem).trans hregistering, hmem⟩)

theorem Attached.dispatch (h : Attached s) {t : State}
    (hidle : ∀ task pending, s.dispatcher ≠ .registering task pending)
    (hhandlers : t.handlers = s.handlers) (hcancels : t.cancels = s.cancels)
    (hroutes : t.dispatcher.routesGone = true → ∀ id, t.routes id = none)
    (hgone : t.dispatcher.cancelsGone = true → s.dispatcher.cancelsGone = true) :
    Attached t := by
  refine ⟨h.watched.step ?_ ?_, ?_, hroutes, fun htgone => hcancels ▸ h.cancels (hgone htgone)⟩
  · intro task k hk hcancelable
    rw [hhandlers] at hk
    exact ⟨k, hk, hcancelable, rfl, rfl, id, fun hentry => .inr (hcancels ▸ hentry)⟩
  · intro task pending hregistering
    exact absurd hregistering (hidle task pending)
  · intro task k hk hstarting
    rw [hhandlers] at hk
    obtain ⟨pending, hregistering⟩ := h.started task k hk hstarting
    exact absurd hregistering (hidle task pending)

theorem Attached.move (h : Attached s) {task : Nat} {l : Handler} (k : Handler)
    (hl : s.handlers task = some l) (hk : k.phase ≠ .starting) {t : State}
    (hdispatcher : t.dispatcher = s.dispatcher)
    (hhandlers : t.handlers = s.setHandler task k)
    (hroutes : ∀ id, s.routes id = none → t.routes id = none)
    (hless : ∀ id, s.cancels id = none → t.cancels id = none)
    (hcancels : ∀ id owner, owner ≠ task ∨ k.phase.cancelable = true →
      s.cancels id = some owner → t.cancels id = some owner)
    (hkeeps : k.phase.cancelable = true → l.phase.cancelable = true ∧
      k.streamId = l.streamId ∧ k.request = l.request ∧ k.watch = l.watch) :
    Attached t := by
  refine ⟨h.watched.step ?_ fun _ _ _ _ => hdispatcher, ?_, ?_, ?_⟩
  · intro owner m hm hcancelable
    rw [hhandlers] at hm
    by_cases heq : owner = task
    · subst heq
      obtain rfl := Option.some.inj ((s.setHandler_self ..).symm.trans hm)
      obtain ⟨hlcancelable, hid, hrequest, hwatch⟩ := hkeeps hcancelable
      exact ⟨l, hl, hlcancelable, hid, hrequest, fun hset => hwatch.trans hset,
        fun hentry => .inr (hcancels _ _ (.inr hcancelable) hentry)⟩
    · exact ⟨m, (s.setHandler_of_ne k heq).symm.trans hm, hcancelable, rfl, rfl, id,
        fun hentry => .inr (hcancels _ _ (.inl heq) hentry)⟩
  · intro owner m hm hmstarting
    rw [hhandlers] at hm
    by_cases heq : owner = task
    · subst heq
      obtain rfl := Option.some.inj ((s.setHandler_self ..).symm.trans hm)
      exact absurd hmstarting hk
    · rw [hdispatcher]
      exact h.started owner m ((s.setHandler_of_ne k heq).symm.trans hm) hmstarting
  · intro hgone id
    exact hroutes id (h.routes (hdispatcher ▸ hgone) id)
  · intro hgone id
    exact hless id (h.cancels (hdispatcher ▸ hgone) id)

theorem Attached.request (h : Attached s) (k : Handler)
    (hreading : s.dispatcher = .reading) :
    Attached { s with
      dispatcher := .registering s.next k.request.registers, next := s.next + 1
      handlers := s.setHandler s.next k } := by
  refine ⟨?_, ?_, nofun, nofun⟩
  · intro owner m hm hcancelable hcancel
    by_cases heq : owner = s.next
    · subst heq
      obtain rfl := Option.some.inj ((s.setHandler_self ..).symm.trans hm)
      exact .inr (.inr ⟨_, rfl, hcancel⟩)
    · have hm := (s.setHandler_of_ne k heq).symm.trans hm
      rcases h.watched owner m hm hcancelable hcancel with hset | hentry | ⟨_, hregistering, _⟩
      · exact .inl hset
      · exact .inr (.inl hentry)
      · exact nomatch hreading.symm.trans hregistering
  · intro owner m hm hstarting
    by_cases heq : owner = s.next
    · exact heq ▸ ⟨_, rfl⟩
    · obtain ⟨_, hregistering⟩ :=
        h.started owner m ((s.setHandler_of_ne k heq).symm.trans hm) hstarting
      exact nomatch hreading.symm.trans hregistering

/-- A registration that is accepted replaces no entry. -/
theorem register_accepted {id : UInt32} {task : Nat} {entry : Register}
    (h : DaemonServe.register serve s id task entry = (true, t)) {other : UInt32} {owner : Nat}
    (hentry : s.cancels other = some owner) : t.cancels other = some owner := by
  obtain ⟨_, _, _, hcancels | ⟨rfl, hcancels⟩, _⟩ := register_cases h
  · exact hcancels ▸ hentry
  · have hnone : s.cancels id = none := by
      simpa [DaemonServe.register] using congrArg Prod.fst h
    have hne : other ≠ id := by
      rintro rfl
      exact nomatch hnone.symm.trans hentry
    rw [hcancels]
    exact (Function.update_of_ne hne _ _).trans hentry

theorem Attached.register (h : Attached s) {task : Nat} {k : Handler} {entry : Register}
    {pending : List Register} (hd : s.dispatcher = .registering task (entry :: pending))
    (hk : s.handlers task = some k)
    (haccepted : DaemonServe.register serve s k.streamId task entry = (true, t)) :
    Attached { t with dispatcher := .registering task pending } := by
  obtain ⟨_, hhandlers, _, _, _⟩ := register_cases haccepted
  refine ⟨?_, ?_, nofun, nofun⟩
  · intro owner m hm hcancelable hcancel
    have hm : s.handlers owner = some m := hhandlers ▸ hm
    rcases h.watched owner m hm hcancelable hcancel with hset | hentry |
      ⟨_, hregistering, hmem⟩
    · exact .inl hset
    · exact .inr (.inl (register_accepted haccepted hentry))
    · obtain ⟨rfl, rfl⟩ := Dispatcher.registering.inj (hd.symm.trans hregistering)
      obtain rfl := Option.some.inj (hk.symm.trans hm)
      rcases List.mem_cons.mp hmem with rfl | hmem
      · obtain ⟨_, rfl⟩ := Prod.mk.inj haccepted
        exact .inr (.inl (Function.update_self ..))
      · exact .inr (.inr ⟨pending, rfl, hmem⟩)
  · intro owner m hm hstarting
    obtain ⟨_, hregistering⟩ := h.started owner m (hhandlers ▸ hm) hstarting
    obtain ⟨rfl, _⟩ := Dispatcher.registering.inj (hd.symm.trans hregistering)
    exact ⟨pending, rfl⟩

theorem Attached.settle (h : Attached s) {task : Nat} {l : Handler} (k : Handler)
    (hl : s.handlers task = some l) (hid : k.streamId = l.streamId)
    (hrequest : k.request = l.request) (hwatch : k.watch = l.watch)
    (hcancelable : k.phase.cancelable = true → l.phase.cancelable = true)
    (hstarting : k.phase ≠ .starting ∨ k.phase = l.phase)
    (hidle : ∀ owner pending, s.dispatcher = .registering owner pending →
      owner = task ∧ pending = [] ∧ k.phase ≠ .starting) :
    Attached { s with dispatcher := .reading, handlers := s.setHandler task k } := by
  refine ⟨h.watched.step ?_ ?_, ?_, nofun, nofun⟩
  · intro owner m hm hmcancelable
    by_cases heq : owner = task
    · subst heq
      obtain rfl := Option.some.inj ((s.setHandler_self ..).symm.trans hm)
      exact ⟨l, hl, hcancelable hmcancelable, hid, hrequest, fun hset => hwatch.trans hset,
        fun hentry => .inr hentry⟩
    · exact ⟨m, (s.setHandler_of_ne k heq).symm.trans hm, hmcancelable, rfl, rfl, id,
        fun hentry => .inr hentry⟩
  · intro owner pending hregistering hmem
    rw [(hidle owner pending hregistering).2.1] at hmem
    exact nomatch hmem
  · intro owner m hm hmstarting
    by_cases heq : owner = task
    · subst heq
      obtain rfl := Option.some.inj ((s.setHandler_self ..).symm.trans hm)
      rcases hstarting with hstarting | hsame
      · exact absurd hmstarting hstarting
      · obtain ⟨_, hregistering⟩ := h.started owner l hl (hsame.symm.trans hmstarting)
        exact absurd hmstarting (hidle _ _ hregistering).2.2
    · obtain ⟨_, hregistering⟩ :=
        h.started owner m ((s.setHandler_of_ne k heq).symm.trans hm) hmstarting
      exact absurd (hidle _ _ hregistering).1 heq

theorem Attached.signal (h : Attached s) (f : Nat → Handler → Handler) {t : State}
    (hhandlers : t.handlers = fun task => (s.handlers task).map (f task))
    (hf : ∀ task l, f task l = l ∨ f task l = { l with watch := true })
    (hcancels : ∀ task l, s.cancels l.streamId = some task →
      f task l = { l with watch := true } ∨ t.cancels l.streamId = some task)
    (hidle : ∀ owner pending, s.dispatcher ≠ .registering owner pending)
    (hroutes : t.dispatcher.routesGone = true → ∀ id, t.routes id = none)
    (hgone : t.dispatcher.cancelsGone = true → ∀ id, t.cancels id = none) : Attached t := by
  refine ⟨h.watched.step ?_ fun _ _ hregistering => absurd hregistering (hidle _ _), ?_,
    hroutes, hgone⟩
  · intro task k hk hcancelable
    rw [hhandlers] at hk
    obtain ⟨l, hl, rfl⟩ := Option.map_eq_some_iff.mp hk
    refine ⟨l, hl, ?_, ?_, ?_, ?_, ?_⟩
    · rcases hf task l with hsame | hset
      · rwa [hsame] at hcancelable
      · rwa [hset] at hcancelable
    · rcases hf task l with hsame | hset
      · rw [hsame]
      · rw [hset]
    · rcases hf task l with hsame | hset
      · rw [hsame]
      · rw [hset]
    · intro hwatch
      rcases hf task l with hsame | hset
      · rwa [hsame]
      · rw [hset]
    · intro hentry
      rcases hcancels task l hentry with hset | hentry
      · exact .inl (by rw [hset])
      · exact .inr hentry
  · intro task k hk hstarting
    rw [hhandlers] at hk
    obtain ⟨l, hl, rfl⟩ := Option.map_eq_some_iff.mp hk
    have hphase : l.phase = .starting := by
      rcases hf task l with hsame | hset
      · rwa [hsame] at hstarting
      · rwa [hset] at hstarting
    obtain ⟨_, hregistering⟩ := h.started task l hl hphase
    exact absurd hregistering (hidle _ _)

theorem Attached.step (h : Attached s) (hn : Numbered s) (hproper : Proper s a)
    (hstep : Step serve s a t) : Attached t := by
  cases hstep with
  | windowUpdate => exact h
  | badUpdate hd | cancel hd | route hd | unsupported hd | stop hd | unroute hd
  | overflow hd | inboxClosed hd | drop hd | answer hd | pongFails hd =>
      exact h.dispatch (by rw [hd]; exact fun _ _ => nofun) rfl rfl nofun nofun
  | clearRoutes hd =>
      exact h.dispatch (by rw [hd]; exact fun _ _ => nofun) rfl rfl (fun _ _ => rfl) nofun
  | drainProxies hd | close hd =>
      exact h.dispatch (by rw [hd]; exact fun _ _ => nofun) rfl rfl
        (fun _ => h.routes (by rw [hd]; rfl)) fun _ => by rw [hd]; rfl
  | writerFails | sendCancel | cancelSent =>
      exact ⟨h.watched, h.started, h.routes, h.cancels⟩
  | @request frame request hd _ _ =>
      exact h.request ⟨frame.streamId, request, frame.payload, .starting, false, []⟩ hd
  | @signal id hd =>
      refine h.signal (fun task l => if s.cancels id = some task then
        { l with watch := true } else l) rfl ?_ ?_ (by rw [hd]; exact fun _ _ => nofun) nofun nofun
      · intro task l
        split_ifs
        · exact .inr rfl
        · exact .inl rfl
      · intro task l hentry
        by_cases heq : l.streamId = id
        · exact .inl (if_pos (heq ▸ hentry))
        · exact .inr ((Function.update_of_ne heq _ _).trans hentry)
  | @deliver frame _ l hd hl =>
      exact h.settle { l with inbox := l.inbox ++ [frame] } hl rfl rfl rfl id (.inr rfl)
        (by rw [hd]; exact fun _ _ => nofun)
  | register hd hk haccepted => exact h.register hd hk haccepted
  | @spawn task l hd hl =>
      obtain ⟨_, m, hm, hstarting, _⟩ := hn.pending _ _ hd
      obtain rfl := Option.some.inj (hl.symm.trans hm)
      refine h.settle { l with phase := .running } hl rfl rfl rfl
        (fun _ => by rw [hstarting]; rfl) (.inl nofun) ?_
      intro owner pending hregistering
      obtain ⟨rfl, rfl⟩ := Dispatcher.registering.inj (hd.symm.trans hregistering)
      exact ⟨rfl, rfl, nofun⟩
  | reject => exact absurd rfl hproper.accepted
  | drainCancels hd =>
      refine h.signal (fun task l => if s.cancels l.streamId = some task then
        { l with watch := true } else l) rfl ?_ ?_ (by rw [hd]; exact fun _ _ => nofun)
        (fun _ => h.routes (by rw [hd]; rfl)) fun _ _ => rfl
      · intro task l
        split_ifs
        · exact .inr rfl
        · exact .inl rfl
      · exact fun task l hentry => .inl (if_pos hentry)
  | @take _ l _ rest hl hphase =>
      exact h.move { l with inbox := rest } hl (by simp [hphase]) rfl rfl
        (fun _ hnone => hnone) (fun _ hnone => hnone)
        (fun _ _ _ hentry => hentry) fun hc => ⟨hc, rfl, rfl, rfl⟩
  | @handlerReturns _ l hl hphase | @ackFails _ _ l _ hl hphase | @store _ _ l _ hl hphase =>
      exact h.move { l with phase := .returned } hl nofun rfl rfl (fun _ hnone => hnone)
        (fun _ hnone => hnone) (fun _ _ _ hentry => hentry)
        fun _ => ⟨by rw [hphase]; rfl, rfl, rfl, rfl⟩
  | @bind _ listener l proxy hl hphase =>
      exact h.move { l with phase := .acking listener proxy } hl nofun rfl rfl
        (fun _ hnone => hnone) (fun _ hnone => hnone) (fun _ _ _ hentry => hentry)
        fun _ => ⟨by rw [hphase]; rfl, rfl, rfl, rfl⟩
  | @ack _ listener l proxy hl hphase =>
      exact h.move { l with phase := .storing listener proxy } hl nofun rfl rfl
        (fun _ hnone => hnone) (fun _ hnone => hnone) (fun _ _ _ hentry => hentry)
        fun _ => ⟨by rw [hphase]; rfl, rfl, rfl, rfl⟩
  | @unregisterStream _ l hl hphase =>
      refine h.move { l with phase := .unrouted } hl nofun rfl rfl ?_
        (fun _ hnone => hnone) (fun _ _ _ hentry => hentry)
        fun _ => ⟨by rw [hphase]; rfl, rfl, rfl, rfl⟩
      intro id hnone
      dsimp only
      split_ifs
      · exact update_none hnone
      · exact hnone
  | @unregisterCancel task l hl hphase =>
      refine h.move { l with phase := .uncanceled } hl nofun rfl rfl
        (fun _ hnone => hnone) ?_ ?_ nofun
      · intro id hnone
        dsimp only
        split_ifs
        · exact update_none hnone
        · exact hnone
      · rintro id owner (hne | hfalse) hentry
        · dsimp only
          split_ifs with hcancel
          · have hid : id ≠ l.streamId := by
              rintro rfl
              exact hne (hproper.own task l rfl hl hcancel owner hentry)
            exact (Function.update_of_ne hid _ _).trans hentry
          · exact hentry
        · exact nomatch hfalse
  | @finish _ l hl hphase =>
      exact h.move { l with phase := .finished } hl nofun rfl rfl (fun _ hnone => hnone)
        (fun _ hnone => hnone) (fun _ _ _ hentry => hentry) nofun

/-- A rejected registration always takes the place of an entry of someone else. -/
theorem not_intact_of_rejects (hn : Numbered s) (hstep : Step serve s .rejects t) :
    ¬ Intact s t := by
  cases hstep with
  | @reject t task h entry pending hd hh hrejected =>
      obtain ⟨_, k, hk, _, hroute, hentries⟩ := hn.pending _ _ hd
      obtain rfl := Option.some.inj (hh.symm.trans hk)
      intro hintact
      cases entry with
      | stream => simp [DaemonServe.register, hroute List.mem_cons_self] at hrejected
      | cancel =>
          obtain ⟨hfst, rfl⟩ := Prod.mk.inj hrejected
          obtain ⟨other, hother⟩ := Option.ne_none_iff_exists'.mp (of_decide_eq_false hfst)
          have hself : s.setCancel h.streamId (some task) h.streamId = some other :=
            (hintact _ _).2.1 hother
          rw [State.setCancel, Function.update_self] at hself
          obtain rfl := Option.some.inj hself
          exact (hentries _).1 List.mem_cons_self hother
      | flow =>
          rw [DaemonServe.register] at hrejected
          split_ifs at hrejected
          · obtain ⟨hfst, rfl⟩ := Prod.mk.inj hrejected
            obtain ⟨other, hother⟩ := Option.ne_none_iff_exists'.mp (of_decide_eq_false hfst)
            have hself : s.setFlow h.streamId (some task) h.streamId = some other :=
              (hintact _ _).2.2 hother
            rw [State.setFlow, Function.update_self] at hself
            obtain rfl := Option.some.inj hself
            exact (hentries _).2 List.mem_cons_self hother
          · exact nomatch (Prod.mk.inj hrejected).1

/-- A rejected registration leaves the entries of others alone in no run. Where none is
rejected, and no task takes back the watch of another, every handler is settled by the
time `serve` returns. -/
theorem teardown_settles (serve : Serve) {trace : List (State × Action)} {t : State}
    (hrun : (system serve).Run .initial trace t) :
    ((∀ p ∈ trace, p.2 = .rejects → ∀ v, Step serve p.1 p.2 v → Intact p.1 v) ↔
      ∀ p ∈ trace, p.2 ≠ .rejects) ∧
    ((∀ p ∈ trace, Proper p.1 p.2) → ∀ u ∈ System.visited trace t, Settled u) := by
  refine ⟨⟨?_, fun hnone p hp hrejects => absurd hrejects (hnone p hp)⟩, ?_⟩
  · intro hintact p hp hrejects
    obtain ⟨v, hstep, _⟩ := hrun.step_visited (u := p.1) (a := p.2) hp
    have hvisited : p.1 ∈ System.visited trace t :=
      List.mem_append_left _ (List.mem_map.mpr ⟨p, hp, rfl⟩)
    have hn : Numbered p.1 := hrun.visited_of_steps (P := Numbered) (fun _ _ => True)
      (fun _ _ _ hn _ hnext => hn.step hnext) .initial (fun _ _ => trivial) _ hvisited
    exact not_intact_of_rejects hn (hrejects ▸ hstep) (hintact p hp hrejects v hstep)
  · intro hproper u hu
    have hboth := hrun.visited_of_steps (P := fun s => Numbered s ∧ Attached s) Proper
      (fun _ _ _ h hok hnext => ⟨h.1.step hnext, h.2.step h.1 hok hnext⟩)
      ⟨.initial, .initial⟩ hproper u hu
    exact hboth.2.settled

theorem Proper.of_ne {s : State} {a : Action} (hrejects : a ≠ .rejects)
    (huncancels : ∀ task, a ≠ .uncancels task) : Proper s a :=
  ⟨hrejects, fun task _ ha => absurd ha (huncancels task)⟩

/-- The connection ends while the command of an `exec` request runs. -/
theorem teardown_settles_exec :
    ∃ trace t, (system plainServe).Run .initial trace t ∧ t.dispatcher = .returned ∧
      (∃ h, t.handlers 0 = some h ∧ h.watch = true) ∧ (∀ p ∈ trace, Proper p.1 p.2) ∧
      ∀ u ∈ System.visited trace t, Settled u := by
  have hrun : (system plainServe).Run .initial _ _ :=
    .cons (@Step.request _ .initial execFrame .exec rfl rfl rfl) <|
    .cons (.register rfl rfl rfl) <| .cons (.spawn rfl rfl) <| .cons (.stop rfl) <|
    .cons (.clearRoutes rfl) <| .cons (.drainCancels rfl) <| .cons (.drainProxies rfl) <|
    .cons (.close rfl) (.nil _)
  have hsettled := (teardown_settles plainServe hrun).2
  refine ⟨_, _, hrun, rfl, ⟨_, rfl, rfl⟩, ?_, hsettled ?_⟩ <;>
  · simp only [List.forall_mem_cons]
    exact ⟨.of_ne nofun nofun, .of_ne nofun nofun, .of_ne nofun nofun, .of_ne nofun nofun,
      .of_ne nofun nofun, .of_ne nofun nofun, .of_ne nofun nofun, .of_ne nofun nofun,
      List.forall_mem_nil _⟩

/-- A second `exec` request on the stream of the first one is rejected, and the command of
the first goes on without being told of the end of the connection. -/
theorem secondExec_not_settled :
    ∃ trace t, (system plainServe).Run .initial trace t ∧
      (∃ p ∈ trace, p.2 = .rejects ∧ ∃ v, Step plainServe p.1 p.2 v ∧ ¬ Intact p.1 v) ∧
      ¬ Settled t := by
  have hrun : (system plainServe).Run .initial _ _ :=
    .cons (@Step.request _ .initial execFrame .exec rfl rfl rfl) <|
    .cons (.register rfl rfl rfl) <| .cons (.spawn rfl rfl) <|
    .cons (@Step.request _ _ execFrame .exec rfl rfl rfl) <|
    .cons (.reject rfl rfl rfl) <| .cons (.clearRoutes rfl) <| .cons (.drainCancels rfl) <|
    .cons (.drainProxies rfl) <| .cons (.close rfl) (.nil _)
  have hfifth : ∀ {b c d e f : State × Action} {rest}, f ∈ b :: c :: d :: e :: f :: rest := by
    simp
  refine ⟨_, _, hrun, ⟨_, hfifth, rfl, _, .reject rfl rfl rfl, ?_⟩, ?_⟩
  · intro hintact
    exact nomatch (hintact 1 0).2.1 rfl
  · intro hsettled
    rcases hsettled rfl 0 _ rfl with hover | hwatch | ⟨hstream, _⟩
    · exact nomatch hover
    · exact nomatch hwatch
    · exact absurd hstream (by decide)

end SideWire.DaemonServe
