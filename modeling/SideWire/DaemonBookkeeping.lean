import SideWire.DaemonServe

namespace SideWire.DaemonServe

open SideWire.TransitionSystem
open SideWire.FrameCodec

variable {serve : Serve} {s t : State} {a : Action}

section Ownership

variable {handlers : Nat → Option Handler} {P : Handler → Prop} {entries : UInt32 → Option Nat}
variable {task other : Nat} {h k : Handler} {id : UInt32}

/-- The request of the stream has a task that meets `P`. -/
def Owned (handlers : Nat → Option Handler) (P : Handler → Prop) (id : UInt32) (task : Nat) :
    Prop :=
  ∃ h, handlers task = some h ∧ h.streamId = id ∧ P h

/-- Every entry belongs to a task that meets `P`. -/
def Owns (handlers : Nat → Option Handler) (P : Handler → Prop) (entries : UInt32 → Option Nat) :
    Prop :=
  ∀ id task, entries id = some task → Owned handlers P id task

theorem Owned.set (hown : Owned handlers P id task) (hh : handlers other = some h)
    (hid : k.streamId = h.streamId) (hP : other = task → P h → P k) :
    Owned (Function.update handlers other (some k)) P id task := by
  obtain ⟨owner, howner, hstream, hmeets⟩ := hown
  by_cases heq : task = other
  · subst heq
    obtain rfl := Option.some.inj (hh.symm.trans howner)
    exact ⟨k, Function.update_self .., hid.trans hstream, hP rfl hmeets⟩
  · exact ⟨owner, (Function.update_of_ne heq _ _).trans howner, hstream, hmeets⟩

theorem Owned.spawn (hown : Owned handlers P id task) (hfresh : handlers other = none) :
    Owned (Function.update handlers other (some k)) P id task := by
  obtain ⟨owner, howner, hmeets⟩ := hown
  have heq : task ≠ other := by
    rintro rfl
    exact nomatch hfresh.symm.trans howner
  exact ⟨owner, (Function.update_of_ne heq _ _).trans howner, hmeets⟩

theorem Owned.map {f : Nat → Handler → Handler} (hown : Owned handlers P id task)
    (hid : ∀ task h, (f task h).streamId = h.streamId) (hP : ∀ task h, P h → P (f task h)) :
    Owned (fun task => (handlers task).map (f task)) P id task := by
  obtain ⟨owner, howner, hstream, hmeets⟩ := hown
  exact ⟨f task owner, by simp [howner], (hid _ _).trans hstream, hP _ _ hmeets⟩

theorem Owns.set (hown : Owns handlers P entries) (hh : handlers other = some h)
    (hid : k.streamId = h.streamId) (hP : P h → P k) :
    Owns (Function.update handlers other (some k)) P entries :=
  fun id task hentry => (hown id task hentry).set hh hid fun _ => hP

theorem Owns.spawn (hown : Owns handlers P entries) (hfresh : handlers other = none) :
    Owns (Function.update handlers other (some k)) P entries :=
  fun id task hentry => (hown id task hentry).spawn hfresh

theorem Owns.map {f : Nat → Handler → Handler} (hown : Owns handlers P entries)
    (hid : ∀ task h, (f task h).streamId = h.streamId) (hP : ∀ task h, P h → P (f task h)) :
    Owns (fun task => (handlers task).map (f task)) P entries :=
  fun id task hentry => (hown id task hentry).map hid hP

theorem Owns.erase (hown : Owns handlers P entries) (id : UInt32) :
    Owns handlers P (Function.update entries id none) := by
  intro other task hentry
  by_cases heq : other = id
  · rw [heq, Function.update_self] at hentry
    exact nomatch hentry
  · rw [Function.update_of_ne heq] at hentry
    exact hown other task hentry

theorem Owns.release (hown : Owns handlers P entries) (hh : handlers task = some h) :
    Owns (Function.update handlers task (some k)) P (Function.update entries h.streamId none) := by
  intro id owner hentry
  obtain ⟨found, hfound, hstream, hmeets⟩ := hown.erase h.streamId id owner hentry
  have hne : owner ≠ task := by
    rintro rfl
    obtain rfl := Option.some.inj (hh.symm.trans hfound)
    rw [hstream, Function.update_self] at hentry
    exact nomatch hentry
  exact ⟨found, (Function.update_of_ne hne _ _).trans hfound, hstream, hmeets⟩

theorem Owns.register (hown : Owns handlers P entries) (hh : handlers task = some h) (hP : P h) :
    Owns handlers P (Function.update entries h.streamId (some task)) := by
  intro id owner hentry
  by_cases heq : id = h.streamId
  · subst heq
    rw [Function.update_self] at hentry
    obtain rfl := Option.some.inj hentry
    exact ⟨h, hh, rfl, hP⟩
  · rw [Function.update_of_ne heq] at hentry
    exact hown id owner hentry

/-- A stream has one task. -/
def Unique (handlers : Nat → Option Handler) : Prop :=
  ∀ a b h k, handlers a = some h → handlers b = some k → h.streamId = k.streamId → a = b

theorem Unique.set (hunique : Unique handlers) (hh : handlers task = some h)
    (hid : k.streamId = h.streamId) : Unique (Function.update handlers task (some k)) := by
  have hback : ∀ a l, Function.update handlers task (some k) a = some l →
      ∃ l', handlers a = some l' ∧ l'.streamId = l.streamId := by
    intro a l hl
    by_cases heq : a = task
    · subst heq
      rw [Function.update_self] at hl
      exact ⟨h, hh, hid.symm.trans (congrArg Handler.streamId (Option.some.inj hl))⟩
    · exact ⟨l, (Function.update_of_ne heq _ _).symm.trans hl, rfl⟩
  intro a b l m hl hm hstream
  obtain ⟨l', hl', hlid⟩ := hback a l hl
  obtain ⟨m', hm', hmid⟩ := hback b m hm
  exact hunique a b l' m' hl' hm' (hlid.trans (hstream.trans hmid.symm))

theorem Unique.map {f : Nat → Handler → Handler} (hunique : Unique handlers)
    (hid : ∀ task h, (f task h).streamId = h.streamId) :
    Unique fun task => (handlers task).map (f task) := by
  intro a b l m hl hm hstream
  obtain ⟨l', hl', rfl⟩ := Option.map_eq_some_iff.mp hl
  obtain ⟨m', hm', rfl⟩ := Option.map_eq_some_iff.mp hm
  exact hunique a b l' m' hl' hm' ((hid _ _).symm.trans (hstream.trans (hid _ _)))

theorem Unique.spawn (hunique : Unique handlers)
    (hnew : ∀ other k, handlers other = some k → k.streamId ≠ h.streamId) :
    Unique (Function.update handlers task (some h)) := by
  intro a b l m hl hm hstream
  by_cases ha : a = task <;> by_cases hb : b = task
  · exact ha.trans hb.symm
  · rw [ha, Function.update_self] at hl
    rw [Function.update_of_ne hb] at hm
    obtain rfl := Option.some.inj hl
    exact absurd hstream.symm (hnew b m hm)
  · rw [hb, Function.update_self] at hm
    rw [Function.update_of_ne ha] at hl
    obtain rfl := Option.some.inj hm
    exact absurd hstream (hnew a l hl)
  · rw [Function.update_of_ne ha] at hl
    rw [Function.update_of_ne hb] at hm
    exact hunique a b l m hl hm hstream

theorem owns_none : Owns handlers P fun _ => none :=
  fun _ _ hentry => nomatch hentry

end Ownership

/-- The task has an inbox in `routes`, if its stream has an entry there. -/
def Handler.Routed (h : Handler) : Prop :=
  h.phase.routed = true ∧ Register.stream ∈ h.request.registers

def Handler.Cancelable (h : Handler) : Prop :=
  h.phase.cancelable = true ∧ Register.cancel ∈ h.request.registers

def Handler.Unfinished (h : Handler) : Prop := h.phase ≠ .finished

/-- The map that a registration goes to. -/
def State.entries (s : State) : Register → UInt32 → Option Nat
  | .stream => s.routes
  | .cancel => s.cancels
  | .flow => s.flowCredits

/-- The task is being registered, and what is pending has no entry yet. -/
def Registering (s : State) (task : Nat) (pending : List Register) : Prop :=
  pending.Nodup ∧ ∃ h, s.handlers task = some h ∧ h.phase = .starting ∧
    pending ⊆ h.request.registers ∧ ∀ entry ∈ pending, s.entries entry h.streamId = none

/-- What holds as long as the host uses an id for one request, and cancellations are on
time: every entry is that of the one task of its stream. -/
structure Tidy (s : State) : Prop where
  fresh : ∀ task, s.next ≤ task → s.handlers task = none
  unique : Unique s.handlers
  routes : Owns s.handlers Handler.Routed s.routes
  cancels : Owns s.handlers Handler.Cancelable s.cancels
  flowCredits : Owns s.handlers Handler.Unfinished s.flowCredits
  canceled : ∀ id, s.canceled id = true → ∃ task, Owned s.handlers Handler.Unfinished id task
  registering : ∀ task pending, s.dispatcher = .registering task pending →
    Registering s task pending

theorem Tidy.lt (ht : Tidy s) {task : Nat} {h : Handler} (hh : s.handlers task = some h) :
    task < s.next := by
  by_contra hge
  exact nomatch hh.symm.trans (ht.fresh task (Nat.le_of_not_lt hge))

theorem Tidy.initial : Tidy .initial where
  fresh _ _ := rfl
  unique _ _ _ _ hh := nomatch hh
  routes := owns_none
  cancels := owns_none
  flowCredits := owns_none
  canceled _ hcanceled := nomatch hcanceled
  registering _ _ hdispatcher := nomatch hdispatcher

theorem Registering.keep {task : Nat} {pending : List Register}
    (hregistering : Registering s task pending)
    (hhandlers : ∀ h, s.handlers task = some h → h.phase = .starting →
      ∃ k, t.handlers task = some k ∧ k.phase = .starting ∧ k.streamId = h.streamId ∧
        k.request = h.request)
    (hentries : ∀ entry id, s.entries entry id = none → t.entries entry id = none) :
    Registering t task pending := by
  obtain ⟨hnodup, h, hh, hphase, hsubset, hnone⟩ := hregistering
  obtain ⟨k, hk, hstarting, hid, hrequest⟩ := hhandlers h hh hphase
  refine ⟨hnodup, k, hk, hstarting, hrequest ▸ hsubset, ?_⟩
  intro entry hmem
  rw [hid]
  exact hentries entry _ (hnone entry hmem)

theorem Tidy.dispatch (ht : Tidy s) (dispatcher : Dispatcher)
    (hdispatcher : ∀ task pending, dispatcher ≠ .registering task pending) :
    Tidy { s with dispatcher := dispatcher } :=
  ⟨ht.fresh, ht.unique, ht.routes, ht.cancels, ht.flowCredits, ht.canceled,
    fun task pending h => absurd h (hdispatcher task pending)⟩

theorem Tidy.move (ht : Tidy s) {task : Nat} {h : Handler} (k : Handler)
    (hh : s.handlers task = some h) (hid : k.streamId = h.streamId)
    (hstarting : h.phase ≠ .starting)
    {routes cancels flowCredits : UInt32 → Option Nat} {canceled : UInt32 → Bool}
    (hroutes : Owns (s.setHandler task k) Handler.Routed routes)
    (hcancels : Owns (s.setHandler task k) Handler.Cancelable cancels)
    (hflowCredits : Owns (s.setHandler task k) Handler.Unfinished flowCredits)
    (hcanceled : ∀ id, canceled id = true →
      ∃ owner, Owned (s.setHandler task k) Handler.Unfinished id owner)
    (hless : ∀ id, (s.routes id = none → routes id = none) ∧
      (s.cancels id = none → cancels id = none) ∧
      (s.flowCredits id = none → flowCredits id = none)) :
    Tidy { s with
      handlers := s.setHandler task k, routes := routes, cancels := cancels
      flowCredits := flowCredits, canceled := canceled } := by
  refine ⟨?_, ht.unique.set hh hid, hroutes, hcancels, hflowCredits, hcanceled, ?_⟩
  · intro other hother
    have hne : other ≠ task := (Nat.lt_of_lt_of_le (ht.lt hh) hother).ne'
    exact (Function.update_of_ne hne _ _).trans (ht.fresh other hother)
  · intro owner pending hdispatcher
    refine (ht.registering owner pending hdispatcher).keep ?_ ?_
    · intro l hl hphase
      have hne : owner ≠ task := by
        rintro rfl
        obtain rfl := Option.some.inj (hh.symm.trans hl)
        exact hstarting hphase
      exact ⟨l, (Function.update_of_ne hne _ _).trans hl, hphase, rfl, rfl⟩
    · intro entry id hnone
      cases entry with
      | stream => exact (hless id).1 hnone
      | cancel => exact (hless id).2.1 hnone
      | flow => exact (hless id).2.2 hnone

theorem Tidy.advance (ht : Tidy s) {task : Nat} {h : Handler} (k : Handler)
    (hh : s.handlers task = some h) (hid : k.streamId = h.streamId)
    (hrequest : k.request = h.request) (hstarting : h.phase ≠ .starting)
    (hrouted : k.phase.routed = true) (hcancelable : k.phase.cancelable = true) :
    Tidy { s with handlers := s.setHandler task k } := by
  have hunfinished : k.Unfinished := by
    intro hfinished
    rw [hfinished] at hrouted
    exact nomatch hrouted
  refine ht.move k hh hid hstarting
    (ht.routes.set hh hid fun hr => ⟨hrouted, hrequest ▸ hr.2⟩)
    (ht.cancels.set hh hid fun hc => ⟨hcancelable, hrequest ▸ hc.2⟩)
    (ht.flowCredits.set hh hid fun _ => hunfinished) ?_ fun _ => ⟨id, id, id⟩
  intro id hcanceled
  obtain ⟨owner, howned⟩ := ht.canceled id hcanceled
  exact ⟨owner, howned.set hh hid fun _ _ => hunfinished⟩

theorem Tidy.erase (ht : Tidy s) (id : UInt32) :
    Tidy { s with routes := s.setRoute id none } ∧ Tidy { s with cancels := s.setCancel id none } ∧
      Tidy { s with flowCredits := s.setFlow id none } := by
  have hkeep : ∀ t : State, t.handlers = s.handlers → t.dispatcher = s.dispatcher →
      (∀ entry other, s.entries entry other = none → t.entries entry other = none) →
      ∀ task pending, t.dispatcher = .registering task pending → Registering t task pending := by
    intro t hhandlers hdispatcher hentries task pending hregistering
    rw [hdispatcher] at hregistering
    exact (ht.registering task pending hregistering).keep
      (fun h hh hphase => ⟨h, hhandlers ▸ hh, hphase, rfl, rfl⟩) hentries
  refine ⟨⟨ht.fresh, ht.unique, ht.routes.erase id, ht.cancels, ht.flowCredits, ht.canceled,
      hkeep _ rfl rfl ?_⟩,
    ⟨ht.fresh, ht.unique, ht.routes, ht.cancels.erase id, ht.flowCredits, ht.canceled,
      hkeep _ rfl rfl ?_⟩,
    ⟨ht.fresh, ht.unique, ht.routes, ht.cancels, ht.flowCredits.erase id, ht.canceled,
      hkeep _ rfl rfl ?_⟩⟩
  all_goals
    intro entry other hnone
    cases entry with
    | stream => first | exact hnone | exact update_none hnone
    | cancel => first | exact hnone | exact update_none hnone
    | flow => first | exact hnone | exact update_none hnone

theorem Tidy.watch (ht : Tidy s) (f : Nat → Handler → Handler)
    (hf : ∀ task h, ∃ watch, f task h = { h with watch := watch }) :
    Tidy { s with handlers := fun task => (s.handlers task).map (f task) } := by
  have hid : ∀ task h, (f task h).streamId = h.streamId := by
    intro task h
    obtain ⟨watch, hwatch⟩ := hf task h
    rw [hwatch]
  have hrequest : ∀ task h, (f task h).request = h.request := by
    intro task h
    obtain ⟨watch, hwatch⟩ := hf task h
    rw [hwatch]
  have hphase : ∀ task h, (f task h).phase = h.phase := by
    intro task h
    obtain ⟨watch, hwatch⟩ := hf task h
    rw [hwatch]
  refine ⟨?_, ht.unique.map hid, ht.routes.map hid ?_, ht.cancels.map hid ?_,
    ht.flowCredits.map hid ?_, ?_, ?_⟩
  · intro task htask
    simp [ht.fresh task htask]
  · intro task h hr
    rwa [Handler.Routed, hphase, hrequest]
  · intro task h hc
    rwa [Handler.Cancelable, hphase, hrequest]
  · intro task h hu
    rwa [Handler.Unfinished, hphase]
  · intro id hcanceled
    obtain ⟨task, howned⟩ := ht.canceled id hcanceled
    refine ⟨task, howned.map hid fun task h hu => ?_⟩
    rwa [Handler.Unfinished, hphase]
  · intro task pending hdispatcher
    refine (ht.registering task pending hdispatcher).keep ?_ fun _ _ hnone => hnone
    intro h hh hstarting
    exact ⟨f task h, by simp [hh], (hphase _ _).trans hstarting, hid _ _, hrequest _ _⟩

theorem Tidy.cancelLocal (ht : Tidy s) {id : UInt32} (hrunning : s.Running id) :
    Tidy { s with canceled := s.setCanceled id true } := by
  refine ⟨ht.fresh, ht.unique, ht.routes, ht.cancels, ht.flowCredits, ?_, ht.registering⟩
  intro other hcanceled
  by_cases heq : other = id
  · exact heq ▸ hrunning
  · exact ht.canceled other ((Function.update_of_ne heq _ _).symm.trans hcanceled)

theorem Tidy.uncancel (ht : Tidy s) (id : UInt32) :
    Tidy { s with canceled := s.setCanceled id false } := by
  refine ⟨ht.fresh, ht.unique, ht.routes, ht.cancels, ht.flowCredits, ?_, ht.registering⟩
  intro other hcanceled
  by_cases heq : other = id
  · simp [State.setCanceled, heq] at hcanceled
  · exact ht.canceled other ((Function.update_of_ne heq _ _).symm.trans hcanceled)

theorem Tidy.request (ht : Tidy s) (h : Handler) (hstarting : h.phase = .starting)
    (hnew : ∀ task k, s.handlers task = some k → k.streamId ≠ h.streamId) :
    Tidy { s with
      dispatcher := .registering s.next h.request.registers, next := s.next + 1
      handlers := s.setHandler s.next h } := by
  have hfresh := ht.fresh s.next (Nat.le_refl _)
  have hnone : ∀ {P : Handler → Prop} {entries : UInt32 → Option Nat},
      Owns s.handlers P entries → entries h.streamId = none := by
    intro P entries howns
    rw [Option.eq_none_iff_forall_not_mem]
    intro task htask
    obtain ⟨k, hk, hid, _⟩ := howns _ _ htask
    exact hnew task k hk hid
  refine ⟨?_, ht.unique.spawn hnew, ht.routes.spawn hfresh, ht.cancels.spawn hfresh,
    ht.flowCredits.spawn hfresh, ?_, ?_⟩
  · intro task htask
    have hne : task ≠ s.next := (Nat.lt_of_succ_le htask).ne'
    exact (Function.update_of_ne hne _ _).trans (ht.fresh task (Nat.le_of_succ_le htask))
  · intro id hcanceled
    obtain ⟨task, howned⟩ := ht.canceled id hcanceled
    exact ⟨task, howned.spawn hfresh⟩
  · rintro task pending ⟨⟩
    refine ⟨by cases h.request <;> decide, h, Function.update_self .., hstarting,
      List.Subset.refl _, ?_⟩
    intro entry _
    cases entry with
    | stream => exact hnone ht.routes
    | cancel => exact hnone ht.cancels
    | flow => exact hnone ht.flowCredits

theorem Tidy.register_fst (ht : Tidy s) (serve : Serve) {task : Nat} {entry : Register}
    {pending : List Register} {h : Handler}
    (hdispatcher : s.dispatcher = .registering task (entry :: pending))
    (hh : s.handlers task = some h) :
    (DaemonServe.register serve s h.streamId task entry).1 = true := by
  obtain ⟨_, k, hk, _, _, hnone⟩ := ht.registering _ _ hdispatcher
  obtain rfl := Option.some.inj (hh.symm.trans hk)
  have hentry := hnone entry List.mem_cons_self
  cases entry with
  | stream => simp [DaemonServe.register, show s.routes _ = none from hentry]
  | cancel => simp [DaemonServe.register, show s.cancels _ = none from hentry]
  | flow =>
      rw [DaemonServe.register]
      split_ifs
      · simp [show s.flowCredits _ = none from hentry]
      · rfl

/-- One registration after the other. -/
theorem Registering.next {task : Nat} {entry : Register} {pending : List Register}
    (h : Registering s task (entry :: pending)) (hhandlers : t.handlers = s.handlers)
    (hentries : ∀ other, other ≠ entry → t.entries other = s.entries other) :
    Registering t task pending := by
  obtain ⟨hnodup, k, hk, hphase, hsubset, hnone⟩ := h
  obtain ⟨hentry, hrest⟩ := List.nodup_cons.mp hnodup
  refine ⟨hrest, k, hhandlers ▸ hk, hphase,
    fun other hother => hsubset (List.mem_cons_of_mem _ hother), ?_⟩
  intro other hother
  have hne : other ≠ entry := by
    rintro rfl
    exact hentry hother
  rw [hentries other hne]
  exact hnone other (List.mem_cons_of_mem _ hother)

theorem Tidy.register (ht : Tidy s) {task : Nat} {entry : Register} {pending : List Register}
    {h : Handler} (hdispatcher : s.dispatcher = .registering task (entry :: pending))
    (hh : s.handlers task = some h)
    (haccepted : DaemonServe.register serve s h.streamId task entry = (true, t)) :
    Tidy { t with dispatcher := .registering task pending } := by
  have hregistering := ht.registering _ _ hdispatcher
  obtain ⟨k, hk, hphase, hsubset, _⟩ := hregistering.2
  obtain rfl := Option.some.inj (hh.symm.trans hk)
  have hmem := hsubset List.mem_cons_self
  cases entry with
  | stream =>
      rw [DaemonServe.register] at haccepted
      split_ifs at haccepted with hroute
      · obtain ⟨_, rfl⟩ := Prod.mk.inj haccepted
        refine ⟨ht.fresh, ht.unique, ht.routes.register hh ⟨by rw [hphase]; rfl, hmem⟩,
          ht.cancels, ht.flowCredits, ht.canceled, ?_⟩
        rintro _ _ ⟨⟩
        exact hregistering.next rfl fun other hne => by
          cases other <;> first | rfl | exact absurd rfl hne
      · exact nomatch (Prod.mk.inj haccepted).1
  | cancel =>
      obtain ⟨_, rfl⟩ := Prod.mk.inj haccepted
      refine ⟨ht.fresh, ht.unique, ht.routes, ht.cancels.register hh ⟨by rw [hphase]; rfl, hmem⟩,
        ht.flowCredits, ht.canceled, ?_⟩
      rintro _ _ ⟨⟩
      exact hregistering.next rfl fun other hne => by
        cases other <;> first | rfl | exact absurd rfl hne
  | flow =>
      rw [DaemonServe.register] at haccepted
      split_ifs at haccepted with hsupported
      · obtain ⟨_, rfl⟩ := Prod.mk.inj haccepted
        refine ⟨ht.fresh, ht.unique, ht.routes, ht.cancels, ht.flowCredits.register hh ?_,
          ht.canceled, ?_⟩
        · rw [Handler.Unfinished, hphase]
          exact nofun
        · rintro _ _ ⟨⟩
          exact hregistering.next rfl fun other hne => by
            cases other <;> first | rfl | exact absurd rfl hne
      · obtain ⟨_, rfl⟩ := Prod.mk.inj haccepted
        refine ⟨ht.fresh, ht.unique, ht.routes, ht.cancels, ht.flowCredits, ht.canceled, ?_⟩
        rintro _ _ ⟨⟩
        exact hregistering.next rfl fun _ _ => rfl

theorem Tidy.unregisterStream (ht : Tidy s) {task : Nat} {h : Handler}
    (hh : s.handlers task = some h) (hphase : h.phase = .returned) :
    Tidy { s with
      handlers := s.setPhase task h .unrouted
      routes := if .stream ∈ h.request.registers then s.setRoute h.streamId none
        else s.routes } := by
  refine ht.move { h with phase := .unrouted } hh rfl (by rw [hphase]; exact nofun) ?_
    (ht.cancels.set hh rfl fun hc => ⟨rfl, hc.2⟩)
    (ht.flowCredits.set hh rfl fun _ => nofun) ?_ ?_
  · split_ifs with hstream
    · exact ht.routes.release hh
    · exact ht.routes.set hh rfl fun hr => absurd hr.2 hstream
  · intro id hcanceled
    obtain ⟨owner, howned⟩ := ht.canceled id hcanceled
    exact ⟨owner, howned.set hh rfl fun _ _ => nofun⟩
  · intro id
    refine ⟨fun hnone => ?_, fun hnone => hnone, fun hnone => hnone⟩
    split_ifs
    · exact update_none hnone
    · exact hnone

theorem Tidy.unregisterCancel (ht : Tidy s) {task : Nat} {h : Handler}
    (hh : s.handlers task = some h) (hphase : h.phase = .unrouted) :
    Tidy { s with
      handlers := s.setPhase task h .uncanceled
      cancels := if .cancel ∈ h.request.registers then s.setCancel h.streamId none
        else s.cancels } := by
  refine ht.move { h with phase := .uncanceled } hh rfl (by rw [hphase]; exact nofun)
    (ht.routes.set hh rfl fun hr => ?_) ?_ (ht.flowCredits.set hh rfl fun _ => nofun) ?_ ?_
  · rw [Handler.Routed, hphase] at hr
    exact nomatch hr.1
  · split_ifs with hcancel
    · exact ht.cancels.release hh
    · exact ht.cancels.set hh rfl fun hc => absurd hc.2 hcancel
  · intro id hcanceled
    obtain ⟨owner, howned⟩ := ht.canceled id hcanceled
    exact ⟨owner, howned.set hh rfl fun _ _ => nofun⟩
  · intro id
    refine ⟨fun hnone => hnone, fun hnone => ?_, fun hnone => hnone⟩
    split_ifs
    · exact update_none hnone
    · exact hnone

theorem Tidy.finish (ht : Tidy s) {task : Nat} {h : Handler}
    (hh : s.handlers task = some h) (hphase : h.phase = .uncanceled) :
    Tidy { s with
      handlers := s.setPhase task h .finished
      canceled := s.setCanceled h.streamId false
      flowCredits := s.setFlow h.streamId none } := by
  refine ht.move { h with phase := .finished } hh rfl (by rw [hphase]; exact nofun)
    (ht.routes.set hh rfl fun hr => ?_)
    (ht.cancels.set hh rfl fun hc => ?_) (ht.flowCredits.release hh) ?_
    fun id => ⟨fun hnone => hnone, fun hnone => hnone, update_none⟩
  · rw [Handler.Routed, hphase] at hr
    exact nomatch hr.1
  · rw [Handler.Cancelable, hphase] at hc
    exact nomatch hc.1
  · intro id hcanceled
    by_cases heq : id = h.streamId
    · simp [State.setCanceled, heq] at hcanceled
    · obtain ⟨owner, howned⟩ := ht.canceled id
        ((Function.update_of_ne heq _ _).symm.trans hcanceled)
      refine ⟨owner, howned.set hh rfl ?_⟩
      rintro rfl
      obtain ⟨k, hk, hstream, _⟩ := howned
      obtain rfl := Option.some.inj (hh.symm.trans hk)
      exact absurd hstream.symm heq

theorem Tidy.settle (ht : Tidy s) {task : Nat} {h : Handler} (k : Handler)
    (hh : s.handlers task = some h) (hid : k.streamId = h.streamId)
    (hrequest : k.request = h.request) (hphase : k.phase = h.phase ∨
      h.phase = .starting ∧ k.phase = .running) :
    Tidy { s with dispatcher := .reading, handlers := s.setHandler task k } := by
  have hkeeps : (h.Routed → k.Routed) ∧ (h.Cancelable → k.Cancelable) ∧
      (h.Unfinished → k.Unfinished) := by
    rcases hphase with hphase | ⟨hstarting, hrunning⟩
    · simp [Handler.Routed, Handler.Cancelable, Handler.Unfinished, hphase, hrequest]
    · simp [Handler.Routed, Handler.Cancelable, Handler.Unfinished, hstarting, hrunning, hrequest,
        Phase.routed, Phase.cancelable]
  refine ⟨?_, ht.unique.set hh hid, ht.routes.set hh hid hkeeps.1,
    ht.cancels.set hh hid hkeeps.2.1, ht.flowCredits.set hh hid hkeeps.2.2, ?_, fun _ _ => nofun⟩
  · intro other hother
    have hne : other ≠ task := (Nat.lt_of_lt_of_le (ht.lt hh) hother).ne'
    exact (Function.update_of_ne hne _ _).trans (ht.fresh other hother)
  · intro id hcanceled
    obtain ⟨owner, howned⟩ := ht.canceled id hcanceled
    exact ⟨owner, howned.set hh hid fun _ => hkeeps.2.2⟩

theorem Tidy.canceled_or (ht : Tidy s) {P : Handler → Prop} {entries : UInt32 → Option Nat}
    (howns : Owns s.handlers P entries) (hunfinished : ∀ h, P h → h.Unfinished) (id : UInt32)
    (hcanceled : (s.canceled id || (entries id).isSome) = true) :
    ∃ task, Owned s.handlers Handler.Unfinished id task := by
  rcases Bool.or_eq_true_iff.mp hcanceled with hbefore | hentry
  · exact ht.canceled id hbefore
  · obtain ⟨task, htask⟩ := Option.isSome_iff_exists.mp hentry
    obtain ⟨h, hh, hid, hmeets⟩ := howns id task htask
    exact ⟨task, h, hh, hid, hunfinished h hmeets⟩

theorem Tidy.clearRoutes (ht : Tidy s) :
    Tidy { s with
      dispatcher := .unrouted, routes := fun _ => none
      canceled := fun id => s.canceled id || (s.routes id).isSome } := by
  refine ⟨ht.fresh, ht.unique, owns_none, ht.cancels, ht.flowCredits,
    ht.canceled_or ht.routes ?_, fun _ _ => nofun⟩
  rintro h ⟨hrouted, _⟩ hfinished
  rw [hfinished] at hrouted
  exact nomatch hrouted

theorem Tidy.drainCancels (ht : Tidy s) :
    Tidy { s with
      dispatcher := .uncanceled, cancels := fun _ => none
      canceled := fun id => s.canceled id || (s.cancels id).isSome } := by
  refine ⟨ht.fresh, ht.unique, ht.routes, owns_none, ht.flowCredits,
    ht.canceled_or ht.cancels ?_, fun _ _ => nofun⟩
  rintro h ⟨hcancelable, _⟩ hfinished
  rw [hfinished] at hcancelable
  exact nomatch hcancelable

/-- The host uses a stream id for one request. -/
def SingleUse (s : State) (a : Action) : Prop :=
  ∀ frame request, a = .receives frame → Request.ofKind frame.kind = some request →
    ∀ task h, s.handlers task = some h → h.streamId ≠ frame.streamId

/-- A stream is canceled only while its task goes on, and `serve` answers no frame of a
canceled stream whose task goes on. -/
structure Timely (s : State) (a : Action) : Prop where
  cancel : ∀ frame, a = .receives frame → frame.kind = .streamCancel →
    s.Running frame.streamId
  sendCancel : ∀ id, a = .sendCancel id → s.Running id
  answers : ∀ id, a = .answers id → s.Running id → s.canceled id = false

theorem Tidy.step (ht : Tidy s) (hsingle : SingleUse s a) (htimely : Timely s a)
    (hstep : Step serve s a t) : Tidy t := by
  cases hstep with
  | windowUpdate => exact ht
  | badUpdate | route | unsupported | stop | overflow | inboxClosed | pongFails =>
      exact ht.dispatch _ fun _ _ => nofun
  | cancel _ hkind =>
      exact (ht.cancelLocal (htimely.cancel _ rfl hkind)).dispatch _ fun _ _ => nofun
  | @request frame request _ _ hkind =>
      exact ht.request ⟨frame.streamId, request, frame.payload, .starting, false, []⟩ rfl
        (hsingle _ _ rfl hkind)
  | unroute => exact (ht.erase _).1.dispatch _ fun _ _ => nofun
  | @signal id =>
      refine ((ht.erase id).2.1.watch (fun task h =>
        if s.cancels id = some task then { h with watch := true } else h) ?_).dispatch _
        fun _ _ => nofun
      intro task h
      split_ifs
      · exact ⟨true, rfl⟩
      · exact ⟨h.watch, rfl⟩
  | @deliver frame _ h _ hh =>
      exact ht.settle { h with inbox := h.inbox ++ [frame] } hh rfl rfl (.inl rfl)
  | drop => exact ⟨ht.fresh, ht.unique, ht.routes.erase _, ht.cancels, ht.flowCredits,
      ht.canceled, fun _ _ => nofun⟩
  | register hdispatcher hh haccepted => exact ht.register hdispatcher hh haccepted
  | reject hdispatcher hh hrejected =>
      have hfst := ht.register_fst serve hdispatcher hh
      rw [hrejected] at hfst
      exact nomatch hfst
  | @spawn _ h hdispatcher hh =>
      obtain ⟨_, k, hk, hstarting, _⟩ := ht.registering _ _ hdispatcher
      obtain rfl := Option.some.inj (hh.symm.trans hk)
      exact ht.settle { h with phase := .running } hh rfl rfl (.inr ⟨hstarting, rfl⟩)
  | answer =>
      exact ((ht.erase _).2.2.uncancel _).dispatch _ fun _ _ => nofun
  | clearRoutes => exact ht.clearRoutes
  | drainCancels =>
      refine ht.drainCancels.watch (fun task h =>
        if s.cancels h.streamId = some task then { h with watch := true } else h) ?_
      intro task h
      split_ifs
      · exact ⟨true, rfl⟩
      · exact ⟨h.watch, rfl⟩
  | drainProxies | close =>
      exact ⟨ht.fresh, ht.unique, ht.routes, ht.cancels, ht.flowCredits, ht.canceled,
        fun _ _ => nofun⟩
  | writerFails | cancelSent =>
      exact ⟨ht.fresh, ht.unique, ht.routes, ht.cancels, ht.flowCredits, ht.canceled,
        ht.registering⟩
  | sendCancel =>
      have hcanceled := ht.cancelLocal (htimely.sendCancel _ rfl)
      exact ⟨hcanceled.fresh, hcanceled.unique, hcanceled.routes, hcanceled.cancels,
        hcanceled.flowCredits, hcanceled.canceled, hcanceled.registering⟩
  | @take _ h _ rest hh hphase =>
      exact ht.advance { h with inbox := rest } hh rfl rfl (by rw [hphase]; exact nofun)
        (by rw [hphase]; rfl) (by rw [hphase]; rfl)
  | handlerReturns hh hphase | ack hh hphase =>
      exact ht.advance _ hh rfl rfl (by rw [hphase]; exact nofun) rfl rfl
  | @bind _ listener h proxy hh hphase =>
      have hmoved := ht.advance { h with phase := .acking listener proxy } hh rfl rfl
        (by rw [hphase]; exact nofun) rfl rfl
      exact ⟨hmoved.fresh, hmoved.unique, hmoved.routes, hmoved.cancels, hmoved.flowCredits,
        hmoved.canceled, hmoved.registering⟩
  | @ackFails _ _ h _ hh hphase | @store _ _ h _ hh hphase =>
      have hmoved := ht.advance { h with phase := .returned } hh rfl rfl
        (by rw [hphase]; exact nofun) rfl rfl
      exact ⟨hmoved.fresh, hmoved.unique, hmoved.routes, hmoved.cancels, hmoved.flowCredits,
        hmoved.canceled, hmoved.registering⟩
  | unregisterStream hh hphase => exact ht.unregisterStream hh hphase
  | unregisterCancel hh hphase => exact ht.unregisterCancel hh hphase
  | finish hh hphase => exact ht.finish hh hphase

/-- The bookkeeping of the streams that no task and no cancellation is about. -/
def Forgotten (s : State) : Prop :=
  ∀ id, ¬ s.Running id → ¬ s.Canceling id →
    s.canceled id = false ∧ s.flowCredits id = none ∧ s.routes id = none ∧ s.cancels id = none

/-- A stream that is canceled while its task goes on is so until the task finishes it. -/
def Kept (s t : State) : Prop :=
  ∀ id, s.Running id → t.Running id → s.canceled id = true → t.canceled id = true

theorem Tidy.forgotten (ht : Tidy s) : Forgotten s := by
  intro id hidle _
  have hnone : ∀ {P : Handler → Prop} {entries : UInt32 → Option Nat},
      Owns s.handlers P entries → (∀ h, P h → h.Unfinished) → entries id = none := by
    intro P entries howns hP
    rw [Option.eq_none_iff_forall_not_mem]
    intro task htask
    obtain ⟨h, hh, hid, hmeets⟩ := howns _ _ htask
    exact hidle ⟨task, h, hh, hid, hP h hmeets⟩
  refine ⟨?_, hnone ht.flowCredits fun _ hu => hu, hnone ht.routes ?_, hnone ht.cancels ?_⟩
  · rw [Bool.eq_false_iff]
    intro hcanceled
    exact hidle (ht.canceled id hcanceled)
  · intro h hrouted hfinished
    rw [Handler.Routed, hfinished] at hrouted
    exact nomatch hrouted.1
  · intro h hcancelable hfinished
    rw [Handler.Cancelable, hfinished] at hcancelable
    exact nomatch hcancelable.1

theorem setCanceled_true {id : UInt32} (other : UInt32) (h : s.canceled id = true) :
    s.setCanceled other true id = true := by
  by_cases heq : id = other
  · rw [heq]
    exact Function.update_self ..
  · exact (Function.update_of_ne heq _ _).trans h

@[simp] theorem register_canceled (serve : Serve) (s : State) (id : UInt32) (task : Nat)
    (entry : Register) :
    (DaemonServe.register serve s id task entry).2.canceled = s.canceled := by
  cases entry <;> simp only [DaemonServe.register] <;> split_ifs <;> rfl

theorem Tidy.kept (ht : Tidy s) (htimely : Timely s a) (hstep : Step serve s a t) :
    Kept s t := by
  intro id hrunning hstill hcanceled
  cases hstep with
  | windowUpdate | badUpdate | route | request | unsupported | stop | unroute | signal
  | deliver | overflow | inboxClosed | drop | spawn | pongFails | drainProxies | close
  | writerFails | cancelSent | take | handlerReturns | bind | ack | ackFails | store
  | unregisterStream | unregisterCancel => exact hcanceled
  | cancel | sendCancel => exact setCanceled_true _ hcanceled
  | @register t task h entry _ _ _ hregister | @reject t task h entry _ _ _ hregister =>
      have hsame := register_canceled serve s h.streamId task entry
      rw [hregister] at hsame
      exact (congrFun hsame id).trans hcanceled
  | @answer other =>
      have hne : id ≠ other := by
        rintro rfl
        exact nomatch hcanceled.symm.trans (htimely.answers id rfl hrunning)
      exact (Function.update_of_ne hne _ _).trans hcanceled
  | clearRoutes | drainCancels => simp [hcanceled]
  | @finish task h hh =>
      have hne : id ≠ h.streamId := by
        rintro rfl
        obtain ⟨other, k, hk, hid, hunfinished⟩ := hstill
        by_cases heq : other = task
        · subst heq
          have hself := (Function.update_self ..).symm.trans hk
          exact hunfinished (Option.some.inj hself ▸ rfl)
        · exact heq (ht.unique _ _ _ _
            ((Function.update_of_ne heq _ _).symm.trans hk) hh hid)
      exact (Function.update_of_ne hne _ _).trans hcanceled

/-- Along a run in which the host uses an id for one request and every cancellation is on
time, a canceled stream stays so until its task finishes it, and nothing of it is left
behind. -/
theorem bookkeeping_exact (serve : Serve) {trace : List (State × Action)} {t : State}
    (hrun : (system serve).Run .initial trace t)
    (hsingle : ∀ p ∈ trace, SingleUse p.1 p.2) (htimely : ∀ p ∈ trace, Timely p.1 p.2) :
    (∀ u ∈ System.visited trace t, Forgotten u) ∧
      ∀ p ∈ trace, ∀ v, Step serve p.1 p.2 v → Kept p.1 v := by
  have htidy := hrun.visited_of_steps (P := Tidy) (fun s a => SingleUse s a ∧ Timely s a)
    (fun _ _ _ ht hok hstep => ht.step hok.1 hok.2 hstep) .initial
    fun p hp => ⟨hsingle p hp, htimely p hp⟩
  refine ⟨fun u hu => (htidy u hu).forgotten, ?_⟩
  intro p hp v hstep
  have hvisited : p.1 ∈ System.visited trace t :=
    List.mem_append_left _ (List.mem_map.mpr ⟨p, hp, rfl⟩)
  exact (htidy _ hvisited).kept (htimely p hp) hstep

def pushFrame : Frame := ⟨.pushRequest, 1, []⟩
def chunkFrame : Frame := ⟨.fileChunk, 1, [0x2a]⟩
def cancelFrame : Frame := ⟨.streamCancel, 1, []⟩

theorem singleUse_initial : SingleUse .initial a :=
  fun _ _ _ _ _ _ hh => nomatch hh

theorem singleUse_of_no_request
    (h : ∀ frame, a = .receives frame → Request.ofKind frame.kind = none) : SingleUse s a :=
  fun frame _ ha hkind => nomatch (h frame ha).symm.trans hkind

theorem timely_of_no_cancel
    (h : ∀ frame, a = .receives frame → frame.kind ≠ .streamCancel)
    (hsend : ∀ id, a ≠ .sendCancel id) (hanswers : ∀ id, a ≠ .answers id) : Timely s a :=
  ⟨fun frame ha hkind => absurd hkind (h frame ha), fun id ha => absurd ha (hsend id),
    fun id ha => absurd ha (hanswers id)⟩

/-- An `exec` request is canceled while its command runs. -/
theorem bookkeeping_exact_exec :
    ∃ trace t, (system plainServe).Run .initial trace t ∧ trace.length = 4 ∧
      (∀ u ∈ System.visited trace t, Forgotten u) ∧
      ∀ p ∈ trace, ∀ v, Step plainServe p.1 p.2 v → Kept p.1 v := by
  have hrun : (system plainServe).Run .initial _ _ :=
    .cons (@Step.request _ .initial execFrame .exec rfl rfl rfl) <|
    .cons (.register rfl rfl rfl) <| .cons (.spawn rfl rfl) <|
    .cons (@Step.cancel _ _ cancelFrame rfl rfl) (.nil _)
  refine ⟨_, _, hrun, rfl, bookkeeping_exact plainServe hrun ?_ ?_⟩
  · simp only [List.forall_mem_cons]
    refine ⟨singleUse_initial, singleUse_of_no_request nofun, singleUse_of_no_request nofun,
      singleUse_of_no_request ?_, by simp⟩
    rintro _ ⟨⟩
    rfl
  · simp only [List.forall_mem_cons]
    refine ⟨timely_of_no_cancel ?_ nofun nofun, timely_of_no_cancel nofun nofun nofun,
      timely_of_no_cancel nofun nofun nofun, ⟨?_, nofun, nofun⟩, by simp⟩
    · rintro _ ⟨⟩
      exact nofun
    · rintro _ ⟨⟩ _
      exact ⟨0, _, rfl, rfl, nofun⟩

/-- A chunk that comes after its push has been canceled takes the cancellation back, and a
cancellation that comes after its request has been finished stays for good. -/
theorem late_frames_not_exact :
    (∃ trace t, (system plainServe).Run .initial trace t ∧
      (∀ p ∈ trace, SingleUse p.1 p.2) ∧
      ∃ p ∈ trace, ∃ v, Step plainServe p.1 p.2 v ∧ ¬ Kept p.1 v) ∧
    ∃ trace t, (system plainServe).Run .initial trace t ∧
      (∀ p ∈ trace, SingleUse p.1 p.2) ∧ ∃ u ∈ System.visited trace t, ¬ Forgotten u := by
  constructor
  · have hrun : (system plainServe).Run .initial _ _ :=
      .cons (@Step.request _ .initial pushFrame .push rfl rfl rfl) <|
      .cons (.register rfl rfl rfl) <| .cons (.register rfl rfl rfl) <|
      .cons (.spawn rfl rfl) <| .cons (@Step.cancel _ _ cancelFrame rfl rfl) <|
      .cons (.unroute rfl) <| .cons (.signal rfl) <|
      .cons (@Step.unsupported _ _ chunkFrame rfl ⟨nofun, nofun⟩ rfl rfl) <|
      .cons (.answer rfl) (.nil _)
    refine ⟨_, _, hrun, ?_, _, List.getLast_mem (List.cons_ne_nil _ _), _, .answer rfl, ?_⟩
    · simp only [List.forall_mem_cons]
      refine ⟨singleUse_initial, singleUse_of_no_request nofun, singleUse_of_no_request nofun,
        singleUse_of_no_request nofun, singleUse_of_no_request ?_, singleUse_of_no_request nofun,
        singleUse_of_no_request nofun, singleUse_of_no_request ?_,
        singleUse_of_no_request nofun, by simp⟩
      all_goals
        rintro _ ⟨⟩
        rfl
    · intro hkept
      have hcanceled := hkept 1 ⟨0, _, rfl, rfl, nofun⟩ ⟨0, _, rfl, rfl, nofun⟩ rfl
      exact nomatch hcanceled
  · have hrun : (system plainServe).Run .initial _ _ :=
      .cons (@Step.request _ .initial execFrame .exec rfl rfl rfl) <|
      .cons (.register rfl rfl rfl) <| .cons (.spawn rfl rfl) <|
      .cons (@Step.handlerReturns _ _ 0 _ rfl rfl) <|
      .cons (@Step.unregisterStream _ _ 0 _ rfl rfl) <|
      .cons (@Step.unregisterCancel _ _ 0 _ rfl rfl) <| .cons (@Step.finish _ _ 0 _ rfl rfl) <|
      .cons (@Step.cancel _ _ cancelFrame rfl rfl) (.nil _)
    refine ⟨_, _, hrun, ?_, _, List.mem_append_right _ (List.mem_singleton_self _), ?_⟩
    · simp only [List.forall_mem_cons]
      refine ⟨singleUse_initial, singleUse_of_no_request nofun, singleUse_of_no_request nofun,
        singleUse_of_no_request nofun, singleUse_of_no_request nofun,
        singleUse_of_no_request nofun, singleUse_of_no_request nofun,
        singleUse_of_no_request ?_, by simp⟩
      rintro _ ⟨⟩
      rfl
    · intro hforgotten
      have hidle := hforgotten 1 ?_ ?_
      · exact nomatch hidle.1
      · rintro ⟨task, h, hh, _, hunfinished⟩
        rcases task with _ | task
        · exact hunfinished (Option.some.inj hh ▸ rfl)
        · exact nomatch hh
      · rintro (hmem | hmem) <;> exact nomatch hmem

end SideWire.DaemonServe
