import SideWire.DaemonTeardown

namespace SideWire.DaemonServe

open SideWire.TransitionSystem
open SideWire.FrameCodec

variable {serve : Serve} {s t : State} {a : Action}

/-- The listener that the handler is about to answer for, or to store. -/
def Phase.listener : Phase → Option Nat
  | .acking listener _ | .storing listener _ => some listener
  | _ => none

def Dispatcher.proxiesGone : Dispatcher → Bool
  | .drained | .returned => true
  | _ => false

/-- Once `serve` has returned and every handler has finished, no listener is left. -/
def Clean (s : State) : Prop :=
  s.dispatcher = .returned → (∀ task h, s.handlers task = some h → h.phase = .finished) →
    ∀ listener aborted, s.listeners listener = some aborted → aborted = true

/-- No handler stores a listener after the end of the connection has drained `proxies`. -/
def InTime (s : State) (a : Action) : Prop :=
  ∀ task, a = .stores task → s.dispatcher.proxiesGone = false

/-- Some handler has the listener in hand. -/
def Held (handlers : Nat → Option Handler) (listener : Nat) : Prop :=
  ∃ task h, handlers task = some h ∧ h.phase.listener = some listener

theorem Held.set {task listener : Nat} {h k : Handler} (hheld : Held s.handlers listener)
    (hh : s.handlers task = some h)
    (hkeeps : h.phase.listener = some listener → k.phase.listener = some listener) :
    Held (s.setHandler task k) listener := by
  obtain ⟨owner, l, hl, hlistener⟩ := hheld
  by_cases heq : owner = task
  · subst heq
    obtain rfl := Option.some.inj (hh.symm.trans hl)
    exact ⟨owner, k, s.setHandler_self .., hkeeps hlistener⟩
  · exact ⟨owner, l, (s.setHandler_of_ne k heq).trans hl, hlistener⟩

theorem Held.map {f : Nat → Handler → Handler} {listener : Nat}
    (hheld : Held s.handlers listener) (hphase : ∀ task h, (f task h).phase = h.phase) :
    Held (fun task => (s.handlers task).map (f task)) listener := by
  obtain ⟨owner, l, hl, hlistener⟩ := hheld
  exact ⟨owner, f owner l, by simp [hl], (congrArg Phase.listener (hphase ..)).trans hlistener⟩

theorem Held.spawn {task listener : Nat} {k : Handler} (hheld : Held s.handlers listener)
    (hfresh : s.handlers task = none) : Held (s.setHandler task k) listener := by
  obtain ⟨owner, l, hl, hlistener⟩ := hheld
  have hne : owner ≠ task := by
    rintro rfl
    exact nomatch hfresh.symm.trans hl
  exact ⟨owner, l, (s.setHandler_of_ne k hne).trans hl, hlistener⟩

theorem Held.discard {task listener : Nat} {h : Handler} (hheld : Held s.handlers listener)
    (hh : s.handlers task = some h) (hnone : h.phase.listener = none) :
    Held (Function.update s.handlers task none) listener := by
  obtain ⟨owner, l, hl, hlistener⟩ := hheld
  have hne : owner ≠ task := by
    rintro rfl
    obtain rfl := Option.some.inj (hh.symm.trans hl)
    exact nomatch hnone.symm.trans hlistener
  exact ⟨owner, l, (Function.update_of_ne hne _ _).trans hl, hlistener⟩

theorem Numbered.next_free (hn : Numbered s) : s.handlers s.next = none := by
  rw [Option.eq_none_iff_forall_not_mem]
  intro h hh
  exact Nat.lt_irrefl _ (hn.handlers _ h hh)

/-- A listener that runs is in `proxies` or in the hands of a handler. -/
structure Traced (s : State) : Prop where
  running : ∀ listener, s.listeners listener = some false →
    (∃ proxy, (proxy, listener) ∈ s.proxies) ∨ Held s.handlers listener
  unique : ∀ proxy a b, (proxy, a) ∈ s.proxies → (proxy, b) ∈ s.proxies → a = b
  drained : s.dispatcher.proxiesGone = true → s.proxies = []

theorem Traced.initial : Traced .initial where
  running _ hlistener := nomatch hlistener
  unique _ _ _ hmem := nomatch hmem
  drained _ := rfl

theorem register_proxies (serve : Serve) (s : State) (id : UInt32) (task : Nat)
    (entry : Register) :
    (DaemonServe.register serve s id task entry).2.listeners = s.listeners ∧
      (DaemonServe.register serve s id task entry).2.proxies = s.proxies := by
  cases entry with
  | cancel => exact ⟨rfl, rfl⟩
  | stream | flow =>
      rw [DaemonServe.register]
      split_ifs <;> exact ⟨rfl, rfl⟩

/-- A listener that still runs once one has been aborted. -/
theorem running_of_abort {listener other : Nat} (h : s.abort other listener = some false) :
    listener ≠ other ∧ s.listeners listener = some false := by
  have hne : listener ≠ other := by
    rintro rfl
    exact nomatch (Function.update_self ..).symm.trans h
  exact ⟨hne, (Function.update_of_ne hne _ _).symm.trans h⟩

theorem Traced.keep (h : Traced s) {t : State}
    (hlisteners : t.listeners = s.listeners) (hproxies : t.proxies = s.proxies)
    (hheld : ∀ listener, Held s.handlers listener → Held t.handlers listener)
    (hdrained : t.dispatcher.proxiesGone = true → s.dispatcher.proxiesGone = true) :
    Traced t := by
  refine ⟨?_, ?_, fun hgone => hproxies.trans (h.drained (hdrained hgone))⟩
  · intro listener hlistener
    rw [hproxies]
    exact (h.running listener (hlisteners ▸ hlistener)).imp id (hheld listener)
  · rw [hproxies]
    exact h.unique

theorem Traced.drainProxies (h : Traced s) :
    Traced { s with
      dispatcher := .drained, proxies := []
      listeners := fun listener => (s.listeners listener).map fun aborted =>
        aborted || s.proxies.any fun entry => entry.2 == listener } := by
  refine ⟨?_, nofun, fun _ => rfl⟩
  intro listener hlistener
  obtain ⟨aborted, haborted, hfalse⟩ := Option.map_eq_some_iff.mp hlistener
  obtain ⟨rfl, hany⟩ := Bool.or_eq_false_iff.mp hfalse
  rcases h.running listener haborted with ⟨proxy, hmem⟩ | hheld
  · have hfound := List.any_eq_false.mp hany _ hmem
    simp at hfound
  · exact .inr hheld

theorem mem_of_lookup {proxies : List (String × Nat)} {proxy : String} {listener : Nat}
    (h : proxies.lookup proxy = some listener) : (proxy, listener) ∈ proxies := by
  obtain ⟨before, after, rfl, _⟩ := List.lookup_eq_some_iff.mp h
  simp

theorem Traced.store (h : Traced s) {task listener : Nat} {l : Handler} {proxy : String}
    (hl : s.handlers task = some l) (hphase : l.phase = .storing listener proxy)
    (hintime : s.dispatcher.proxiesGone = false) :
    Traced { s with
      handlers := s.setPhase task l .returned
      proxies := (proxy, listener) :: s.proxies.filter fun entry => entry.1 != proxy
      listeners := match s.proxies.lookup proxy with
        | some old => s.abort old
        | none => s.listeners } := by
  refine ⟨?_, ?_, fun hgone => nomatch hgone.symm.trans hintime⟩
  · intro other hother
    have hkept : s.listeners other = some false ∧
        ∀ found, (found, other) ∈ s.proxies → found ≠ proxy := by
      cases hlookup : s.proxies.lookup proxy with
      | none =>
          simp only [hlookup] at hother
          refine ⟨hother, ?_⟩
          rintro found hmem rfl
          have habsent := List.lookup_eq_none_iff.mp hlookup _ hmem
          simp at habsent
      | some old =>
          simp only [hlookup] at hother
          obtain ⟨hne, hother⟩ := running_of_abort hother
          refine ⟨hother, ?_⟩
          rintro found hmem rfl
          exact hne (h.unique found other old hmem (mem_of_lookup hlookup))
    rcases h.running other hkept.1 with ⟨found, hmem⟩ | hheld
    · exact .inl ⟨found, List.mem_cons_of_mem _
        (List.mem_filter.mpr ⟨hmem, by simpa using hkept.2 found hmem⟩)⟩
    · by_cases heq : other = listener
      · exact .inl ⟨proxy, heq ▸ List.mem_cons_self⟩
      · refine .inr (hheld.set hl fun hlistener => ?_)
        rw [hphase] at hlistener
        exact absurd (Option.some.inj hlistener).symm heq
  · intro found x y hx hy
    rcases List.mem_cons.mp hx with hx | hx <;> rcases List.mem_cons.mp hy with hy | hy
    · exact (Prod.mk.inj hx).2.trans (Prod.mk.inj hy).2.symm
    · exact absurd (Prod.mk.inj hx).1 (by simpa using (List.mem_filter.mp hy).2)
    · exact absurd (Prod.mk.inj hy).1 (by simpa using (List.mem_filter.mp hx).2)
    · exact h.unique found x y (List.mem_filter.mp hx).1 (List.mem_filter.mp hy).1

theorem Traced.bind (h : Traced s) {task listener : Nat} {l : Handler} {proxy : String}
    (hl : s.handlers task = some l) (hphase : l.phase = .running) :
    Traced { s with
      handlers := s.setPhase task l (.acking listener proxy)
      listeners := Function.update s.listeners listener (some false) } := by
  refine ⟨?_, h.unique, h.drained⟩
  intro other hother
  by_cases heq : other = listener
  · exact .inr ⟨task, _, s.setHandler_self .., heq ▸ rfl⟩
  · refine (h.running other ((Function.update_of_ne heq _ _).symm.trans hother)).imp id ?_
    intro hheld
    refine hheld.set hl fun hlistener => ?_
    rw [hphase] at hlistener
    exact nomatch hlistener

theorem Traced.ackFails (h : Traced s) {task listener : Nat} {l : Handler} {proxy : String}
    (hl : s.handlers task = some l) (hphase : l.phase = .acking listener proxy) :
    Traced { s with
      handlers := s.setPhase task l .returned, listeners := s.abort listener } := by
  refine ⟨?_, h.unique, h.drained⟩
  intro other hother
  obtain ⟨hne, hother⟩ := running_of_abort hother
  refine (h.running other hother).imp id fun hheld => hheld.set hl fun hlistener => ?_
  rw [hphase] at hlistener
  exact absurd (Option.some.inj hlistener).symm hne

theorem Traced.step (h : Traced s) (hn : Numbered s) (hintime : InTime s a)
    (hstep : Step serve s a t) : Traced t := by
  cases hstep with
  | windowUpdate => exact h
  | badUpdate | cancel | route | unsupported | stop | unroute | overflow | inboxClosed | drop
  | answer | pongFails | clearRoutes =>
      exact h.keep rfl rfl (fun _ hheld => hheld) nofun
  | writerFails | sendCancel | cancelSent =>
      exact h.keep rfl rfl (fun _ hheld => hheld) id
  | close hd => exact h.keep rfl rfl (fun _ hheld => hheld) fun _ => by rw [hd]; rfl
  | request => exact h.keep rfl rfl (fun _ hheld => hheld.spawn hn.next_free) nofun
  | signal | drainCancels =>
      refine h.keep rfl rfl (fun _ hheld => hheld.map ?_) nofun
      intro task l
      split_ifs <;> rfl
  | deliver _ hl => exact h.keep rfl rfl (fun _ hheld => hheld.set hl id) nofun
  | spawn hd hl =>
      obtain ⟨_, m, hm, hstarting, _⟩ := hn.pending _ _ hd
      obtain rfl := Option.some.inj (hl.symm.trans hm)
      refine h.keep rfl rfl (fun _ hheld => hheld.set hl fun hlistener => ?_) nofun
      rw [hstarting] at hlistener
      exact nomatch hlistener
  | @register t task l entry _ _ _ haccepted =>
      obtain ⟨_, hhandlers, _⟩ := register_cases haccepted
      have hsame := register_proxies serve s l.streamId task entry
      rw [haccepted] at hsame
      exact h.keep hsame.1 hsame.2 (fun _ hheld => hhandlers ▸ hheld) nofun
  | @reject t task l entry _ hd hl hrejected =>
      obtain ⟨_, m, hm, hstarting, _⟩ := hn.pending _ _ hd
      obtain rfl := Option.some.inj (hl.symm.trans hm)
      have hsame := register_proxies serve s l.streamId task entry
      rw [hrejected] at hsame
      exact h.keep hsame.1 hsame.2
        (fun _ hheld => hheld.discard hl (by rw [hstarting]; rfl)) nofun
  | drainProxies => exact h.drainProxies
  | take hl hphase => exact h.keep rfl rfl (fun _ hheld => hheld.set hl id) id
  | bind hl hphase => exact h.bind hl hphase
  | ack hl hphase =>
      refine h.keep rfl rfl (fun _ hheld => hheld.set hl fun hlistener => ?_) id
      rwa [hphase] at hlistener
  | ackFails hl hphase => exact h.ackFails hl hphase
  | store hl hphase => exact h.store hl hphase (hintime _ rfl)
  | handlerReturns hl hphase | unregisterStream hl hphase | unregisterCancel hl hphase
  | finish hl hphase =>
      refine h.keep rfl rfl (fun _ hheld => hheld.set hl fun hlistener => ?_) id
      rw [hphase] at hlistener
      exact nomatch hlistener

theorem Traced.clean (h : Traced s) : Clean s := by
  intro hreturned hfinished listener aborted hlistener
  by_contra hrunning
  obtain rfl := Bool.eq_false_iff.mpr hrunning
  rcases h.running listener hlistener with ⟨proxy, hmem⟩ | ⟨task, l, hl, hheld⟩
  · rw [h.drained (by rw [hreturned]; rfl)] at hmem
    exact nomatch hmem
  · rw [hfinished task l hl] at hheld
    exact nomatch hheld

/-- Along a run in which no handler stores its listener after `proxies` has been drained,
no listener outlives its connection. -/
theorem listeners_aborted (serve : Serve) {trace : List (State × Action)} {t : State}
    (hrun : (system serve).Run .initial trace t) (hintime : ∀ p ∈ trace, InTime p.1 p.2) :
    ∀ u ∈ System.visited trace t, Clean u := by
  intro u hu
  have hboth := hrun.visited_of_steps (P := fun s => Numbered s ∧ Traced s) InTime
    (fun _ _ _ h hok hnext => ⟨h.1.step hnext, h.2.step h.1 hok hnext⟩)
    ⟨.initial, .initial⟩ hintime u hu
  exact hboth.2.clean

/-- A request for the proxy `web` from `0.0.0.0:80` to `127.0.0.1:80`. -/
def proxyFrame : Frame :=
  ⟨.proxyStartRequest, 1,
    [3, 0x77, 0x65, 0x62,
      10, 0x30, 0x2e, 0x30, 0x2e, 0x30, 0x2e, 0x30, 0x3a, 0x38, 0x30,
      12, 0x31, 0x32, 0x37, 0x2e, 0x30, 0x2e, 0x30, 0x2e, 0x31, 0x3a, 0x38, 0x30, 0, 0]⟩

def webServe : Serve := ⟨true, fun _ => .ok "web"⟩

/-- The listener is stored, and the connection ends. -/
theorem listeners_aborted_stored :
    ∃ trace t, (system webServe).Run .initial trace t ∧ t.dispatcher = .returned ∧
      t.listeners 0 = some true ∧ ∀ u ∈ System.visited trace t, Clean u := by
  have hrun : (system webServe).Run .initial _ _ :=
    .cons (@Step.request _ .initial proxyFrame .proxyStart rfl rfl rfl) <|
    .cons (.register rfl rfl rfl) <| .cons (.spawn rfl rfl) <|
    .cons (@Step.bind _ _ 0 0 _ "web" rfl rfl rfl rfl rfl) <|
    .cons (@Step.ack _ _ 0 0 _ "web" rfl rfl rfl) <|
    .cons (@Step.store _ _ 0 0 _ "web" rfl rfl) <| .cons (.stop rfl) <|
    .cons (.clearRoutes rfl) <| .cons (.drainCancels rfl) <| .cons (.drainProxies rfl) <|
    .cons (.close rfl) (.nil _)
  refine ⟨_, _, hrun, rfl, rfl, listeners_aborted webServe hrun ?_⟩
  simp only [List.forall_mem_cons]
  exact ⟨nofun, nofun, nofun, nofun, nofun, fun _ _ => rfl, nofun, nofun, nofun, nofun, nofun,
    by simp⟩

/-- The handler has sent its answer when the connection ends, and stores its listener once
`proxies` has been drained. -/
theorem lateStore_not_clean :
    ∃ trace t, (system webServe).Run .initial trace t ∧ t.dispatcher = .returned ∧
      (∀ task h, t.handlers task = some h → h.phase = .finished) ∧
      t.listeners 0 = some false ∧ ¬ Clean t := by
  have hrun : (system webServe).Run .initial _ _ :=
    .cons (@Step.request _ .initial proxyFrame .proxyStart rfl rfl rfl) <|
    .cons (.register rfl rfl rfl) <| .cons (.spawn rfl rfl) <|
    .cons (@Step.bind _ _ 0 0 _ "web" rfl rfl rfl rfl rfl) <|
    .cons (@Step.ack _ _ 0 0 _ "web" rfl rfl rfl) <| .cons (.stop rfl) <|
    .cons (.clearRoutes rfl) <| .cons (.drainCancels rfl) <| .cons (.drainProxies rfl) <|
    .cons (.close rfl) <| .cons (@Step.store _ _ 0 0 _ "web" rfl rfl) <|
    .cons (@Step.unregisterStream _ _ 0 _ rfl rfl) <|
    .cons (@Step.unregisterCancel _ _ 0 _ rfl rfl) <|
    .cons (@Step.finish _ _ 0 _ rfl rfl) (.nil _)
  refine ⟨_, _, hrun, rfl, ?_, rfl, ?_⟩
  · rintro (_ | task) h hh
    · exact Option.some.inj hh ▸ rfl
    · exact nomatch hh
  · intro hclean
    refine nomatch hclean rfl ?_ 0 false rfl
    rintro (_ | task) h hh
    · exact Option.some.inj hh ▸ rfl
    · exact nomatch hh

end SideWire.DaemonServe
