import Mathlib.Algebra.GroupWithZero.Nat
import SideWire.Base.TaskPool
import SideWire.Base.TransitionSystem

/-!
`run_outbound` on the device beside the connections that `run_pairing_listener` handles: the
backoff of the loop, and the notification of a completed pairing that is to end its wait. What
a session does between its start and its end is left out.
-/

namespace SideWire.OutboundReconnect

open SideWire.TransitionSystem
open SideWire.TaskPool

def outboundBackoffMaxSecs : Nat := 30
def outboundFailureLogIntervalSecs : Nat := 30

def saturatingMul (a b : Nat) : Nat := min (a * b) (2 ^ 64 - 1)

/-- The delay after a wait that its timer has ended, and what is left of the grace. -/
def nextOutboundDelay (delay pairingGrace : Nat) : Nat × Nat :=
  if 0 < pairingGrace then (1, pairingGrace - 1)
  else (min (saturatingMul delay 2) outboundBackoffMaxSecs, pairingGrace)

/-- The time of the last failure that has been logged, in nanoseconds, and how many have been
left out since. -/
structure FailureLog where
  lastFailureLog : Option Nat
  suppressedFailures : Nat
  deriving DecidableEq

def FailureLog.new : FailureLog := ⟨none, 0⟩

def logOutboundFailure (log : FailureLog) (now : Nat) : FailureLog :=
  if log.lastFailureLog.all fun last =>
      outboundFailureLogIntervalSecs * 10 ^ 9 ≤ now - last then
    ⟨some now, 0⟩
  else
    { log with suppressedFailures := min (log.suppressedFailures + 1) (2 ^ 32 - 1) }

/-- Where the loop stands. A wait knows whether its timer has elapsed, and whether its
`Notified` future, which exists from the start of the wait on, has been completed. -/
inductive Phase
  | connecting
  | serving (established : Bool)
  | failing
  | pausing
  | waiting (elapsed notified : Bool)
  | ended
  deriving DecidableEq

/-- The task of a pairing connection, from `handle_pair_connection` to the notification. -/
inductive Pairing
  | handling
  | clearing
  | notifying
  | gone
  deriving DecidableEq

/-- `waits` counts the waits that have ended since the last completed pairing, if there has
been one. -/
structure State where
  phase : Phase
  delay : Nat
  pairingGrace : Nat
  log : FailureLog
  pairings : List Pairing
  waits : Option Nat
  deriving DecidableEq

def State.initial : State where
  phase := .connecting
  delay := 1
  pairingGrace := 0
  log := .new
  pairings := []
  waits := none

/-- `notify_waiters` completes the future of a wait that is under way, and stores nothing. -/
def Phase.notifyWaiters : Phase → Phase
  | .waiting elapsed _ => .waiting elapsed true
  | phase => phase

inductive Action
  | attempt
  | timeout
  | pairing
  | notify
  deriving DecidableEq

inductive Step : State → Action → State → Prop
  -- the connection
  | connect {s : State} (hphase : s.phase = .connecting) :
      Step s .attempt { s with phase := .serving false }
  | setNodelayFails {s : State} (hphase : s.phase = .connecting) :
      Step s .attempt { s with phase := .ended }
  | connectFails {s : State} (hphase : s.phase = .connecting) :
      Step s .attempt { s with phase := .failing }
  -- the session
  | establish {s : State} (hphase : s.phase = .serving false) :
      Step s .attempt { s with phase := .serving true }
  | serveEnds {s : State} (hphase : s.phase = .serving true) :
      Step s .attempt { s with phase := .pausing, delay := 1, log := .new }
  | serveFails {s : State} (hphase : s.phase = .serving false) :
      Step s .attempt { s with phase := .failing }
  | logFailure {s : State} {now : Nat} (hphase : s.phase = .failing) :
      Step s .attempt { s with phase := .pausing, log := logOutboundFailure s.log now }
  -- the wait, whose branches may be taken in any order once both are ready
  | wait {s : State} (hphase : s.phase = .pausing) :
      Step s .attempt { s with phase := .waiting false false }
  | elapse {s : State} {notified : Bool} (hphase : s.phase = .waiting false notified) :
      Step s .attempt { s with phase := .waiting true notified }
  | timeout {s : State} {notified : Bool} (hphase : s.phase = .waiting true notified) :
      Step s .timeout { s with
        phase := .connecting
        delay := (nextOutboundDelay s.delay s.pairingGrace).1
        pairingGrace := (nextOutboundDelay s.delay s.pairingGrace).2
        waits := s.waits.map (· + 1) }
  | notified {s : State} {elapsed : Bool} (hphase : s.phase = .waiting elapsed true) :
      Step s .attempt { s with
        phase := .connecting, delay := 1, pairingGrace := 60
        waits := s.waits.map (· + 1) }
  -- `run_pairing_listener`
  | accept {s : State} : Step s .pairing { s with pairings := s.pairings ++ [.handling] }
  | pairingFails {s : State} {pairings : List Pairing}
      (htask : Replaces .handling .gone s.pairings pairings) :
      Step s .pairing { s with pairings := pairings }
  | handle {s : State} {pairings : List Pairing}
      (htask : Replaces .handling .clearing s.pairings pairings) :
      Step s .pairing { s with pairings := pairings }
  | clearSuccess {s : State} {pairings : List Pairing}
      (htask : Replaces .clearing .notifying s.pairings pairings) :
      Step s .pairing { s with pairings := pairings }
  | notify {s : State} {pairings : List Pairing}
      (htask : Replaces .notifying .gone s.pairings pairings) :
      Step s .notify { s with
        pairings := pairings, phase := s.phase.notifyWaiters, waits := some 0 }

def system : System State Action where
  init := fun s => s = .initial
  step := Step

/-- What a completed pairing is to bring about. Once a wait has ended since, the loop tries
again each second, and has the whole grace but for the waits that have ended after that one;
before, it does not sleep longer than a second. -/
structure State.Prompt (s : State) : Prop where
  rapid : ∀ count, s.waits = some (count + 1) → count ≤ 60 →
    s.delay = 1 ∧ s.pairingGrace + count = 60
  awake : ∀ elapsed, s.waits = some 0 → s.phase = .waiting elapsed false → s.delay = 1

/-- A notification finds the loop in its wait, or gone, and a timer does not end a wait that
has been notified. -/
def Action.heard (s : State) : Action → Prop
  | .notify => (∃ elapsed notified, s.phase = .waiting elapsed notified) ∨ s.phase = .ended
  | .timeout => s.phase ≠ .waiting true true
  | _ => True

/-- Every completion that no wait has ended since has been heard. -/
structure Inv (s : State) : Prop where
  rapid : ∀ count, s.waits = some (count + 1) → count ≤ 60 →
    s.delay = 1 ∧ s.pairingGrace + count = 60
  heard : s.waits = some 0 → (∃ elapsed, s.phase = .waiting elapsed true) ∨ s.phase = .ended
  owed : ∀ elapsed, s.phase = .waiting elapsed true → s.waits = some 0

section Invariant

variable {s t : State}

theorem inv_initial : Inv .initial where
  rapid := nofun
  heard := nofun
  owed := nofun

theorem Inv.prompt (h : Inv s) : s.Prompt where
  rapid := h.rapid
  awake := by
    intro elapsed howed hphase
    rcases h.heard howed with ⟨_, hnotified⟩ | hended
    · exact nomatch hphase.symm.trans hnotified
    · exact nomatch hphase.symm.trans hended

theorem Inv.proceed (h : Inv s) (hdeaf : ∀ elapsed, s.phase ≠ .waiting elapsed true)
    (hrunning : s.phase ≠ .ended) {phase : Phase}
    (hphase : ∀ elapsed, phase ≠ .waiting elapsed true)
    (log : FailureLog) {delay : Nat} (hdelay : s.delay = 1 → delay = 1) :
    Inv { s with phase := phase, delay := delay, log := log } where
  rapid := by
    intro count hcount hle
    obtain ⟨hone, hgrace⟩ := h.rapid count hcount hle
    exact ⟨hdelay hone, hgrace⟩
  heard := by
    intro howed
    rcases h.heard howed with ⟨elapsed, hnotified⟩ | hended
    · exact absurd hnotified (hdeaf elapsed)
    · exact absurd hended hrunning
  owed := fun elapsed heq => absurd heq (hphase elapsed)

theorem inv_waited {delay grace : Nat}
    (hrapid : ∀ count, s.waits = some count → count ≤ 60 → delay = 1 ∧ grace + count = 60) :
    Inv { s with
      phase := .connecting, delay := delay, pairingGrace := grace
      waits := s.waits.map (· + 1) } where
  rapid := by
    intro count hcount hle
    obtain ⟨before, hbefore, hsucc⟩ := Option.map_eq_some_iff.mp hcount
    obtain rfl : before = count := by omega
    exact hrapid before hbefore hle
  heard := by simp
  owed := nofun

/-- The grace pays for a wait that its timer ends. -/
theorem Inv.timeout (h : Inv s) (howed : s.waits ≠ some 0) (count : Nat)
    (hcount : s.waits = some count) (hle : count ≤ 60) :
    (nextOutboundDelay s.delay s.pairingGrace).1 = 1 ∧
      (nextOutboundDelay s.delay s.pairingGrace).2 + count = 60 := by
  cases count with
  | zero => exact absurd hcount howed
  | succ count =>
      obtain ⟨_, hgrace⟩ := h.rapid count hcount (by omega)
      rw [nextOutboundDelay, if_pos (by omega)]
      exact ⟨rfl, by omega⟩

theorem Inv.step {a : Action} (h : Inv s) (hheard : a.heard s) (hstep : Step s a t) : Inv t := by
  cases hstep with
  | connect hphase | setNodelayFails hphase | connectFails hphase | establish hphase
  | serveFails hphase | wait hphase =>
      exact h.proceed (by simp [hphase]) (by simp [hphase]) (by simp) s.log id
  | serveEnds hphase =>
      exact h.proceed (by simp [hphase]) (by simp [hphase]) (by simp) .new fun _ => rfl
  | @logFailure now hphase =>
      exact h.proceed (by simp [hphase]) (by simp [hphase]) (by simp)
        (logOutboundFailure s.log now) id
  | @elapse notified hphase =>
      cases notified with
      | false => exact h.proceed (by simp [hphase]) (by simp [hphase]) (by simp) s.log id
      | true => exact ⟨h.rapid, fun _ => .inl ⟨true, rfl⟩, fun _ _ => h.owed false hphase⟩
  | @timeout notified hphase =>
      have howed : s.waits ≠ some 0 := by
        intro howed
        rcases h.heard howed with ⟨elapsed, hnotified⟩ | hended
        · obtain ⟨rfl, rfl⟩ : elapsed = true ∧ notified = true := by
            simpa using hnotified.symm.trans hphase
          exact hheard hphase
        · exact nomatch hphase.symm.trans hended
      exact inv_waited (h.timeout howed)
  | @notified elapsed hphase =>
      have howed := h.owed elapsed hphase
      refine inv_waited ?_
      intro count hcount _
      obtain rfl : 0 = count := Option.some.inj (howed.symm.trans hcount)
      exact ⟨rfl, rfl⟩
  | accept | pairingFails | handle | clearSuccess => exact ⟨h.rapid, h.heard, h.owed⟩
  | notify =>
      refine ⟨nofun, fun _ => ?_, fun _ _ => rfl⟩
      rcases hheard with ⟨elapsed, notified, hphase⟩ | hended
      · exact .inl ⟨elapsed, by simp [hphase, Phase.notifyWaiters]⟩
      · exact .inr (by simp [hended, Phase.notifyWaiters])

end Invariant

/-- In every run in which each notification is heard, every completed pairing takes effect. -/
theorem prompt_of_heard {t : State} {trace : List (State × Action)}
    (hrun : system.Run .initial trace t) (hheard : ∀ p ∈ trace, p.2.heard p.1) :
    ∀ s ∈ System.visited trace t, s.Prompt := by
  intro s hs
  have hinv := hrun.visited_of_steps (fun s a => a.heard s)
    (fun _ _ _ h hok hstep => h.step hok hstep) inv_initial hheard
  exact (hinv s hs).prompt

/-- A first pairing completes while the loop waits. -/
theorem prompt_of_heard_first :
    ∃ s, system.Reachable s ∧ s.waits = some 1 ∧ s.pairingGrace = 60 ∧ s.Prompt := by
  let waiting (pairings : List Pairing) : State :=
    ⟨.waiting false false, 1, 0, logOutboundFailure .new 0, pairings, none⟩
  let woken : State :=
    ⟨.waiting false true, 1, 0, logOutboundFailure .new 0, [.gone], some 0⟩
  let last : State := ⟨.connecting, 1, 60, logOutboundFailure .new 0, [.gone], some 1⟩
  have hrun : system.Run .initial
      [(.initial, .attempt), ({ State.initial with phase := .failing }, .attempt),
        ({ State.initial with phase := .pausing, log := logOutboundFailure .new 0 }, .attempt),
        (waiting [], .pairing), (waiting [.handling], .pairing), (waiting [.clearing], .pairing),
        (waiting [.notifying], .notify), (woken, .attempt)] last :=
    .cons (.connectFails rfl) <| .cons (.logFailure rfl) <| .cons (.wait rfl) <|
      .cons .accept <| .cons (.handle ⟨[], [], rfl, rfl⟩) <|
      .cons (.clearSuccess ⟨[], [], rfl, rfl⟩) <| .cons (.notify ⟨[], [], rfl, rfl⟩) <|
      .cons (.notified rfl) (.nil _)
  refine ⟨last, ⟨_, rfl, hrun.leads⟩, rfl, rfl,
    prompt_of_heard hrun ?_ last (by simp [System.visited])⟩
  simp only [List.forall_mem_cons, List.not_mem_nil, false_implies, implies_true, and_true]
  exact ⟨trivial, trivial, trivial, trivial, trivial, trivial, .inl ⟨false, false, rfl⟩, trivial⟩

section Missed

variable {s : State}

theorem leads_attempt {delay : Nat} {log : FailureLog} {pairings : List Pairing}
    {waits : Option Nat} :
    system.Leads ⟨.connecting, delay, 0, log, pairings, waits⟩
      ⟨.connecting, (nextOutboundDelay delay 0).1, 0, logOutboundFailure log 0, pairings,
        waits.map (· + 1)⟩ :=
  System.Leads.head (.connectFails rfl) <| System.Leads.head (@Step.logFailure _ 0 rfl) <|
    System.Leads.head (.wait rfl) <| System.Leads.head (.elapse rfl) <| .single (.timeout rfl)

/-- With a host that is out of reach the delay comes to its bound. -/
theorem exists_backoff :
    ∃ log, system.Reachable ⟨.connecting, 30, 0, log, [], none⟩ := by
  have hfirst : system.Leads .initial _ := leads_attempt
  exact ⟨_, _, rfl, (((hfirst.trans leads_attempt).trans leads_attempt).trans leads_attempt).trans
    leads_attempt⟩

/-- A pairing runs to its end, whatever the loop does. -/
theorem leads_paired (hpairings : s.pairings = []) :
    system.Leads s
      { s with pairings := [.gone], phase := s.phase.notifyWaiters, waits := some 0 } := by
  have haccept : Step s .pairing { s with pairings := [.handling] } := by
    simpa [hpairings] using Step.accept (s := s)
  exact System.Leads.head haccept <|
    System.Leads.head (@Step.handle _ [.clearing] ⟨[], [], rfl, rfl⟩) <|
    System.Leads.head (@Step.clearSuccess _ [.notifying] ⟨[], [], rfl, rfl⟩) <|
    .single (@Step.notify _ [.gone] ⟨[], [], rfl, rfl⟩)

/-- A pairing that completes during an attempt to connect is forgotten: the loop sleeps its
whole backoff, and has no grace afterwards. So is one that completes as the timer elapses. -/
theorem pairings_missed :
    (∃ s, system.Reachable s ∧ s.phase = .waiting false false ∧ s.waits = some 0 ∧
      s.delay = 30 ∧ ¬ s.Prompt) ∧
    (∃ s, system.Reachable s ∧ s.waits = some 1 ∧ s.delay = 30 ∧ s.pairingGrace = 0 ∧
      ¬ s.Prompt) ∧
    ∃ s t, system.Reachable s ∧ s.phase = .waiting true true ∧ Step s .timeout t ∧
      t.waits = some 1 ∧ t.delay = 2 ∧ ¬ t.Prompt := by
  obtain ⟨log, hbackoff⟩ := exists_backoff
  have hpaired := hbackoff.leads (leads_paired rfl)
  have hsleeps : system.Reachable
      ⟨.waiting false false, 30, 0, logOutboundFailure log 0, [.gone], some 0⟩ :=
    hpaired.leads <| System.Leads.head (.connectFails rfl) <|
      System.Leads.head (@Step.logFailure _ 0 rfl) <| .single (.wait rfl)
  refine ⟨⟨_, hsleeps, rfl, rfl, rfl, ?_⟩, ⟨_, hpaired.leads leads_attempt, rfl, rfl, rfl, ?_⟩, ?_⟩
  · intro hprompt
    have hdelay : 30 = 1 := hprompt.awake false rfl rfl
    omega
  · intro hprompt
    have hdelay : 30 = 1 := (hprompt.rapid 0 rfl (by decide)).1
    omega
  · have helapsed : system.Leads .initial
        { State.initial with phase := .waiting true false, log := logOutboundFailure .new 0 } :=
      System.Leads.head (.connectFails rfl) <| System.Leads.head (@Step.logFailure _ 0 rfl) <|
        System.Leads.head (.wait rfl) <| .single (.elapse rfl)
    refine ⟨_, _, ⟨_, rfl, helapsed.trans (leads_paired rfl)⟩, rfl, .timeout rfl, rfl, rfl, ?_⟩
    intro hprompt
    have hdelay : 2 = 1 := (hprompt.rapid 0 rfl (by decide)).1
    omega

end Missed

end SideWire.OutboundReconnect
