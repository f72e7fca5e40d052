import SideWire.CreditWait
import SideWire.StreamIsolation

/-!
Waiting for flow credit on the host: calls of `acquire_flow_credit` on the streams of a
`DeviceTransport`, beside all that goes on there.
-/

namespace SideWire.StreamCreditWait

open SideWire.TransitionSystem
open SideWire.TaskPool
open SideWire.Wakeup
open SideWire.FlowControl
open SideWire.CreditWait
open SideWire.StreamRoutes (DeviceTransport DeviceStream CancelReason)

/-- A call of `acquire_flow_credit` in its loop. Its own clone of the cancellation has `seen` a
reason that `recv` has taken note of before. -/
structure Waiter where
  stream : Nat
  amount : Amount
  seen : Bool
  stage : Stage
  creditReady : Notified
  closed : Notified
  deriving DecidableEq

/-- The reader has raised the credit of the stream in `granting` and has still to notify its
waiters; `signal_closed` has set the flag and, while `signaling`, has still to notify. -/
structure State where
  transport : StreamRoutes.State
  waiters : List Waiter
  granting : Option Nat
  signaling : Bool

def State.initial : State := ⟨.initial, [], none, false⟩

inductive AcquireError
  | canceled (reason : CancelReason)
  | other (message : String)
  deriving DecidableEq

inductive Action
  | transport (action : StreamRoutes.Action)
  | notifier
  | waiter
  | acquires (result : Except AcquireError Unit)

/-- The reader has just been through the locked part of `FlowCredit::add`. -/
def granted (s t : StreamRoutes.State) : Option Nat :=
  match s.reader, t.reader with
  | .crediting _ stream _, .top => some stream
  | _, _ => none

namespace State

variable (s : State)

def flow (stream : Nat) : Option FlowCredit := (s.transport.streams stream).bind (·.flow)

def cancel (stream : Nat) : Option CancelReason := (s.transport.streams stream).bind (·.cancel)

/-- A step of the transport. Only the swap that finds the flag unset is followed by a
notification. -/
def after (t : StreamRoutes.State) : State where
  transport := t
  waiters := s.waiters
  granting := granted s.transport t <|> s.granting
  signaling := s.signaling || (!s.transport.closed && t.closed)

end State

namespace Waiter

def new (stream : Nat) (amount : Amount) (seen : Bool) : Waiter :=
  ⟨stream, amount, seen, .creditReady, .absent, .absent⟩

variable (w : Waiter)

/-- The loop begins again, without its futures. -/
def again : Waiter := .new w.stream w.amount w.seen

/-- `ensure_active` after a selection. -/
def rechecks : Waiter := { w.again with stage := .ensureStillActive }

def notifyFlow (stream : Nat) : Waiter :=
  if w.stream = stream then { w with creditReady := w.creditReady.wake } else w

def notifyClosed : Waiter := { w with closed := w.closed.wake }

/-- `changed` is completed by a reason that its clone has not seen. -/
def changed (s : State) : Notified :=
  if w.seen then .absent else if (s.cancel w.stream).isSome then .completed else .waiting

/-- The waiter is suspended in its `select!` with none of its futures completed. Without a
sender, `changed` is completed with an error. -/
def Asleep (s : State) : Prop :=
  w.stage = .selecting ∧ w.creditReady ≠ .completed ∧ w.closed ≠ .completed ∧
    w.changed s ≠ .completed ∧ s.transport.SenderAlive w.stream

end Waiter

/-- The steps of the loop that neither return nor touch the state. -/
inductive Moves (s : State) : Waiter → Waiter → Prop
  | createCredit {w} (hstage : w.stage = .creditReady) :
      Moves s w { w with stage := .closedReady, creditReady := .waiting }
  | createClosed {w} (hstage : w.stage = .closedReady) :
      Moves s w { w with stage := .ensureActive, closed := .waiting }
  | active {w} (hstage : w.stage = .ensureActive) (hcancel : s.cancel w.stream = none) :
      Moves s w { w with stage := .ensureOpen }
  | opened {w} (hstage : w.stage = .ensureOpen) (hopen : s.transport.closed = false) :
      Moves s w { w with stage := .tryTake }
  | starved {w flow} (hstage : w.stage = .tryTake) (hflow : s.flow w.stream = some flow)
      (htake : flow.tryTake w.amount.bytes = none) :
      Moves s w { w with stage := .selecting }
  | credited {w} (hstage : w.stage = .selecting) (hcompleted : w.creditReady = .completed) :
      Moves s w w.again
  | closed {w} (hstage : w.stage = .selecting) (hcompleted : w.closed = .completed) :
      Moves s w w.rechecks
  | severed {w} (hstage : w.stage = .selecting) (hcancel : w.changed s ≠ .completed)
      (hsender : ¬ s.transport.SenderAlive w.stream) : Moves s w w.rechecks
  | stillActive {w} (hstage : w.stage = .ensureStillActive)
      (hcancel : s.cancel w.stream = none) :
      Moves s w { w with stage := .ensureStillOpen }
  | stillOpen {w} (hstage : w.stage = .ensureStillOpen)
      (hopen : s.transport.closed = false) : Moves s w w.again

/-- The returns of the loop with an error. -/
inductive Fails (s : State) (w : Waiter) : AcquireError → Prop
  | inactive {reason} (hstage : w.stage = .ensureActive ∨ w.stage = .ensureStillActive)
      (hcancel : s.cancel w.stream = some reason) : Fails s w (.canceled reason)
  | canceled {reason} (hstage : w.stage = .selecting) (hcompleted : w.changed s = .completed)
      (hcancel : s.cancel w.stream = some reason) : Fails s w (.canceled reason)
  | closed (hstage : w.stage = .ensureOpen ∨ w.stage = .ensureStillOpen)
      (hclosed : s.transport.closed = true) : Fails s w (.other "device connection is closed")

section Model

variable (transport : DeviceTransport)

inductive Step : State → Action → State → Prop
  -- the reader, the ends of the connection, and calls of other methods; a call that finds
  -- its credit at once is a `takeCredit` here
  | transport {s : State} {a : StreamRoutes.Action} {t : StreamRoutes.State}
      (hstep : StreamRoutes.Step transport s.transport a t)
      (hreader : a = .reader → s.granting = none) :
      Step s (.transport a) (s.after t)
  | notifyCredit {s : State} {stream : Nat} (hgranting : s.granting = some stream) :
      Step s .notifier { s with
        granting := none, waiters := s.waiters.map (·.notifyFlow stream) }
  | notifyClosed {s : State} (hsignaling : s.signaling = true) :
      Step s .notifier { s with
        signaling := false, waiters := s.waiters.map Waiter.notifyClosed }
  -- `acquire_flow_credit`
  | acquireNothing {s : State} {stream bytes : Nat} {st : DeviceStream}
      (hst : s.transport.streams stream = some st)
      (hguard : guardAmount st.flow.isSome bytes = .ok none) :
      Step s (.acquires (.ok ())) s
  | acquireTooMuch {s : State} {stream bytes : Nat} {st : DeviceStream} {message : String}
      (hst : s.transport.streams stream = some st)
      (hguard : guardAmount st.flow.isSome bytes = .error message) :
      Step s (.acquires (.error (.other message))) s
  | acquire {s : State} {stream bytes : Nat} {st : DeviceStream} {amount : Amount} {seen : Bool}
      (hst : s.transport.streams stream = some st)
      (hguard : guardAmount st.flow.isSome bytes = .ok (some amount))
      (hseen : seen = true → st.cancel ≠ none) :
      Step s .waiter { s with waiters := .new stream amount seen :: s.waiters }
  | move {s : State} {w w' : Waiter} {waiters : List Waiter}
      (hw : Replaces w w' s.waiters waiters) (hmove : Moves s w w') :
      Step s .waiter { s with waiters := waiters }
  | take {s : State} {w : Waiter} {st : DeviceStream} {flow rest : FlowCredit}
      (hw : w ∈ s.waiters) (hstage : w.stage = .tryTake)
      (hst : s.transport.streams w.stream = some st) (hflow : st.flow = some flow)
      (htake : flow.tryTake w.amount.bytes = some rest) :
      Step s (.acquires (.ok ())) { s with
        transport := { s.transport with
          streams := s.transport.setStream w.stream { st with flow := some rest } }
        waiters := s.waiters.erase w }
  | fail {s : State} {w : Waiter} {error : AcquireError} (hw : w ∈ s.waiters)
      (hfails : Fails s w error) :
      Step s (.acquires (.error error)) { s with waiters := s.waiters.erase w }
  -- the future of a call is dropped
  | drop {s : State} {w : Waiter} (hw : w ∈ s.waiters) :
      Step s .waiter { s with waiters := s.waiters.erase w }

def system : System State Action where
  init := fun s => s = .initial
  step := Step transport

end Model

/-- A credit that is enough. -/
def Covered (flow : Option FlowCredit) (bytes : Nat) : Prop :=
  ∃ credit, flow = some credit ∧ bytes ≤ credit.available

/-- Of a cancellation nobody has to notify: the channel keeps it. -/
def view (s : State) (w : Waiter) : View Condition where
  future
    | .credit => w.creditReady
    | .canceled => w.changed s
    | .closed => w.closed
  created
    | .credit => w.stage.created .credit = true
    | .canceled => w.seen = false
    | .closed => w.stage.created .closed = true
  checked i := w.stage.checked i = true
  ready
    | .credit => Covered (s.flow w.stream) w.amount.bytes
    | .canceled => (s.cancel w.stream).isSome = true
    | .closed => s.transport.closed = true
  signaling
    | .credit => s.granting = some w.stream
    | .canceled => False
    | .closed => s.signaling = true

structure Inv (s : State) : Prop where
  known : ∀ w ∈ s.waiters, ∃ st, s.transport.streams w.stream = some st
  unseen : ∀ w ∈ s.waiters, w.seen = true → (s.cancel w.stream).isSome = true
  watched : ∀ w ∈ s.waiters, (view s w).Watched

section Transport

variable {transport : DeviceTransport} {s t : StreamRoutes.State} {a : StreamRoutes.Action}
  {stream other : Nat} {st value : DeviceStream} {bytes : Nat}

theorem covered_of_set (hst : s.streams stream = some st)
    (h : Covered ((s.setStream stream value other).bind (·.flow)) bytes)
    (hflow : value.flow = st.flow) : Covered ((s.streams other).bind (·.flow)) bytes := by
  by_cases heq : other = stream
  · simpa [StreamRoutes.State.setStream, heq, hst, hflow] using h
  · simpa [StreamRoutes.State.setStream, Function.update_of_ne heq] using h

theorem covered_of_take {flow rest : FlowCredit} {taken : Nat}
    (hst : s.streams stream = some st) (hflow : st.flow = some flow)
    (htake : flow.tryTake taken = some rest)
    (h : Covered ((s.setStream stream { st with flow := some rest } other).bind (·.flow)) bytes) :
    Covered ((s.streams other).bind (·.flow)) bytes := by
  by_cases heq : other = stream
  · obtain ⟨credit, hcredit, hbytes⟩ := h
    simp only [StreamRoutes.State.setStream, heq, Function.update_self, Option.bind_some,
      Option.some.injEq] at hcredit
    have hrest := (FlowCredit.tryTake_eq_some_iff.mp htake).2
    refine ⟨flow, by simp [heq, hst, hflow], ?_⟩
    rw [← hcredit] at hbytes
    omega
  · simpa [StreamRoutes.State.setStream, Function.update_of_ne heq] using h

theorem covered_of_step (hstep : StreamRoutes.Step transport s a t)
    (hst : s.streams other = some st)
    (h : Covered ((t.streams other).bind (·.flow)) bytes) :
    Covered ((s.streams other).bind (·.flow)) bytes ∨ granted s t = some other := by
  cases hstep with
  | enter | draw | drawZero | refuse | collide | close | closeRoutes | writerEnds | arm
  | seeClosed | shutdown | readFails | rejectUpdate | lookUpdate | strayUpdate | rejectCredit
  | lookCancel | strayCancel | look | stray | overflow | orphan | removeFull | removeOrphan
  | signal | clear => exact .inl h
  | @register _ stream _ _ _ hfresh =>
      have hne : other ≠ stream := by
        rintro rfl
        exact nomatch hfresh.symm.trans hst
      simp only [StreamRoutes.State.setStream, Function.update_of_ne hne] at h
      exact .inl h
  | recv hst' | pollClosed hst' | pollPending hst' | park hst' | abandon hst' | tryRecv hst'
  | tryEmpty hst' | tryDisconnected hst' | pop hst' | canceled hst' | recvClosed hst'
  | tryRecvClosed hst' | drop hst' | dropQueue hst' | cancel _ hst' | deliver _ hst' =>
      exact .inl (covered_of_set hst' h rfl)
  | takeCredit hst' hflow htake => exact .inl (covered_of_take hst' hflow htake h)
  | @read frame =>
      have hflow : (s.arrive frame other).bind (·.flow) = (s.streams other).bind (·.flow) := by
        rw [StreamRoutes.arrive_of_eq hst, hst]
        simp only [Option.bind_some]
        split_ifs <;> rfl
      exact .inl (hflow ▸ h)
  | @credit id stream _ _ _ credit hreader hst' =>
      by_cases heq : other = stream
      · exact .inr (by simp [granted, hreader, heq])
      · simp only [StreamRoutes.State.setStream, Function.update_of_ne heq] at h
        exact .inl h

theorem granted_eq_none (hstep : StreamRoutes.Step transport s a t) (ha : a ≠ .reader) :
    granted s t = none := by
  unfold granted
  rw [StreamRoutes.reader_of_step hstep ha]
  split <;> simp_all

theorem cancel_of_step (hstep : StreamRoutes.Step transport s a t)
    (hst : s.streams other = some st)
    (h : ((s.streams other).bind (·.cancel)).isSome = true) :
    ((t.streams other).bind (·.cancel)).isSome = true := by
  obtain ⟨st', hst', hchange⟩ := StreamRoutes.change_of_step hstep hst
  rw [hst, Option.bind_some, Option.isSome_iff_ne_none] at h
  rw [hst', Option.bind_some, Option.isSome_iff_ne_none]
  exact hchange.canceled h

end Transport

section Invariant

variable {transport : DeviceTransport} {s t : State} {a : Action} {w w' : Waiter} {stream : Nat}

theorem inv_initial : Inv .initial where
  known := nofun
  unseen := nofun
  watched := nofun

theorem changed_of_cancel (hseen : w.seen = true → (s.cancel w.stream).isSome = true)
    (hkept : (s.cancel w.stream).isSome = true → (t.cancel w.stream).isSome = true) :
    (w.changed t = w.changed s ∨ w.changed t = (w.changed s).wake) ∧
      ((t.cancel w.stream).isSome = true → (s.cancel w.stream).isSome = true ∨
        w.changed t = (w.changed s).wake) := by
  unfold Waiter.changed
  cases hw : w.seen with
  | true => exact ⟨.inl rfl, fun _ => .inl (hseen hw)⟩
  | false =>
      cases hs : (s.cancel w.stream).isSome with
      | true => exact ⟨.inl (by simp [hkept hs]), fun _ => .inl rfl⟩
      | false => cases ht : (t.cancel w.stream).isSome <;> simp [Notified.wake]

theorem after_disturbs {a : StreamRoutes.Action} {t : StreamRoutes.State} (h : Inv s)
    (hw : w ∈ s.waiters) (hstep : StreamRoutes.Step transport s.transport a t)
    (hreader : a = .reader → s.granting = none) :
    (view s w).Disturbs (view (s.after t) w) := by
  obtain ⟨st, hst⟩ := h.known w hw
  obtain ⟨hfuture, hraised⟩ :=
    changed_of_cancel (t := s.after t) (h.unseen w hw) (cancel_of_step hstep hst)
  refine ⟨fun i => by cases i <;> exact .rfl, fun _ => .inl, ?_, ?_, ?_⟩
  · rintro (_ | _ | _)
    · exact .inl rfl
    · exact hfuture
    · exact .inl rfl
  · rintro (_ | _ | _) hready
    · rcases covered_of_step hstep hst hready with hbefore | hgranted
      · exact .inl hbefore
      · exact .inr (.inl (by simp [view, State.after, hgranted]))
    · exact (hraised hready).imp_right .inr
    · have hclosed : t.closed = true := hready
      cases hbefore : s.transport.closed with
      | true => exact .inl hbefore
      | false => exact .inr (.inl (by simp [view, State.after, hbefore, hclosed]))
  · rintro (_ | _ | _) _ hsignaling
    · have hgranting : s.granting = some w.stream := hsignaling
      have ha : a ≠ .reader := fun ha => nomatch (hreader ha).symm.trans hgranting
      exact .inl (by simp [view, State.after, granted_eq_none hstep ha, hgranting])
    · exact hsignaling.elim
    · have hsignaling' : s.signaling = true := hsignaling
      exact .inl (by simp [view, State.after, hsignaling'])

theorem changed_ne_absent (hseen : w.seen = false) : w.changed s ≠ .absent := by
  simp only [Waiter.changed, hseen, Bool.false_eq_true, if_false]
  split <;> exact nofun

theorem watched_of_unchecked (hchecked : ∀ i, w.stage.checked i = false)
    (hcredit : w.stage.created .credit = true → w.creditReady ≠ .absent)
    (hclosed : w.stage.created .closed = true → w.closed ≠ .absent) : (view s w).Watched := by
  refine .of_unchecked ?_ fun i h => by simp [view, hchecked] at h
  rintro (_ | _ | _) hcreated
  · exact hcredit hcreated
  · exact changed_ne_absent hcreated
  · exact hclosed hcreated

theorem watched_of_look {stage next : Stage} {j : Condition} (hstage : w.stage = stage)
    (hlook : stage.Looks j next) (h : (view s w).Watched) (hcreated : (view s w).created j)
    (hunmet : ¬ (view s w).ready j) :
    (view s { w with stage := next }).Watched := by
  subst hstage
  refine h.disturbed (.of_look j ?_ rfl rfl rfl hlook.checked hcreated hunmet)
  funext i
  cases i <;> simp only [view, hlook.created_eq]

theorem Moves.watched (hmove : Moves s w w')
    (hseen : w.seen = true → (s.cancel w.stream).isSome = true) (h : (view s w).Watched) :
    (view s w').Watched := by
  cases hmove with
  | createCredit =>
      exact watched_of_unchecked (fun i => by cases i <;> rfl) (fun _ => by simp)
        fun h => by cases h
  | createClosed hstage =>
      have hcredit := h.created .credit (by simp [view, hstage, Stage.created])
      exact watched_of_unchecked (fun i => by cases i <;> rfl) (fun _ => hcredit)
        fun _ => by simp
  | credited | closed | severed | stillOpen | stillActive =>
      exact watched_of_unchecked (fun i => by cases i <;> rfl) (fun h => by cases h)
        fun h => by cases h
  | active hstage hcancel =>
      have hunseen : w.seen = false := by
        by_contra hw
        have hcanceled := hseen (by simpa using hw)
        simp [hcancel] at hcanceled
      exact watched_of_look hstage .active h hunseen (by simp [view, hcancel])
  | opened hstage hopen =>
      exact watched_of_look hstage .opened h (by simp [view, hstage, Stage.created])
        (by simp [view, hopen])
  | starved hstage hflow htake =>
      refine watched_of_look hstage .starved h (by simp [view, hstage, Stage.created]) ?_
      rintro ⟨credit, hcredit, hbytes⟩
      obtain rfl := Option.some.inj (hflow.symm.trans hcredit)
      exact Nat.not_le_of_lt (FlowCredit.tryTake_eq_none_iff.mp htake) hbytes

theorem notifyCredit_disturbs {waiters : List Waiter} (hgranting : s.granting = some stream) :
    (view s w).Disturbs
      (view { s with granting := none, waiters := waiters } (w.notifyFlow stream)) := by
  unfold Waiter.notifyFlow
  split
  · refine ⟨fun i => by cases i <;> exact .rfl, fun _ => .inl, ?_, fun i h => ?_, ?_⟩
    · rintro (_ | _ | _)
      · exact .inr rfl
      · exact .inl rfl
      · exact .inl rfl
    · cases i <;> exact .inl h
    · rintro (_ | _ | _) _ hsignaling
      · exact .inr rfl
      · exact hsignaling.elim
      · exact .inl hsignaling
  · rename_i hne
    refine .of_others rfl rfl rfl (fun i h => by cases i <;> exact .inl h) ?_
    rintro (_ | _ | _) _ hsignaling
    · exact absurd (Option.some.inj (hsignaling.symm.trans hgranting)) hne
    · exact hsignaling
    · exact hsignaling

theorem notifyClosed_disturbs {waiters : List Waiter} :
    (view s w).Disturbs
      (view { s with signaling := false, waiters := waiters } w.notifyClosed) := by
  refine ⟨fun i => by cases i <;> exact .rfl, fun _ => .inl, ?_, fun i h => ?_, ?_⟩
  · rintro (_ | _ | _)
    · exact .inl rfl
    · exact .inl rfl
    · exact .inr rfl
  · cases i <;> exact .inl h
  · rintro (_ | _ | _) _ hsignaling
    · exact .inl hsignaling
    · exact hsignaling.elim
    · exact .inr rfl

theorem Inv.woken (h : Inv s) (wake : Waiter → Waiter)
    (hwaiters : ∀ w ∈ t.waiters, ∃ w' ∈ s.waiters, w = wake w')
    (hwake : ∀ w, (wake w).stream = w.stream ∧ (wake w).seen = w.seen)
    (hknown : ∀ w ∈ s.waiters, ∃ st, t.transport.streams w.stream = some st)
    (hkept : ∀ w ∈ s.waiters,
      (s.cancel w.stream).isSome = true → (t.cancel w.stream).isSome = true)
    (hstep : ∀ w ∈ s.waiters, (view s w).Disturbs (view t (wake w))) : Inv t where
  known w hw := by
    obtain ⟨w', hw', rfl⟩ := hwaiters w hw
    rw [(hwake w').1]
    exact hknown w' hw'
  unseen w hw hseen := by
    obtain ⟨w', hw', rfl⟩ := hwaiters w hw
    rw [(hwake w').1]
    rw [(hwake w').2] at hseen
    exact hkept w' hw' (h.unseen w' hw' hseen)
  watched w hw := by
    obtain ⟨w', hw', rfl⟩ := hwaiters w hw
    exact (h.watched w' hw').disturbed (hstep w' hw')

theorem Moves.stream_eq (h : Moves s w w') : w'.stream = w.stream ∧ w'.seen = w.seen := by
  cases h <;> exact ⟨rfl, rfl⟩

theorem Inv.erase (h : Inv s) (w : Waiter) : Inv { s with waiters := s.waiters.erase w } where
  known other hother := h.known other (List.mem_of_mem_erase hother)
  unseen other hother := h.unseen other (List.mem_of_mem_erase hother)
  watched other hother := h.watched other (List.mem_of_mem_erase hother)

theorem Inv.after (h : Inv s) {a : StreamRoutes.Action} {t : StreamRoutes.State}
    (hstep : StreamRoutes.Step transport s.transport a t)
    (hreader : a = .reader → s.granting = none) : Inv (s.after t) := by
  refine h.woken id (fun w hw => ⟨w, hw, rfl⟩) (fun _ => ⟨rfl, rfl⟩) ?_ ?_
    fun w hw => after_disturbs h hw hstep hreader
  · intro w hw
    obtain ⟨st, hst⟩ := h.known w hw
    obtain ⟨st', hst', _⟩ := StreamRoutes.change_of_step hstep hst
    exact ⟨st', hst'⟩
  · intro w hw
    obtain ⟨st, hst⟩ := h.known w hw
    exact cancel_of_step hstep hst

theorem Inv.take (transport : DeviceTransport) (h : Inv s) {st : DeviceStream}
    {flow rest : FlowCredit} {bytes : Nat} (hst : s.transport.streams stream = some st)
    (hflow : st.flow = some flow) (htake : flow.tryTake bytes = some rest) :
    Inv { s with
      transport := { s.transport with
        streams := s.transport.setStream stream { st with flow := some rest } } } := by
  have hstep : StreamRoutes.Step transport s.transport (.owner stream) _ :=
    .takeCredit hst hflow htake
  have hafter := h.after hstep nofun
  have hgranted := granted_eq_none hstep nofun
  simp only [State.after, hgranted, Bool.not_and_self, Bool.or_false] at hafter
  exact hafter

theorem Inv.step (h : Inv s) (hstep : Step transport s a t) : Inv t := by
  cases hstep with
  | transport hstep hreader => exact h.after hstep hreader
  | @notifyCredit stream hgranting =>
      refine h.woken (·.notifyFlow stream) ?_ ?_ h.known (fun _ _ => id) fun _ _ =>
        notifyCredit_disturbs hgranting
      · intro w hw
        obtain ⟨w', hw', rfl⟩ := List.mem_map.mp hw
        exact ⟨w', hw', rfl⟩
      · intro w
        unfold Waiter.notifyFlow
        split <;> exact ⟨rfl, rfl⟩
  | notifyClosed =>
      refine h.woken Waiter.notifyClosed ?_ (fun _ => ⟨rfl, rfl⟩) h.known (fun _ _ => id)
        fun _ _ => notifyClosed_disturbs
      intro w hw
      obtain ⟨w', hw', rfl⟩ := List.mem_map.mp hw
      exact ⟨w', hw', rfl⟩
  | acquireNothing | acquireTooMuch => exact h
  | @acquire stream bytes st amount seen hst hguard hseen =>
      refine ⟨?_, ?_, ?_⟩
      · exact List.forall_mem_cons.mpr ⟨⟨st, hst⟩, h.known⟩
      · refine List.forall_mem_cons.mpr ⟨fun htrue => ?_, h.unseen⟩
        have hcancel := hseen htrue
        simp [State.cancel, Waiter.new, hst, Option.isSome_iff_ne_none, hcancel]
      · exact List.forall_mem_cons.mpr
          ⟨watched_of_unchecked (fun i => by cases i <;> rfl) nofun nofun, h.watched⟩
  | move hw hmove =>
      obtain ⟨hstream, hseen⟩ := hmove.stream_eq
      refine ⟨hw.forall_mem h.known ?_, hw.forall_mem h.unseen ?_, hw.forall_mem h.watched ?_⟩
      · exact hstream ▸ h.known _ hw.mem
      · exact hstream ▸ hseen ▸ h.unseen _ hw.mem
      · exact hmove.watched (h.unseen _ hw.mem) (h.watched _ hw.mem)
  | take hw hstage hst hflow htake => exact (h.take transport hst hflow htake).erase _
  | fail => exact h.erase _
  | drop => exact h.erase _

theorem inv_of_reachable (h : (system transport).Reachable s) : Inv s := by
  refine h.invariant ?_ fun _ _ _ => Inv.step
  rintro s rfl
  exact inv_initial

/-- Whatever a suspended waiter is to be woken for, someone is about to notify it of. -/
theorem Inv.notified (h : Inv s) (hw : w ∈ s.waiters) (hasleep : w.Asleep s) {i : Condition}
    (hready : (view s w).ready i) : (view s w).signaling i := by
  obtain ⟨hstage, hcredit, hclosed, hchanged, _⟩ := hasleep
  refine (h.watched w hw).signaling ?_ ?_ hready
  · simp [view, hstage, Stage.checked]
  · cases i with
    | credit => exact hcredit
    | canceled => exact hchanged
    | closed => exact hclosed

end Invariant

def limitedTransport : DeviceTransport := ⟨true, fun _ => .ok 4⟩

end SideWire.StreamCreditWait
