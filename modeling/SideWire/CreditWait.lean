import SideWire.Base.TransitionSystem
import SideWire.Base.TaskPool
import SideWire.Base.Wakeup
import SideWire.FlowControl
import Mathlib.Logic.Function.Basic

/-!
Waiting for flow credit: what the two `acquire_flow_credit` share, and the one of `MuxWriter`
on the device, called by any tasks beside any calls of the other methods.
-/

namespace SideWire.CreditWait

open SideWire.FlowControl

/-- An amount that `acquire_flow_credit` enters its loop for. -/
structure Amount where
  bytes : Nat
  positive : 0 < bytes
  bounded : bytes ≤ maxFlowCredit
  deriving DecidableEq

/-- The guards ahead of the loop. Without an amount there is nothing to acquire. -/
def guardAmount (limited : Bool) (bytes : Nat) : Except String (Option Amount) :=
  if h : limited = true ∧ 0 < bytes then
    if hbound : bytes ≤ maxFlowCredit then .ok (some ⟨bytes, h.2, hbound⟩)
    else .error s!"frame requires more than {maxFlowCredit} bytes of flow credit"
  else .ok none

/-- What a waiter is woken for. -/
inductive Condition
  | credit
  | canceled
  | closed
  deriving DecidableEq

/-- What a call of `acquire_flow_credit` does next: it creates its two futures, looks at the
cancellation, at the connection and at the credit, and then selects. After a selection the
host may look at the first two again before it goes on with the loop. -/
inductive Stage
  | creditReady
  | closedReady
  | ensureActive
  | ensureOpen
  | tryTake
  | selecting
  | ensureStillActive
  | ensureStillOpen
  deriving DecidableEq

/-- The futures that are there. That for the cancellation is the one for the credit, which is
notified of both. -/
def Stage.created : Stage → Condition → Bool
  | .creditReady, _ | .ensureStillActive, _ | .ensureStillOpen, _ => false
  | .closedReady, .closed => false
  | _, _ => true

/-- What has been looked at since the futures were created. -/
def Stage.checked : Stage → Condition → Bool
  | .ensureOpen, .canceled => true
  | .tryTake, .canceled | .tryTake, .closed => true
  | .selecting, _ => true
  | _, _ => false

/-- The looks of one turn of the loop, in order. -/
inductive Stage.Looks : Stage → Condition → Stage → Prop
  | active : Looks .ensureActive .canceled .ensureOpen
  | opened : Looks .ensureOpen .closed .tryTake
  | starved : Looks .tryTake .credit .selecting

namespace Stage.Looks

variable {stage next : Stage} {j : Condition}

theorem created_eq (h : stage.Looks j next) (i : Condition) : next.created i = stage.created i := by
  cases h <;> cases i <;> rfl

theorem created (h : stage.Looks j next) : stage.created j = true := by
  cases h <;> rfl

theorem checked (h : stage.Looks j next) (i : Condition) (hi : next.checked i = true) :
    stage.checked i = true ∨ i = j := by
  cases h <;> cases i <;> first | exact .inl rfl | exact .inr rfl | exact nomatch hi

end Stage.Looks

end SideWire.CreditWait

namespace SideWire.MuxCreditWait

open SideWire.TransitionSystem
open SideWire.TaskPool
open SideWire.Wakeup
open SideWire.FlowControl
open SideWire.CreditWait

/-- A call of `acquire_flow_credit` in its loop, with the `FlowCredit` it has looked up. -/
structure Waiter where
  streamId : UInt32
  amount : Amount
  flow : Nat
  stage : Stage
  creditReady : Notified
  failed : Notified
  deriving DecidableEq

/-- What calls of other methods have still to do: `FlowCredit::add`, its notification or that
of `cancel_local`, the lookup of `cancel_local`, the notification of `close` or of the writer
task, and the second half of `finish_stream`. -/
inductive Call
  | adding (flow bytes : Nat)
  | notifying (flow : Nat)
  | canceling (id : UInt32)
  | failing
  | finishing (id : UInt32)
  deriving DecidableEq

/-- A `FlowCredit` goes by a number of its own, since an id may be registered again. -/
structure State where
  canceled : UInt32 → Bool
  failed : Bool
  flowCredits : UInt32 → Option Nat
  flows : Nat → FlowCredit
  next : Nat
  calls : List Call
  waiters : List Waiter

def State.initial : State where
  canceled _ := false
  failed := false
  flowCredits _ := none
  flows _ := .new
  next := 0
  calls := []
  waiters := []

inductive Action
  | runs
  | looksUp (id : UInt32)
  | registers (result : Except String Unit)
  | adds (result : Except String Bool)
  | acquires (result : Except String Unit)

/-- The new entry stays also where the registration fails. -/
def registerFlowStream (supportsFlowControl : Bool) (s : State) (id : UInt32) :
    Except String Unit × State :=
  if supportsFlowControl then
    (if s.flowCredits id = none then .ok ()
      else .error s!"stream {id} already has flow control state",
      { s with
        flowCredits := Function.update s.flowCredits id (some s.next)
        flows := Function.update s.flows s.next .new, next := s.next + 1 })
  else (.ok (), s)

namespace Waiter

def new (id : UInt32) (amount : Amount) (flow : Nat) : Waiter :=
  ⟨id, amount, flow, .creditReady, .absent, .absent⟩

variable (w : Waiter)

/-- The loop begins again, without its futures. -/
def again : Waiter := .new w.streamId w.amount w.flow

def notifyFlow (flow : Nat) : Waiter :=
  if w.flow = flow then { w with creditReady := w.creditReady.wake } else w

def notifyFailed : Waiter := { w with failed := w.failed.wake }

/-- The waiter is suspended in its `select!` with none of its futures completed. -/
def Asleep : Prop :=
  w.stage = .selecting ∧ w.creditReady ≠ .completed ∧ w.failed ≠ .completed

end Waiter

/-- The steps of the loop that neither return nor touch the state. -/
inductive Moves (s : State) : Waiter → Waiter → Prop
  | createCredit {w} (hstage : w.stage = .creditReady) :
      Moves s w { w with stage := .closedReady, creditReady := .waiting }
  | createFailed {w} (hstage : w.stage = .closedReady) :
      Moves s w { w with stage := .ensureActive, failed := .waiting }
  | active {w} (hstage : w.stage = .ensureActive) (hcanceled : s.canceled w.streamId = false) :
      Moves s w { w with stage := .ensureOpen }
  | opened {w} (hstage : w.stage = .ensureOpen) (hfailed : s.failed = false) :
      Moves s w { w with stage := .tryTake }
  | starved {w} (hstage : w.stage = .tryTake)
      (htake : (s.flows w.flow).tryTake w.amount.bytes = none) :
      Moves s w { w with stage := .selecting }
  | woken {w} (hstage : w.stage = .selecting)
      (hwoken : w.creditReady = .completed ∨ w.failed = .completed) : Moves s w w.again

/-- The returns of the loop, with the credit they leave. -/
inductive Returns (s : State) (w : Waiter) : Except String Unit → FlowCredit → Prop
  | taken {rest} (hstage : w.stage = .tryTake)
      (htake : (s.flows w.flow).tryTake w.amount.bytes = some rest) : Returns s w (.ok ()) rest
  | canceled (hstage : w.stage = .ensureActive) (hcanceled : s.canceled w.streamId = true) :
      Returns s w (.error s!"stream {w.streamId} canceled") (s.flows w.flow)
  | failed (hstage : w.stage = .ensureOpen) (hfailed : s.failed = true) :
      Returns s w (.error "device connection writer stopped") (s.flows w.flow)

inductive Step (supportsFlowControl : Bool) : State → Action → State → Prop
  -- `register_flow_stream`
  | register {s : State} {id : UInt32} :
      Step supportsFlowControl s (.registers (registerFlowStream supportsFlowControl s id).1)
        (registerFlowStream supportsFlowControl s id).2
  -- `add_flow_credit`
  | rejectUpdate {s : State} (hunsupported : supportsFlowControl = false) :
      Step supportsFlowControl s
        (.adds (.error "peer sent flow control update without negotiation")) s
  | lookFlow {s : State} {id bytes : UInt32} {flow : Nat}
      (hsupported : supportsFlowControl = true) (hflow : s.flowCredits id = some flow) :
      Step supportsFlowControl s .runs { s with calls := .adding flow bytes.toNat :: s.calls }
  | strayUpdate {s : State} {id : UInt32} (hsupported : supportsFlowControl = true)
      (hflow : s.flowCredits id = none) :
      Step supportsFlowControl s (.adds (.ok false)) s
  | add {s : State} {flow bytes : Nat} {credit : FlowCredit}
      (hcall : .adding flow bytes ∈ s.calls)
      (hadd : (s.flows flow).add bytes = .ok credit) :
      Step supportsFlowControl s .runs { s with
        flows := Function.update s.flows flow credit
        calls := .notifying flow :: s.calls.erase (.adding flow bytes) }
  | rejectAdd {s : State} {flow bytes : Nat} {message : String}
      (hcall : .adding flow bytes ∈ s.calls)
      (hadd : (s.flows flow).add bytes = .error message) :
      Step supportsFlowControl s (.adds (.error message)) { s with
        calls := s.calls.erase (.adding flow bytes) }
  | notify {s : State} {flow : Nat} (hcall : .notifying flow ∈ s.calls) :
      Step supportsFlowControl s .runs { s with
        calls := s.calls.erase (.notifying flow)
        waiters := s.waiters.map (·.notifyFlow flow) }
  -- `cancel_local`, which ends with a notification of the flow it finds
  | cancelLocal {s : State} {id : UInt32} :
      Step supportsFlowControl s .runs { s with
        canceled := Function.update s.canceled id true, calls := .canceling id :: s.calls }
  | cancelFlow {s : State} {id : UInt32} {flow : Nat} (hcall : .canceling id ∈ s.calls)
      (hflow : s.flowCredits id = some flow) :
      Step supportsFlowControl s (.looksUp id) { s with
        calls := .notifying flow :: s.calls.erase (.canceling id) }
  | cancelNothing {s : State} {id : UInt32} (hcall : .canceling id ∈ s.calls)
      (hflow : s.flowCredits id = none) :
      Step supportsFlowControl s (.looksUp id) { s with
        calls := s.calls.erase (.canceling id) }
  -- `finish_stream`
  | finish {s : State} {id : UInt32} :
      Step supportsFlowControl s .runs { s with
        canceled := Function.update s.canceled id false, calls := .finishing id :: s.calls }
  | finishFlow {s : State} {id : UInt32} (hcall : .finishing id ∈ s.calls) :
      Step supportsFlowControl s .runs { s with
        flowCredits := Function.update s.flowCredits id none
        calls := s.calls.erase (.finishing id) }
  -- `close`, where the swap finds the flag unset, and the end of the writer task
  | close {s : State} (hopen : s.failed = false) :
      Step supportsFlowControl s .runs { s with failed := true, calls := .failing :: s.calls }
  | writerEnds {s : State} :
      Step supportsFlowControl s .runs { s with failed := true, calls := .failing :: s.calls }
  | notifyFailed {s : State} (hcall : .failing ∈ s.calls) :
      Step supportsFlowControl s .runs { s with
        calls := s.calls.erase .failing, waiters := s.waiters.map Waiter.notifyFailed }
  -- `acquire_flow_credit`
  | acquireNothing {s : State} {bytes : Nat}
      (hguard : guardAmount supportsFlowControl bytes = .ok none) :
      Step supportsFlowControl s (.acquires (.ok ())) s
  | acquireTooMuch {s : State} {bytes : Nat} {message : String}
      (hguard : guardAmount supportsFlowControl bytes = .error message) :
      Step supportsFlowControl s (.acquires (.error message)) s
  | acquireMissing {s : State} {id : UInt32} {bytes : Nat} {amount : Amount}
      (hguard : guardAmount supportsFlowControl bytes = .ok (some amount))
      (hflow : s.flowCredits id = none) :
      Step supportsFlowControl s
        (.acquires (.error s!"missing flow control state for stream {id}")) s
  | acquire {s : State} {id : UInt32} {bytes flow : Nat} {amount : Amount}
      (hguard : guardAmount supportsFlowControl bytes = .ok (some amount))
      (hflow : s.flowCredits id = some flow) :
      Step supportsFlowControl s .runs { s with
        waiters := .new id amount flow :: s.waiters }
  | move {s : State} {w w' : Waiter} {waiters : List Waiter}
      (hw : Replaces w w' s.waiters waiters) (hmove : Moves s w w') :
      Step supportsFlowControl s .runs { s with waiters := waiters }
  | returns {s : State} {w : Waiter} {result : Except String Unit} {rest : FlowCredit}
      (hw : w ∈ s.waiters) (hreturns : Returns s w result rest) :
      Step supportsFlowControl s (.acquires result) { s with
        flows := Function.update s.flows w.flow rest, waiters := s.waiters.erase w }
  -- the future of a call is dropped
  | drop {s : State} {w : Waiter} (hw : w ∈ s.waiters) :
      Step supportsFlowControl s .runs { s with waiters := s.waiters.erase w }

def system (supportsFlowControl : Bool) : System State Action where
  init := fun s => s = .initial
  step := Step supportsFlowControl

/-- Where `cancel_local` looks up the entry of its stream it finds the `FlowCredit` of every
waiter that has found the stream active and is not woken yet. -/
def Action.finds (s : State) : Action → Prop
  | .looksUp id => ∀ w ∈ s.waiters, w.streamId = id → w.stage.checked .canceled = true →
      w.creditReady ≠ .completed → s.flowCredits id = some w.flow
  | _ => True

/-- The stream counts as canceled as long as the entry that the waiter has found is there. One
that is gone does not come back: no `FlowCredit` is registered twice. -/
def view (s : State) (w : Waiter) : View Condition where
  future
    | .credit | .canceled => w.creditReady
    | .closed => w.failed
  created i := w.stage.created i = true
  checked i := w.stage.checked i = true
  ready
    | .credit => w.amount.bytes ≤ (s.flows w.flow).available
    | .canceled => s.canceled w.streamId = true ∧ s.flowCredits w.streamId = some w.flow
    | .closed => s.failed = true
  signaling
    | .credit => .notifying w.flow ∈ s.calls
    | .canceled => .canceling w.streamId ∈ s.calls ∨ .notifying w.flow ∈ s.calls
    | .closed => .failing ∈ s.calls

structure Inv (s : State) : Prop where
  entries : ∀ id flow, s.flowCredits id = some flow → flow < s.next
  known : ∀ w ∈ s.waiters, w.flow < s.next
  watched : ∀ w ∈ s.waiters, (view s w).Watched

section Invariant

variable {supportsFlowControl : Bool} {s t : State} {a : Action} {w w' : Waiter} {id : UInt32}
  {flow : Nat}

theorem inv_initial : Inv .initial where
  entries := nofun
  known := nofun
  watched := nofun

theorem watched_of_look {stage next : Stage} {j : Condition} (hstage : w.stage = stage)
    (hlook : stage.Looks j next) (h : (view s w).Watched) (hunmet : ¬ (view s w).ready j) :
    (view s { w with stage := next }).Watched := by
  subst hstage
  refine h.disturbed (.of_look j ?_ rfl rfl rfl hlook.checked hlook.created hunmet)
  funext i
  simp only [view, hlook.created_eq]

theorem Moves.watched (hmove : Moves s w w') (h : (view s w).Watched) :
    (view s w').Watched := by
  cases hmove with
  | createCredit hstage =>
      refine .of_unchecked (fun i hcreated => ?_) fun i hchecked => ?_
      · cases i with
        | credit | canceled => simp [view]
        | closed => exact nomatch hcreated
      · cases i <;> exact nomatch hchecked
  | createFailed hstage =>
      have hcredit := h.created .credit (by simp [view, hstage, Stage.created])
      refine .of_unchecked (fun i _ => ?_) fun i hchecked => ?_
      · cases i with
        | credit | canceled => exact hcredit
        | closed => simp [view]
      · cases i <;> exact nomatch hchecked
  | woken =>
      refine .of_unchecked (fun i hcreated => ?_) fun i hchecked => ?_
      · cases i <;> exact nomatch hcreated
      · cases i <;> exact nomatch hchecked
  | active hstage hcanceled =>
      exact watched_of_look hstage .active h (by simp [view, hcanceled])
  | opened hstage hfailed =>
      exact watched_of_look hstage .opened h (by simp [view, hfailed])
  | starved hstage htake =>
      exact watched_of_look hstage .starved h
        (Nat.not_le_of_lt (FlowCredit.tryTake_eq_none_iff.mp htake))

theorem signaling_mono {i : Condition}
    (hcalls : ∀ call ∈ s.calls, (∀ flow bytes, call ≠ .adding flow bytes) →
      (∀ id, call ≠ .finishing id) → call ∈ t.calls)
    (h : (view s w).signaling i) : (view t w).signaling i := by
  cases i with
  | credit => exact hcalls _ h nofun nofun
  | canceled => exact h.imp (hcalls _ · nofun nofun) (hcalls _ · nofun nofun)
  | closed => exact hcalls _ h nofun nofun

theorem disturbs_of_calls
    (hcalls : ∀ call ∈ s.calls, (∀ flow bytes, call ≠ .adding flow bytes) →
      (∀ id, call ≠ .finishing id) → call ∈ t.calls)
    (hraised : ∀ i, (view t w).ready i → (view s w).ready i ∨ (view t w).signaling i) :
    (view s w).Disturbs (view t w) :=
  .of_others rfl rfl rfl hraised fun _ _ => signaling_mono hcalls

theorem registerFlowStream_disturbs (hw : w.flow < s.next) :
    (view s w).Disturbs (view (registerFlowStream supportsFlowControl s id).2 w) := by
  unfold registerFlowStream
  split
  · refine disturbs_of_calls (fun _ h _ _ => h) ?_
    rintro (_ | _ | _) hready
    · have hne : w.flow ≠ s.next := by omega
      simp only [view, Function.update_of_ne hne] at hready
      exact .inl hready
    · obtain ⟨hcanceled, hentry⟩ := hready
      refine .inl ⟨hcanceled, ?_⟩
      by_cases hid : w.streamId = id
      · simp only [hid, Function.update_self, Option.some.injEq] at hentry
        omega
      · simp only [Function.update_of_ne hid] at hentry
        exact hentry
    · exact .inl hready
  · exact disturbs_of_calls (fun _ h _ _ => h) fun _ => .inl

theorem add_disturbs {bytes : Nat} {credit : FlowCredit} :
    (view s w).Disturbs (view { s with
      flows := Function.update s.flows flow credit
      calls := .notifying flow :: s.calls.erase (.adding flow bytes) } w) := by
  refine disturbs_of_calls (fun call h hadding _ => ?_) ?_
  · exact List.mem_cons_of_mem _ ((List.mem_erase_of_ne (hadding flow bytes)).mpr h)
  · rintro (_ | _ | _) hready
    · by_cases hflow : w.flow = flow
      · exact .inr (hflow ▸ List.mem_cons_self)
      · simp only [view, Function.update_of_ne hflow] at hready
        exact .inl hready
    · exact .inl hready
    · exact .inl hready

/-- A step that is about one stream id, and makes its cancellation true only to notify. -/
theorem disturbs_of_id (id : UInt32)
    (hcalls : ∀ call ∈ s.calls, (∀ flow bytes, call ≠ .adding flow bytes) →
      (∀ id, call ≠ .finishing id) → call ∈ t.calls)
    (hflows : t.flows = s.flows) (hfailed : t.failed = s.failed)
    (hothers : ∀ other, other ≠ id → t.canceled other = s.canceled other ∧
      t.flowCredits other = s.flowCredits other)
    (hid : w.streamId = id → (view t w).ready .canceled → (view t w).signaling .canceled) :
    (view s w).Disturbs (view t w) := by
  refine disturbs_of_calls hcalls ?_
  rintro (_ | _ | _) hready
  · exact .inl (by simpa only [view, hflows] using hready)
  · by_cases hsame : w.streamId = id
    · exact .inr (hid hsame hready)
    · obtain ⟨hcanceled, hentry⟩ := hothers _ hsame
      simp only [view, hcanceled, hentry] at hready
      exact .inl hready
  · exact .inl (by simpa only [view, hfailed] using hready)

theorem cancelLocal_disturbs :
    (view s w).Disturbs (view { s with
      canceled := Function.update s.canceled id true, calls := .canceling id :: s.calls } w) := by
  refine disturbs_of_id id (fun _ h _ _ => List.mem_cons_of_mem _ h) rfl rfl ?_ ?_
  · exact fun other hne => ⟨Function.update_of_ne hne _ _, rfl⟩
  · rintro rfl _
    exact .inl List.mem_cons_self

theorem cancelFlow_disturbs (hflow : s.flowCredits id = some flow) :
    (view s w).Disturbs (view { s with
      calls := .notifying flow :: s.calls.erase (.canceling id) } w) := by
  have hcalls : ∀ call ∈ s.calls, call ≠ .canceling id →
      call ∈ Call.notifying flow :: s.calls.erase (.canceling id) :=
    fun call h hne => List.mem_cons_of_mem _ ((List.mem_erase_of_ne hne).mpr h)
  refine .of_others rfl rfl rfl (fun _ => .inl) ?_
  rintro (_ | _ | _) hready hsignaling
  · exact hcalls _ hsignaling nofun
  · rcases hsignaling with hcanceling | hnotifying
    · by_cases hid : w.streamId = id
      · have hentry : s.flowCredits w.streamId = some w.flow := hready.2
        rw [hid, hflow, Option.some.injEq] at hentry
        exact .inr (hentry ▸ List.mem_cons_self)
      · exact .inl (hcalls _ hcanceling (by simpa using hid))
    · exact .inr (hcalls _ hnotifying nofun)
  · exact hcalls _ hsignaling nofun

theorem cancelNothing_disturbs (hflow : s.flowCredits id = none) :
    (view s w).Disturbs (view { s with calls := s.calls.erase (.canceling id) } w) := by
  have hcalls : ∀ call ∈ s.calls, call ≠ .canceling id → call ∈ s.calls.erase (.canceling id) :=
    fun call h hne => (List.mem_erase_of_ne hne).mpr h
  refine .of_others rfl rfl rfl (fun _ => .inl) ?_
  rintro (_ | _ | _) hready hsignaling
  · exact hcalls _ hsignaling nofun
  · have hid : w.streamId ≠ id := by
      rintro rfl
      exact nomatch hflow.symm.trans hready.2
    exact hsignaling.imp (hcalls _ · (by simpa using hid)) (hcalls _ · nofun)
  · exact hcalls _ hsignaling nofun

theorem finish_disturbs :
    (view s w).Disturbs (view { s with
      canceled := Function.update s.canceled id false
      calls := .finishing id :: s.calls } w) := by
  refine disturbs_of_id id (fun _ h _ _ => List.mem_cons_of_mem _ h) rfl rfl ?_ ?_
  · exact fun other hne => ⟨Function.update_of_ne hne _ _, rfl⟩
  · intro hid hready
    simp [view, hid] at hready

theorem finishFlow_disturbs :
    (view s w).Disturbs (view { s with
      flowCredits := Function.update s.flowCredits id none
      calls := s.calls.erase (.finishing id) } w) := by
  refine disturbs_of_id id (fun call h _ hfinishing => ?_) rfl rfl ?_ ?_
  · exact (List.mem_erase_of_ne (hfinishing id)).mpr h
  · exact fun other hne => ⟨rfl, Function.update_of_ne hne _ _⟩
  · intro hid hready
    simp [view, hid] at hready

theorem failing_disturbs :
    (view s w).Disturbs (view { s with failed := true, calls := .failing :: s.calls } w) := by
  refine disturbs_of_calls (fun _ h _ _ => List.mem_cons_of_mem _ h) ?_
  rintro (_ | _ | _) hready
  · exact .inl hready
  · exact .inl hready
  · exact .inr List.mem_cons_self

theorem notify_disturbs {waiters : List Waiter} :
    (view s w).Disturbs (view { s with
      calls := s.calls.erase (.notifying flow), waiters := waiters } (w.notifyFlow flow)) := by
  have hcalls : ∀ call ∈ s.calls, call ≠ .notifying flow →
      call ∈ s.calls.erase (.notifying flow) :=
    fun call h hne => (List.mem_erase_of_ne hne).mpr h
  unfold Waiter.notifyFlow
  split
  · refine ⟨fun _ => .rfl, fun _ => .inl, ?_, fun _ => .inl, ?_⟩
    · rintro (_ | _ | _)
      · exact .inr rfl
      · exact .inr rfl
      · exact .inl rfl
    · rintro (_ | _ | _) _ hsignaling
      · exact .inr rfl
      · exact .inr rfl
      · exact .inl (hcalls _ hsignaling nofun)
  · rename_i hne
    refine .of_others rfl rfl rfl (fun _ => .inl) ?_
    rintro (_ | _ | _) _ hsignaling
    · exact hcalls _ hsignaling (by simpa using hne)
    · exact hsignaling.imp (hcalls _ · nofun) (hcalls _ · (by simpa using hne))
    · exact hcalls _ hsignaling nofun

theorem notifyFailed_disturbs {waiters : List Waiter} :
    (view s w).Disturbs (view { s with
      calls := s.calls.erase .failing, waiters := waiters } w.notifyFailed) := by
  have hcalls : ∀ call ∈ s.calls, call ≠ .failing → call ∈ s.calls.erase .failing :=
    fun call h hne => (List.mem_erase_of_ne hne).mpr h
  refine ⟨fun _ => .rfl, fun _ => .inl, ?_, fun _ => .inl, ?_⟩
  · rintro (_ | _ | _)
    · exact .inl rfl
    · exact .inl rfl
    · exact .inr rfl
  · rintro (_ | _ | _) _ hsignaling
    · exact .inl (hcalls _ hsignaling nofun)
    · exact .inl (hsignaling.imp (hcalls _ · nofun) (hcalls _ · nofun))
    · exact .inr rfl

theorem Returns.disturbs {other : Waiter} {waiters : List Waiter}
    {result : Except String Unit} {rest : FlowCredit} (h : Returns s other result rest) :
    (view s w).Disturbs (view { s with
      flows := Function.update s.flows other.flow rest, waiters := waiters } w) := by
  have hrest : rest.available ≤ (s.flows other.flow).available := by
    cases h with
    | taken _ htake =>
        have hrest := (FlowCredit.tryTake_eq_some_iff.mp htake).2
        omega
    | canceled | failed => exact Nat.le_refl _
  refine .of_others rfl rfl rfl ?_ fun i _ h => by cases i <;> exact h
  rintro (_ | _ | _) hready
  · by_cases hflow : w.flow = other.flow
    · simp only [view, hflow, Function.update_self] at hready ⊢
      exact .inl (hready.trans hrest)
    · simp only [view, Function.update_of_ne hflow] at hready
      exact .inl hready
  · exact .inl hready
  · exact .inl hready

theorem Inv.woken (h : Inv s) (wake : Waiter → Waiter) (hnext : s.next ≤ t.next)
    (hentries : ∀ id flow, t.flowCredits id = some flow → flow < t.next)
    (hwaiters : ∀ w ∈ t.waiters, ∃ w' ∈ s.waiters, w = wake w')
    (hflow : ∀ w, (wake w).flow = w.flow)
    (hstep : ∀ w ∈ s.waiters, (view s w).Disturbs (view t (wake w))) : Inv t where
  entries := hentries
  known w hw := by
    obtain ⟨w', hw', rfl⟩ := hwaiters w hw
    rw [hflow]
    exact Nat.lt_of_lt_of_le (h.known w' hw') hnext
  watched w hw := by
    obtain ⟨w', hw', rfl⟩ := hwaiters w hw
    exact (h.watched w' hw').disturbed (hstep w' hw')

theorem Inv.others (h : Inv s) (hnext : s.next ≤ t.next)
    (hentries : ∀ id flow, t.flowCredits id = some flow → flow < t.next)
    (hwaiters : t.waiters ⊆ s.waiters)
    (hstep : ∀ w ∈ s.waiters, (view s w).Disturbs (view t w)) : Inv t :=
  h.woken id hnext hentries (fun w hw => ⟨w, hwaiters hw, rfl⟩) (fun _ => rfl) hstep

theorem Inv.register (h : Inv s) :
    Inv (registerFlowStream supportsFlowControl s id).2 := by
  refine h.others ?_ ?_ ?_ fun w hw => registerFlowStream_disturbs (h.known w hw)
  all_goals
    unfold registerFlowStream
    split
  · exact Nat.le_succ _
  · exact le_rfl
  · intro other flow hentry
    by_cases hid : other = id
    · simp only [hid, Function.update_self, Option.some.injEq] at hentry
      exact hentry ▸ Nat.lt_succ_self _
    · simp only [Function.update_of_ne hid] at hentry
      exact Nat.lt_succ_of_lt (h.entries other flow hentry)
  · exact h.entries
  · exact List.Subset.refl _
  · exact List.Subset.refl _

theorem Inv.finishFlow (h : Inv s) :
    Inv { s with
      flowCredits := Function.update s.flowCredits id none
      calls := s.calls.erase (.finishing id) } := by
  refine h.others le_rfl ?_ (List.Subset.refl _) fun _ _ => finishFlow_disturbs
  intro other flow hentry
  by_cases hid : other = id
  · simp [hid] at hentry
  · simp only [Function.update_of_ne hid] at hentry
    exact h.entries other flow hentry

theorem Moves.flow_eq (h : Moves s w w') : w'.flow = w.flow := by
  cases h <;> rfl

theorem Inv.step (h : Inv s) (hstep : Step supportsFlowControl s a t) : Inv t := by
  cases hstep with
  | register => exact h.register
  | rejectUpdate | strayUpdate | acquireNothing | acquireTooMuch | acquireMissing => exact h
  | lookFlow =>
      exact h.others le_rfl h.entries (List.Subset.refl _) fun _ _ =>
        disturbs_of_calls (fun _ h _ _ => List.mem_cons_of_mem _ h) fun _ => .inl
  | @add flow bytes => exact h.others le_rfl h.entries (List.Subset.refl _) fun _ _ => add_disturbs
  | @rejectAdd flow bytes =>
      exact h.others le_rfl h.entries (List.Subset.refl _) fun _ _ =>
        disturbs_of_calls (fun call h hadding _ =>
          (List.mem_erase_of_ne (hadding flow bytes)).mpr h) fun _ => .inl
  | @notify flow =>
      refine h.woken (·.notifyFlow flow) le_rfl h.entries ?_ ?_ fun _ _ => notify_disturbs
      · intro w hw
        obtain ⟨w', hw', rfl⟩ := List.mem_map.mp hw
        exact ⟨w', hw', rfl⟩
      · intro w
        unfold Waiter.notifyFlow
        split <;> rfl
  | cancelLocal =>
      exact h.others le_rfl h.entries (List.Subset.refl _) fun _ _ => cancelLocal_disturbs
  | cancelFlow _ hflow =>
      exact h.others le_rfl h.entries (List.Subset.refl _) fun _ _ => cancelFlow_disturbs hflow
  | cancelNothing _ hflow =>
      exact h.others le_rfl h.entries (List.Subset.refl _) fun _ _ => cancelNothing_disturbs hflow
  | finish => exact h.others le_rfl h.entries (List.Subset.refl _) fun _ _ => finish_disturbs
  | finishFlow => exact h.finishFlow
  | close | writerEnds =>
      exact h.others le_rfl h.entries (List.Subset.refl _) fun _ _ => failing_disturbs
  | notifyFailed =>
      refine h.woken Waiter.notifyFailed le_rfl h.entries ?_ (fun _ => rfl) fun _ _ =>
        notifyFailed_disturbs
      intro w hw
      obtain ⟨w', hw', rfl⟩ := List.mem_map.mp hw
      exact ⟨w', hw', rfl⟩
  | @acquire id bytes flow amount hguard hflow =>
      refine ⟨h.entries, ?_, ?_⟩
      · exact List.forall_mem_cons.mpr ⟨h.entries id flow hflow, h.known⟩
      · refine List.forall_mem_cons.mpr ⟨.of_unchecked ?_ ?_, h.watched⟩ <;>
          exact fun i => by cases i <;> exact nofun
  | move hw hmove =>
      refine ⟨h.entries, hw.forall_mem h.known ?_, hw.forall_mem h.watched ?_⟩
      · exact hmove.flow_eq ▸ h.known _ hw.mem
      · exact hmove.watched (h.watched _ hw.mem)
  | returns hw hreturns =>
      exact h.others le_rfl h.entries List.erase_subset fun _ _ => hreturns.disturbs
  | drop =>
      exact h.others le_rfl h.entries List.erase_subset fun _ _ =>
        disturbs_of_calls (fun _ h _ _ => h) fun _ => .inl

theorem inv_of_reachable (h : (system supportsFlowControl).Reachable s) : Inv s := by
  refine h.invariant ?_ fun _ _ _ => Inv.step
  rintro s rfl
  exact inv_initial

/-- Whatever a suspended waiter is to be woken for, someone is about to notify it of. -/
theorem Inv.notified (h : Inv s) (hw : w ∈ s.waiters) (hasleep : w.Asleep) {i : Condition}
    (hready : (view s w).ready i) : (view s w).signaling i := by
  obtain ⟨hstage, hcredit, hfailed⟩ := hasleep
  refine (h.watched w hw).signaling ?_ ?_ hready
  · simp [view, hstage, Stage.checked]
  · cases i with
    | credit | canceled => exact hcredit
    | closed => exact hfailed

/-- A waiter that has found its stream active before it was canceled is woken, or someone is
about to wake it. -/
def Called (s : State) (w : Waiter) : Prop :=
  w.stage.checked .canceled = true → s.canceled w.streamId = true →
    w.creditReady = .completed ∨ .canceling w.streamId ∈ s.calls ∨ .notifying w.flow ∈ s.calls

theorem Called.others (h : Called s w) (hcanceled : t.canceled w.streamId = s.canceled w.streamId)
    (hcalls : ∀ call ∈ s.calls, (∀ flow bytes, call ≠ .adding flow bytes) →
      (∀ id, call ≠ .finishing id) → call ≠ .failing → call ∈ t.calls) : Called t w := by
  intro hchecked hready
  rw [hcanceled] at hready
  exact (h hchecked hready).imp_right
    (Or.imp (hcalls _ · nofun nofun nofun) (hcalls _ · nofun nofun nofun))

theorem Called.cancelLocal (h : Called s w) :
    Called { s with
      canceled := Function.update s.canceled id true, calls := .canceling id :: s.calls } w := by
  by_cases hid : w.streamId = id
  · exact fun _ _ => .inr (.inl (hid ▸ List.mem_cons_self))
  · exact h.others (Function.update_of_ne hid _ _) fun _ hcall _ _ _ =>
      List.mem_cons_of_mem _ hcall

theorem Called.looksUp (h : Called s w) (hw : w ∈ s.waiters) (hfinds : (Action.looksUp id).finds s)
    {calls : List Call}
    (hcalls : ∀ call ∈ s.calls, call ≠ .canceling id → call ∈ calls)
    (hfound : ∀ flow, s.flowCredits id = some flow → .notifying flow ∈ calls) :
    Called { s with calls := calls } w := by
  intro hchecked hready
  rcases h hchecked hready with hwoken | hcanceling | hnotifying
  · exact .inl hwoken
  · by_cases hid : w.streamId = id
    · by_cases hwoken : w.creditReady = .completed
      · exact .inl hwoken
      · exact .inr (.inr (hfound _ (hfinds w hw hid hchecked hwoken)))
    · exact .inr (.inl (hcalls _ hcanceling (by simpa using hid)))
  · exact .inr (.inr (hcalls _ hnotifying nofun))

theorem Called.finish (h : Called s w) :
    Called { s with
      canceled := Function.update s.canceled id false
      calls := .finishing id :: s.calls } w := by
  by_cases hid : w.streamId = id
  · intro _ hready
    simp [hid] at hready
  · exact h.others (Function.update_of_ne hid _ _) fun _ hcall _ _ _ =>
      List.mem_cons_of_mem _ hcall

theorem Called.notify (h : Called s w) (hw : (view s w).Watched) {waiters : List Waiter} :
    Called { s with calls := s.calls.erase (.notifying flow), waiters := waiters }
      (w.notifyFlow flow) := by
  unfold Waiter.notifyFlow
  split
  · intro hchecked _
    have hcreated := hw.created .canceled (hw.ordered .canceled hchecked)
    exact .inl (Notified.wake_of_ne_absent hcreated)
  · rename_i hne
    intro hchecked hready
    refine (h hchecked hready).imp_right (Or.imp (fun hcall => ?_) fun hcall => ?_)
    · exact (List.mem_erase_of_ne (by simp)).mpr hcall
    · exact (List.mem_erase_of_ne (by simpa using hne)).mpr hcall

end Invariant

/-! A pull on stream 1 waits for its first credit. -/

def starved : Waiter := ⟨1, ⟨4, by decide, by decide⟩, 0, .selecting, .waiting, .waiting⟩

end SideWire.MuxCreditWait
