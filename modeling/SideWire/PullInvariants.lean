import SideWire.PullTransfer

namespace SideWire.PullTransfer

open SideWire.TransitionSystem
open SideWire.CreditWindow
open SideWire.ByteString
open SideWire.FlowControl

/-- The route stands and the connection is open. -/
structure Open (s : State) : Prop where
  hostRoute : s.hostRoute = true
  connected : s.connected = true

theorem Open.back {plan : Plan} {s t : State} {a : Actor} (h : Step plan s a t)
    (ht : Open t) : Open s := by
  obtain ⟨hroute, hconnected⟩ := ht
  cases h with
  | deliverFull | dropStream => simp at hroute
  | rejectUpdate | close => simp at hconnected
  | _ => exact ⟨hroute, hconnected⟩

def DevicePhase.result : DevicePhase → Option (Except HandlerError Unit)
  | .returning result | .reporting result | .finishing result | .ended result =>
      some result
  | _ => none

@[simp] theorem DevicePhase.result_wake (phase : DevicePhase) :
    phase.wake.result = phase.result := by
  cases phase <;> rfl

/-- No cancellation is set, spawned or under way. -/
structure Untroubled (s : State) : Prop where
  hostCancel : s.hostCancel = false
  hostCanceling : s.hostCanceling = 0
  deviceCanceled : s.deviceCanceled = false
  cancelWatch : s.cancelWatch = false
  toDevice : .streamCancel ∉ s.toDevice
  cause : ∀ why, s.device.result = some (.error why) → why = .start ∨ why = .read

theorem Untroubled.step {plan : Plan} {s t : State} {a : Actor}
    (hs : Open s → Untroubled s) (h : Step plan s a t) (ht : Open t) : Untroubled t := by
  obtain ⟨hcancel, hcanceling, hcanceled, hwatch, hwire, hcause⟩ := hs (ht.back h)
  cases h with
  | openFails =>
      refine ⟨hcancel, hcanceling, hcanceled, hwatch, hwire, ?_⟩
      simp [DevicePhase.result]
  | readFails =>
      refine ⟨hcancel, hcanceling, hcanceled, hwatch, hwire, ?_⟩
      simp [DevicePhase.result]
  | sendMeta | sentOk | readChunk | readEof | takeCredit | park | resume | sendChunk
  | sendEnd =>
      exact ⟨hcancel, hcanceling, hcanceled, hwatch, hwire, by simp [DevicePhase.result]⟩
  | readCanceled _ hcanceled' => simp [hwatch] at hcanceled'
  | sendEndCanceled _ _ hcanceled' => simp [hcanceled] at hcanceled'
  | sendCanceled _ hcanceled' => simp [hcanceled] at hcanceled'
  | sendStopped _ hconnected | serveEnds hconnected =>
      exact absurd ht.connected (by simp [hconnected])
  | unregister hphase | reportOk hphase | reportError hphase | reportNothing hphase =>
      rw [hphase] at hcause
      exact ⟨hcancel, hcanceling, hcanceled, hwatch, hwire, hcause⟩
  | finish hphase =>
      rw [hphase] at hcause
      exact ⟨hcancel, hcanceling, rfl, hwatch, hwire, hcause⟩
  | deliverUpdate _ hhead | dropUpdate _ hhead =>
      simp only [hhead, List.mem_cons, not_or] at hwire
      exact ⟨hcancel, hcanceling, hcanceled, hwatch, hwire.2, by simpa using hcause⟩
  | rejectUpdate | close => exact absurd ht.connected (by simp)
  | serveCancel _ hhead => simp [hhead] at hwire
  | deliverFull | dropStream => exact absurd ht.hostRoute (by simp)
  | sendHostCancel _ hpending => omega
  | grant _ _ hupdate | accountReport _ _ _ hupdate =>
      have hnot := streamCancel_not_mem_windowUpdate hupdate
      exact ⟨hcancel, hcanceling, hcanceled, hwatch, by simp [hwire, hnot], hcause⟩
  | _ => exact ⟨hcancel, hcanceling, hcanceled, hwatch, hwire, hcause⟩

theorem untroubled_of_reachable {plan : Plan} {s : State}
    (h : (system plan).Reachable s) (hopen : Open s) : Untroubled s := by
  refine h.invariant (P := fun u => Open u → Untroubled u) ?_ ?_ hopen
  · rintro u rfl -
    exact ⟨rfl, rfl, rfl, rfl, by simp [State.initial], by
      simp [State.initial, DevicePhase.result]⟩
  · intro u a v hu huv
    exact Untroubled.step hu huv

/-- The frames of a pull, whose last one tells how reading ended. -/
def Plan.last (plan : Plan) : StreamFrame := if plan.readFails then .error else .fileEnd

def Plan.frames (plan : Plan) (size : Nat) : List StreamFrame :=
  .fileMeta size :: plan.reads.framesWith plan.last

theorem Plan.last_ne_fileChunk (plan : Plan) (chunk : Bytes) :
    plan.last ≠ .fileChunk chunk := by
  unfold Plan.last
  split <;> simp

theorem Plan.chunkBytes_last (plan : Plan) : plan.last.chunkBytes = 0 := by
  unfold Plan.last
  split <;> rfl

/-- What the handler has sent in each phase, unless it was canceled. -/
def DevicePhase.Emits (plan : Plan) (size : Nat) (unread : List Bytes)
    (emitted : List StreamFrame) :
    DevicePhase → Prop
  | .opening => emitted = [] ∧ unread = plan.reads.chunks
  | .sent | .reading => emitted ++ (chunksOf unread ++ [plan.last]) = plan.frames size
  | .acquiring chunk | .parked chunk _ | .sending chunk =>
      emitted ++ (chunksOf (chunk :: unread) ++ [plan.last]) = plan.frames size
  | .ending => emitted ++ [.fileEnd] = plan.frames size
  | .returning result | .reporting result => match result with
      | .ok () => emitted = plan.frames size
      | .error .start => emitted = []
      | .error .read => emitted ++ [.error] = plan.frames size
      | _ => True
  | .finishing result | .ended result => match result with
      | .ok () => emitted = plan.frames size
      | .error .start => emitted = [] ∨ emitted = [.error]
      | .error .read => emitted <+: plan.frames size
      | _ => True

@[simp] theorem DevicePhase.emits_wake {plan : Plan} {size : Nat}
    {unread : List Bytes} {emitted : List StreamFrame} {phase : DevicePhase} :
    phase.wake.Emits plan size unread emitted ↔ phase.Emits plan size unread emitted := by
  cases phase <;> rfl

/-- The frames sent so far, wherever they are. -/
structure Sent (plan : Plan) (s : State) : Prop where
  split : s.popped ++ s.hostQueue ++ s.lost ++ s.toHost = s.emitted
  kept : s.hostRoute = true → s.lost = []
  emits : s.device.Emits plan s.declared s.unread s.emitted

theorem Sent.step {plan : Plan} {s t : State} {a : Actor} (hs : Sent plan s)
    (h : Step plan s a t) : Sent plan t := by
  obtain ⟨hsplit, hkept, hemits⟩ := hs
  cases h with
  | sendMeta hphase =>
      rw [hphase] at hemits
      obtain ⟨hnone, hunread⟩ := hemits
      refine ⟨by simp [← hsplit], hkept, ?_⟩
      simp [DevicePhase.Emits, hnone, hunread, Plan.frames, FileReads.framesWith]
  | sentOk hphase | park hphase | resume hphase | takeCredit hphase =>
      rw [hphase] at hemits
      exact ⟨hsplit, hkept, hemits⟩
  | readChunk hphase _ hunread =>
      rw [hphase, hunread] at hemits
      exact ⟨hsplit, hkept, hemits⟩
  | readEof hphase _ hunread hok =>
      rw [hphase, hunread] at hemits
      refine ⟨hsplit, hkept, ?_⟩
      simpa [DevicePhase.Emits, Plan.last, hok, chunksOf] using hemits
  | readFails hphase _ hunread hfails =>
      rw [hphase, hunread] at hemits
      refine ⟨hsplit, hkept, ?_⟩
      simpa [DevicePhase.Emits, Plan.last, hfails, chunksOf] using hemits
  | sendChunk hphase =>
      rw [hphase] at hemits
      refine ⟨by simp [← hsplit], hkept, ?_⟩
      simpa [DevicePhase.Emits, chunksOf] using hemits
  | sendEnd hphase =>
      rw [hphase] at hemits
      exact ⟨by simp [← hsplit], hkept, hemits⟩
  | sendEndCanceled => exact ⟨by simp [← hsplit], hkept, trivial⟩
  | readCanceled | sendCanceled | sendStopped => exact ⟨hsplit, hkept, trivial⟩
  | openFails hphase =>
      rw [hphase] at hemits
      exact ⟨hsplit, hkept, hemits.1⟩
  | unregister hphase | reportOk hphase | finish hphase =>
      rw [hphase] at hemits
      exact ⟨hsplit, hkept, hemits⟩
  | @reportError why hphase =>
      rw [hphase] at hemits
      refine ⟨by simp [← hsplit], hkept, ?_⟩
      cases why with
      | start => exact .inr (by simp [show s.emitted = [] from hemits])
      | read =>
          have heq : s.emitted ++ [.error] = plan.frames s.declared := hemits
          exact heq ▸ List.prefix_rfl
      | _ => trivial
  | @reportNothing why hphase =>
      rw [hphase] at hemits
      refine ⟨hsplit, hkept, ?_⟩
      cases why with
      | start => exact .inl hemits
      | read =>
          have heq : s.emitted ++ [.error] = plan.frames s.declared := hemits
          exact ⟨_, heq⟩
      | _ => trivial
  | deliverUpdate | rejectUpdate | serveCancel | serveEnds | close =>
      exact ⟨hsplit, hkept, by simpa using hemits⟩
  | deliver _ hwire hroute =>
      refine ⟨?_, hkept, hemits⟩
      rw [hwire] at hsplit
      simpa [hkept hroute] using hsplit
  | deliverFull _ hwire =>
      refine ⟨?_, by simp, hemits⟩
      rw [hwire] at hsplit
      simpa using hsplit
  | deliverStray _ hwire hroute =>
      refine ⟨?_, by simp [hroute], hemits⟩
      rw [hwire] at hsplit
      simpa using hsplit
  | recvMeta _ _ hqueue | recv _ _ hqueue =>
      refine ⟨?_, hkept, hemits⟩
      rw [hqueue] at hsplit
      simpa using hsplit
  | dropStream => exact ⟨hsplit, by simp, hemits⟩
  | _ => exact ⟨hsplit, hkept, hemits⟩

theorem sent_of_reachable {plan : Plan} {s : State}
    (h : (system plan).Reachable s) : Sent plan s := by
  refine h.invariant (P := Sent plan) ?_ (fun _ _ _ hs hstep => hs.step hstep)
  rintro s rfl
  exact ⟨rfl, fun _ => rfl, rfl, rfl⟩

/-- Credit taken for a chunk that is not on the wire yet. -/
def DevicePhase.held : DevicePhase → Nat
  | .sending chunk => chunk.length
  | _ => 0

@[simp] theorem DevicePhase.held_wake (phase : DevicePhase) :
    phase.wake.held = phase.held := by
  cases phase <;> rfl

/-- The handler has neither been canceled nor stopped. -/
def DevicePhase.steady (phase : DevicePhase) : Prop :=
  ∀ why, phase.result = some (.error why) → why = .start ∨ why = .read

@[simp] theorem DevicePhase.steady_wake {phase : DevicePhase} :
    phase.wake.steady ↔ phase.steady := by
  simp [DevicePhase.steady]

/-- What the handler has taken covers what it has put on the wire. -/
structure Spent (s : State) : Prop where
  ledger : s.granted = s.credit.available + s.taken
  covers : bytesOf s.emitted + s.device.held ≤ s.taken
  exact : s.device.steady → bytesOf s.emitted + s.device.held = s.taken

theorem Spent.step {plan : Plan} {s t : State} {a : Actor} (hs : Spent s)
    (h : Step plan s a t) : Spent t := by
  obtain ⟨hledger, hcovers, hexact⟩ := hs
  have hrunning : s.device.result = none → s.device.steady := by
    intro hnone why hwhy
    simp [hnone] at hwhy
  cases h with
  | sendMeta hphase | sendEnd hphase =>
      have hbefore := hexact (hrunning (by rw [hphase]; rfl))
      simp only [hphase, DevicePhase.held] at hbefore
      refine ⟨hledger, ?_, fun _ => ?_⟩
      · simp [DevicePhase.held, StreamFrame.chunkBytes, hbefore]
      · simp [DevicePhase.held, StreamFrame.chunkBytes, hbefore]
  | sendEndCanceled hphase =>
      simp only [hphase, DevicePhase.held] at hcovers
      refine ⟨hledger, by simpa [DevicePhase.held, StreamFrame.chunkBytes] using hcovers, ?_⟩
      intro hsteady
      simpa using hsteady _ rfl
  | openFails hphase | readFails hphase | sentOk hphase | readChunk hphase
  | readEof hphase | park hphase | resume hphase =>
      have hbefore := hexact (hrunning (by rw [hphase]; rfl))
      simp only [hphase, DevicePhase.held] at hbefore
      exact ⟨hledger, Nat.le_of_eq hbefore, fun _ => hbefore⟩
  | readCanceled | sendCanceled | sendStopped =>
      refine ⟨hledger, ?_, ?_⟩
      · simp only [DevicePhase.held]
        omega
      · intro hsteady
        simpa using hsteady _ rfl
  | @takeCredit chunk credit hphase _ _ htake =>
      obtain ⟨hle, hrest⟩ := FlowCredit.tryTake_eq_some_iff.mp htake
      have hbefore := hexact (hrunning (by rw [hphase]; rfl))
      simp only [hphase, DevicePhase.held] at hbefore
      refine ⟨?_, ?_, fun _ => ?_⟩
      · simp only
        omega
      · simp only [DevicePhase.held]
        omega
      · simp only [DevicePhase.held]
        omega
  | sendChunk hphase =>
      have hbefore := hexact (hrunning (by rw [hphase]; rfl))
      simp only [hphase, DevicePhase.held] at hbefore
      refine ⟨hledger, ?_, fun _ => ?_⟩
      · simp [DevicePhase.held, StreamFrame.chunkBytes, hbefore]
      · simp [DevicePhase.held, StreamFrame.chunkBytes, hbefore]
  | unregister hphase | reportOk hphase | reportNothing hphase | finish hphase =>
      rw [hphase] at hcovers hexact
      exact ⟨hledger, hcovers, hexact⟩
  | reportError hphase =>
      rw [hphase] at hcovers hexact
      refine ⟨hledger, ?_, fun hsteady => ?_⟩
      · simpa [DevicePhase.held, StreamFrame.chunkBytes] using hcovers
      · simpa [DevicePhase.held, StreamFrame.chunkBytes] using hexact hsteady
  | @deliverUpdate bytes rest credit _ _ _ hadd =>
      obtain ⟨-, -, hsum⟩ := FlowCredit.add_eq_ok_iff.mp hadd
      refine ⟨?_, by simpa using hcovers, fun hsteady => ?_⟩
      · simp only
        omega
      · simpa using hexact (by simpa using hsteady)
  | rejectUpdate | serveCancel | serveEnds | close =>
      refine ⟨hledger, by simpa using hcovers, fun hsteady => ?_⟩
      simpa using hexact (by simpa using hsteady)
  | _ => exact ⟨hledger, hcovers, hexact⟩

theorem spent_of_reachable {plan : Plan} {s : State}
    (h : (system plan).Reachable s) : Spent s := by
  refine h.invariant (P := Spent) ?_ (fun _ _ _ hs hstep => hs.step hstep)
  rintro s rfl
  exact ⟨rfl, Nat.le_refl _, fun _ => rfl⟩

/-- What the host has popped, written and accounted for in each phase. -/
def HostPhase.Agrees (expected : Nat) (popped : List StreamFrame) (written : List Bytes)
    (accounted : List Nat) : HostPhase → Prop
  | .awaitingMeta => popped = [] ∧ written = [] ∧ accounted = []
  | .creating | .granting => popped = [.fileMeta expected] ∧ written = [] ∧ accounted = []
  | .sent | .receiving =>
      popped = .fileMeta expected :: chunksOf written ∧ accounted = lengthsOf written
  | .writing chunk => popped = .fileMeta expected :: chunksOf (written ++ [chunk]) ∧
      accounted = lengthsOf written
  | .accounting bytes => popped = .fileMeta expected :: chunksOf written ∧
      accounted ++ [bytes] = lengthsOf written
  | .flushing => popped = .fileMeta expected :: (chunksOf written ++ [.fileEnd]) ∧
      accounted = lengthsOf written
  | _ => chunksOf written <+: popped.tail ∧ accounted <+: lengthsOf written

theorem HostPhase.Agrees.prefixes {expected : Nat} {popped : List StreamFrame}
    {written : List Bytes} {accounted : List Nat} {phase : HostPhase}
    (h : phase.Agrees expected popped written accounted) :
    chunksOf written <+: popped.tail ∧ accounted <+: lengthsOf written := by
  cases phase with
  | awaitingMeta | creating | granting =>
      obtain ⟨rfl, rfl, rfl⟩ := h
      exact ⟨List.prefix_rfl, List.prefix_rfl⟩
  | sent | receiving =>
      obtain ⟨rfl, rfl⟩ := h
      exact ⟨List.prefix_rfl, List.prefix_rfl⟩
  | writing chunk =>
      obtain ⟨rfl, rfl⟩ := h
      exact ⟨by simp [chunksOf], List.prefix_rfl⟩
  | flushing =>
      obtain ⟨rfl, rfl⟩ := h
      exact ⟨List.prefix_append _ _, List.prefix_rfl⟩
  | accounting bytes =>
      obtain ⟨rfl, hacc⟩ := h
      exact ⟨List.prefix_rfl, hacc ▸ List.prefix_append _ _⟩
  | succeeded | failed | gone => exact h

/-- Whether a running host has granted the window. -/
def HostPhase.granted : HostPhase → Option Bool
  | .awaitingMeta | .creating | .granting => some false
  | .sent | .receiving | .writing _ | .accounting _ | .flushing => some true
  | _ => none

/-- The host's side: what it accounted for, and whether it granted yet. -/
structure Handled (plan : Plan) (s : State) : Prop where
  agrees : s.host.Agrees s.expected s.popped s.written s.accounted
  consumed : s.windowConsumed = unreported fileWindow s.accounted
  opened : ∀ b, s.host.granted = some b → s.opened = b
  within : ∀ k, plan.failsAt = some k → s.written.length ≤ k
  popped : s.opened = true → s.popped ≠ []

theorem Handled.step {plan : Plan} {s t : State} {a : Actor}
    (hs : Handled plan s) (h : Step plan s a t) : Handled plan t := by
  obtain ⟨hagrees, hconsumed, hopened, hwithin, hsome⟩ := hs
  have hprefixes := hagrees.prefixes
  cases h with
  | @recvMeta frame queue hphase =>
      rw [hphase] at hagrees
      obtain ⟨hpopped, hwritten, haccounted⟩ := hagrees
      have hclosed := hopened false (by rw [hphase]; rfl)
      refine ⟨?_, hconsumed, ?_, hwithin, by simp⟩
      · cases frame <;>
          simp [HostPhase.onMeta, HostPhase.Agrees, StreamFrame.metaSize, hpopped, hwritten,
            haccounted, chunksOf]
      · cases frame <;> simp [HostPhase.onMeta, HostPhase.granted, hclosed]
  | createFile hphase =>
      rw [hphase] at hagrees
      exact ⟨hagrees, hconsumed, fun b hb => hopened b (by rwa [hphase]), hwithin, hsome⟩
  | createFails | writeFails | accountFails | flush | sizeMismatch | flushFails | hostCanceled
  | hostClosed | dropStream =>
      exact ⟨hprefixes, hconsumed, by simp [HostPhase.granted], hwithin, hsome⟩
  | grant hphase =>
      rw [hphase] at hagrees
      obtain ⟨hpopped, hwritten, haccounted⟩ := hagrees
      refine ⟨?_, hconsumed, by simp [HostPhase.granted], hwithin, by simp [hpopped]⟩
      exact ⟨by simp [hpopped, hwritten, chunksOf], by simp [haccounted, hwritten, lengthsOf]⟩
  | updateSent hphase =>
      rw [hphase] at hagrees
      exact ⟨hagrees, hconsumed, fun b hb => hopened b (by rwa [hphase]), hwithin, hsome⟩
  | @recv frame queue hphase =>
      rw [hphase] at hagrees
      obtain ⟨hpopped, haccounted⟩ := hagrees
      have htrue := hopened true (by rw [hphase]; rfl)
      refine ⟨?_, hconsumed, ?_, hwithin, by simp⟩
      · cases frame <;>
          simp [HostPhase.onFrame, HostPhase.Agrees, hpopped, haccounted, chunksOf]
      · cases frame <;> simp [HostPhase.onFrame, HostPhase.granted, htrue]
  | @write chunk hphase hok =>
      rw [hphase] at hagrees
      obtain ⟨hpopped, haccounted⟩ := hagrees
      refine ⟨⟨hpopped, ?_⟩, hconsumed, fun b hb => hopened b (by rwa [hphase]), ?_, hsome⟩
      · simp [haccounted, lengthsOf]
      · intro k hk
        have hle := hwithin k hk
        have hne : s.written.length ≠ k := fun heq => hok (heq ▸ hk)
        simp only [List.length_append, List.length_singleton]
        omega
  | @accountOnly bytes consumed hphase haccount
  | @accountReport bytes consumed _ _ hphase _ haccount =>
      rw [hphase] at hagrees
      obtain ⟨hpopped, haccounted⟩ := hagrees
      refine ⟨⟨hpopped, haccounted⟩, ?_, fun b hb => hopened b (by rwa [hphase]), hwithin, hsome⟩
      rw [unreported_concat, ← hconsumed, ← accountPullWindow_eq, haccount]
  | _ => exact ⟨hagrees, hconsumed, hopened, hwithin, hsome⟩

theorem handled_of_reachable {plan : Plan} {s : State}
    (h : (system plan).Reachable s) : Handled plan s := by
  refine h.invariant (P := Handled plan) ?_ (fun _ _ _ hs hstep => hs.step hstep)
  rintro s rfl
  exact ⟨⟨rfl, rfl, rfl⟩, rfl, fun _ hb => Option.some.inj hb, fun _ _ => Nat.zero_le _,
    by simp [State.initial]⟩

theorem popped_le_taken {plan : Plan} {s : State} (hm : Sent plan s) (hs : Spent s) :
    bytesOf s.popped ≤ s.taken := by
  have hsplit := congrArg bytesOf hm.split
  have hcovers := hs.covers
  simp only [bytesOf_append] at hsplit
  omega

theorem Handled.accounted_le {plan : Plan} {s : State} (hh : Handled plan s) :
    s.accounted.sum ≤ bytesOf s.popped := by
  obtain ⟨hwritten, haccounted⟩ := hh.agrees.prefixes
  have htail : bytesOf s.popped.tail ≤ bytesOf s.popped := by
    cases s.popped <;> simp
  calc s.accounted.sum ≤ (lengthsOf s.written).sum := sum_le_of_prefix haccounted
    _ = bytesOf (chunksOf s.written) := (bytesOf_chunksOf _).symm
    _ ≤ bytesOf s.popped.tail := bytesOf_le_of_prefix hwritten
    _ ≤ bytesOf s.popped := htail

theorem Handled.accounting_le {plan : Plan} {s : State} (hh : Handled plan s)
    {bytes : Nat} (hphase : s.host = .accounting bytes) :
    s.accounted.sum + bytes ≤ bytesOf s.popped := by
  have hagrees := hh.agrees
  rw [hphase] at hagrees
  obtain ⟨hpopped, haccounted⟩ := hagrees
  rw [hpopped, bytesOf_cons, bytesOf_chunksOf, ← haccounted]
  simp

/-- The credit ledger that a pull keeps. -/
def State.ledger (s : State) : Ledger where
  opened := s.opened
  intact := s.registered && s.connected
  credit := s.credit.available
  granting := grantsOf s.toDevice
  flight := s.taken - s.accounted.sum
  pending := s.windowConsumed

theorem State.ledger_lose {s t : State} (bytes : Nat)
    (hbytes : bytes ≤ grantsOf s.toDevice)
    (ht : t.ledger = { s.ledger with
      intact := false, granting := s.ledger.granting - bytes }) :
    (Ledger.system fileWindow).Leads s.ledger t.ledger := by
  rw [ht]
  exact .single (a := ()) (.lose s.ledger bytes hbytes)

theorem State.ledger_consume {s t : State} (bytes : Nat)
    (hbytes : bytes ≤ s.ledger.flight)
    (ht : t.ledger = { s.ledger with
      flight := s.ledger.flight - bytes
      pending := (account fileWindow s.ledger.pending bytes).1
      granting := s.ledger.granting +
        (account fileWindow s.ledger.pending bytes).2.getD 0 }) :
    (Ledger.system fileWindow).Leads s.ledger t.ledger := by
  rw [ht]
  exact .single (a := ()) (.consume s.ledger bytes hbytes)

theorem ledger_leads {plan : Plan} {s t : State} {a : Actor} (hm : Sent plan s)
    (hs : Spent s) (hh : Handled plan s) (h : Step plan s a t) :
    (Ledger.system fileWindow).Leads s.ledger t.ledger := by
  have hpopped := popped_le_taken hm hs
  have haccounted := hh.accounted_le
  have hsame : t.ledger = s.ledger →
      (Ledger.system fileWindow).Leads s.ledger t.ledger := by
    intro heq
    rw [heq]
    exact .refl
  cases h with
  | @takeCredit chunk credit _ _ _ htake =>
      obtain ⟨hle, hrest⟩ := FlowCredit.tryTake_eq_some_iff.mp htake
      have ht : s.taken + chunk.length - s.accounted.sum =
          s.taken - s.accounted.sum + chunk.length := by omega
      simp only [State.ledger, hrest, ht]
      exact .single (a := ()) (.take s.ledger chunk.length hle)
  | finish | close =>
      exact State.ledger_lose 0 (Nat.zero_le _) (by simp [State.ledger])
  | @deliverUpdate bytes rest credit _ hwire _ hadd =>
      obtain ⟨-, -, hsum⟩ := FlowCredit.add_eq_ok_iff.mp hadd
      have hbytes : bytes ≤ s.ledger.granting := by
        simp [State.ledger, hwire, StreamFrame.grantBytes]
      have hstep := Ledger.Step.receive (w := fileWindow) s.ledger bytes hbytes
      simp only [State.ledger, hwire, grantsOf_cons, StreamFrame.grantBytes,
        Nat.add_sub_cancel_left] at hstep
      simp only [State.ledger, hwire, grantsOf_cons, StreamFrame.grantBytes, hsum]
      exact .single hstep
  | @rejectUpdate bytes rest message _ hwire =>
      refine State.ledger_lose bytes ?_ ?_
      · simp [hwire, StreamFrame.grantBytes]
      · simp [State.ledger, hwire, StreamFrame.grantBytes]
  | @dropUpdate bytes rest _ hwire hregistered =>
      refine State.ledger_lose bytes ?_ ?_
      · simp [hwire, StreamFrame.grantBytes]
      · simp [State.ledger, hwire, hregistered, StreamFrame.grantBytes]
  | serveCancel _ hwire =>
      exact hsame (by simp [State.ledger, hwire, StreamFrame.grantBytes])
  | sendHostCancel => exact hsame (by simp [State.ledger, StreamFrame.grantBytes])
  | @grant update hphase _ hupdate =>
      have hunopened := hh.opened false (by rw [hphase]; rfl)
      have hstep := Ledger.Step.openWindow (w := fileWindow) s.ledger hunopened
      simp only [State.ledger, grantsOf_append, grantsOf_windowUpdate hupdate]
      exact .single hstep
  | @accountOnly bytes consumed hphase haccount =>
      have hresult := (accountPullWindow_eq _ _).symm.trans haccount
      have hle := hh.accounting_le hphase
      refine State.ledger_consume bytes ?_ ?_
      · simp only [State.ledger]
        omega
      · simp [State.ledger, hresult, Nat.sub_sub]
  | @accountReport bytes consumed batch update hphase _ haccount hupdate =>
      have hresult := (accountPullWindow_eq _ _).symm.trans haccount
      have hle := hh.accounting_le hphase
      refine State.ledger_consume bytes ?_ ?_
      · simp only [State.ledger]
        omega
      · simp [State.ledger, hresult, Nat.sub_sub, grantsOf_windowUpdate hupdate]
  | _ => exact hsame rfl

/-- A pull refines the credit-window protocol. -/
theorem ledger_of_reachable {plan : Plan} {s : State}
    (h : (system plan).Reachable s) :
    (Ledger.system fileWindow).Reachable s.ledger := by
  refine h.simulate (N := Ledger.system fileWindow) State.ledger
    (P := fun u => Sent plan u ∧ Spent u ∧ Handled plan u) ?_ ?_ ?_
  · intro u hu
    exact ⟨sent_of_reachable hu, spent_of_reachable hu, handled_of_reachable hu⟩
  · rintro u rfl
    rfl
  · rintro u a v ⟨hm, hs, hh⟩ huv
    exact ledger_leads hm hs hh huv

end SideWire.PullTransfer
