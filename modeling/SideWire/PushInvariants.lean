import SideWire.PushTransfer

namespace SideWire.PushTransfer

open SideWire.TransitionSystem
open SideWire.CreditWindow
open SideWire.ByteString
open SideWire.FlowControl

/-- The frames that `unread` stands for, with the end marker behind them. -/
def framesOf (unread : List Bytes) : List StreamFrame :=
  chunksOf unread ++ [.fileEnd]

/-- The frames a running host has still to send. -/
def HostPhase.toSend (unread : List Bytes) : HostPhase → Option (List StreamFrame)
  | .awaitingReady | .reading | .sent false | .checking => some (framesOf unread)
  | .acquiring chunk | .parked chunk _ | .sending chunk =>
      some (.fileChunk chunk :: framesOf unread)
  | .ending => some [.fileEnd]
  | .sent true | .awaitingDone | .succeeded => some []
  | .failed _ | .gone => none

/-- `remote_push` is running or has succeeded. -/
def HostPhase.live : HostPhase → Bool
  | .failed _ | .gone => false
  | _ => true

/-- Credit taken for a chunk that is not on the wire yet. -/
def HostPhase.held : HostPhase → Nat
  | .sending chunk => chunk.length
  | _ => 0

@[simp] theorem HostPhase.toSend_wake (unread : List Bytes) (phase : HostPhase) :
    phase.wake.toSend unread = phase.toSend unread := by
  rcases phase with _ | _ | _ | _ | _ | (_ | _) | _ | _ | _ | _ | _ | _ <;> rfl

@[simp] theorem HostPhase.held_wake (phase : HostPhase) :
    phase.wake.held = phase.held := by
  cases phase <;> rfl

@[simp] theorem HostPhase.live_wake (phase : HostPhase) :
    phase.wake.live = phase.live := by
  cases phase <;> rfl

theorem HostPhase.onReady_cases (frame : StreamFrame) :
    ((∃ size, frame = .fileMeta size) ∧ HostPhase.onReady frame = .reading) ∨
      ∃ why, HostPhase.onReady frame = .failed why := by
  cases frame <;> simp [HostPhase.onReady]

theorem HostPhase.onUpload_cases (frame : StreamFrame) :
    ∃ why, HostPhase.onUpload frame = .failed why := by
  cases frame <;> simp [HostPhase.onUpload]

theorem HostPhase.onDone_cases (frame : StreamFrame) :
    (frame = .fileEnd ∧ HostPhase.onDone frame = .succeeded) ∨
      ∃ why, HostPhase.onDone frame = .failed why := by
  cases frame <;> simp [HostPhase.onDone]

/-- Every frame is in one place, and all places together keep the order. -/
structure Ordered (plan : Plan) (s : State) : Prop where
  frames : s.popped ++ s.inbox ++ s.unserved ++ s.toDevice.filter (·.isData) ++
    s.unsent = plan.reads.frames
  unsent : ∀ l, s.host.toSend s.unread = some l → s.unsent = l
  served : s.routed = true → s.unserved = []

theorem Ordered.step {plan : Plan} {s t : State} {a : Actor}
    (hs : Ordered plan s) (h : Step plan s a t) : Ordered plan t := by
  obtain ⟨hframes, hunsent, hserved⟩ := hs
  cases h with
  | @recvReady frame queue hphase =>
      refine ⟨hframes, ?_, hserved⟩
      rcases HostPhase.onReady_cases frame with ⟨-, hnext⟩ | ⟨why, hnext⟩
      · simp only [hnext]
        simpa [hphase, HostPhase.toSend] using hunsent
      · simp [hnext, HostPhase.toSend]
  | @readChunk chunk rest hphase hunread =>
      refine ⟨hframes, ?_, hserved⟩
      simpa [hphase, hunread, HostPhase.toSend, framesOf, chunksOf] using hunsent
  | readEof hphase hunread =>
      refine ⟨hframes, ?_, hserved⟩
      simpa [hphase, hunread, HostPhase.toSend, framesOf, chunksOf] using hunsent
  | takeCredit hphase | park hphase | resume hphase | sentChunk hphase
  | sentEnd hphase | tryRecvEmpty hphase =>
      refine ⟨hframes, ?_, hserved⟩
      simpa [hphase, HostPhase.toSend] using hunsent
  | @sendChunk chunk hphase | sendEnd hphase =>
      have hhead := hunsent _ (by rw [hphase]; rfl)
      rw [hhead] at hframes
      refine ⟨?_, ?_, hserved⟩
      · simpa [hhead, List.filter_append, StreamFrame.isData] using hframes
      · simp [hhead, HostPhase.toSend]
  | @tryRecv frame queue hphase =>
      obtain ⟨why, hnext⟩ := HostPhase.onUpload_cases frame
      exact ⟨hframes, by simp [hnext, HostPhase.toSend], hserved⟩
  | @recvDone frame queue hphase =>
      refine ⟨hframes, ?_, hserved⟩
      rcases HostPhase.onDone_cases frame with ⟨-, hnext⟩ | ⟨why, hnext⟩
      · simp only [hnext]
        simpa [hphase, HostPhase.toSend] using hunsent
      · simp [hnext, HostPhase.toSend]
  | readFails | hostCanceled | hostClosed | dropStream =>
      exact ⟨hframes, by simp [HostPhase.toSend], hserved⟩
  | deliverFull | deliverUpdate | rejectUpdate | deliverCancel | close =>
      exact ⟨hframes, by simpa using hunsent, hserved⟩
  | sendHostCancel =>
      exact ⟨by simpa [List.filter_append, StreamFrame.isData] using hframes, hunsent,
        hserved⟩
  | route _ hwire hdata hrouted =>
      refine ⟨?_, hunsent, hserved⟩
      simpa [hwire, hdata, hserved hrouted] using hframes
  | routeFull _ hwire hdata =>
      refine ⟨?_, hunsent, by simp⟩
      simpa [hwire, hdata] using hframes
  | unsupported _ hwire hdata hrouted | unsupportedCanceled _ hwire hdata hrouted =>
      refine ⟨?_, hunsent, by simp [hrouted]⟩
      simpa [hwire, hdata] using hframes
  | serveCancel _ hwire =>
      refine ⟨?_, hunsent, by simp⟩
      simpa [hwire, StreamFrame.isData] using hframes
  | recv _ _ hinbox =>
      refine ⟨?_, hunsent, hserved⟩
      simpa [hinbox] using hframes
  | unregister | serveEnds => exact ⟨hframes, hunsent, by simp⟩
  | _ => exact ⟨hframes, hunsent, hserved⟩


theorem ordered_of_reachable {plan : Plan} {s : State}
    (h : (system plan).Reachable s) : Ordered plan s := by
  refine h.invariant (P := Ordered plan) ?_ (fun _ _ _ hs hstep => hs.step hstep)
  rintro s rfl
  refine ⟨rfl, ?_, fun _ => rfl⟩
  intro l hl
  exact Option.some.inj hl

/-- What the sender has taken covers what it has put on the wire. -/
structure Spent (plan : Plan) (s : State) : Prop where
  ledger : s.granted = s.credit.available + s.taken
  covers : bytesOf plan.reads.frames ≤ bytesOf s.unsent + s.taken
  exact : s.host.live = true →
    bytesOf s.unsent + s.taken = bytesOf plan.reads.frames + s.host.held

theorem Spent.step {plan : Plan} {s t : State} {a : Actor} (ho : Ordered plan s)
    (hs : Spent plan s) (h : Step plan s a t) : Spent plan t := by
  obtain ⟨hledger, hcovers, hexact⟩ := hs
  cases h with
  | @recvReady frame queue hphase =>
      refine ⟨hledger, hcovers, ?_⟩
      intro hlive
      rcases HostPhase.onReady_cases frame with ⟨-, hnext⟩ | ⟨why, hnext⟩
      · have hbefore := hexact (by rw [hphase]; rfl)
        simpa [hnext, hphase, HostPhase.held] using hbefore
      · simp [hnext, HostPhase.live] at hlive
  | @tryRecv frame queue hphase =>
      refine ⟨hledger, hcovers, ?_⟩
      intro hlive
      obtain ⟨why, hnext⟩ := HostPhase.onUpload_cases frame
      simp [hnext, HostPhase.live] at hlive
  | @recvDone frame queue hphase =>
      refine ⟨hledger, hcovers, ?_⟩
      intro hlive
      rcases HostPhase.onDone_cases frame with ⟨-, hnext⟩ | ⟨why, hnext⟩
      · have hbefore := hexact (by rw [hphase]; rfl)
        simpa [hnext, hphase, HostPhase.held] using hbefore
      · simp [hnext, HostPhase.live] at hlive
  | readChunk hphase | readEof hphase | park hphase | resume hphase
  | sentChunk hphase | sentEnd hphase | tryRecvEmpty hphase =>
      refine ⟨hledger, hcovers, fun _ => ?_⟩
      have hbefore := hexact (by rw [hphase]; rfl)
      simpa [hphase, HostPhase.held] using hbefore
  | @takeCredit chunk credit hphase _ _ htake =>
      obtain ⟨hle, hrest⟩ := FlowCredit.tryTake_eq_some_iff.mp htake
      have hbefore := hexact (by rw [hphase]; rfl)
      simp only [hphase, HostPhase.held] at hbefore
      refine ⟨?_, ?_, fun _ => ?_⟩
      · simp only
        omega
      · simp only
        omega
      · simp only [HostPhase.held]
        omega
  | @sendChunk chunk hphase | sendEnd hphase =>
      have hhead := ho.unsent _ (by rw [hphase]; rfl)
      have hbefore := hexact (by rw [hphase]; rfl)
      simp only [hhead, hphase, HostPhase.held, bytesOf_cons,
        StreamFrame.chunkBytes] at hbefore
      refine ⟨hledger, ?_, fun _ => ?_⟩
      · simp only [hhead, List.tail_cons]
        omega
      · simp only [hhead, List.tail_cons, HostPhase.held]
        omega
  | readFails | hostCanceled | hostClosed | dropStream =>
      exact ⟨hledger, hcovers, fun hlive => by simp [HostPhase.live] at hlive⟩
  | deliverFull | rejectUpdate | deliverCancel | close =>
      refine ⟨hledger, hcovers, fun hlive => ?_⟩
      simpa using hexact (by simpa using hlive)
  | @deliverUpdate bytes rest credit _ _ _ hadd =>
      obtain ⟨-, -, hsum⟩ := FlowCredit.add_eq_ok_iff.mp hadd
      refine ⟨?_, hcovers, fun hlive => ?_⟩
      · simp only
        omega
      · simpa using hexact (by simpa using hlive)
  | _ => exact ⟨hledger, hcovers, hexact⟩

theorem spent_of_reachable {plan : Plan} {s : State}
    (h : (system plan).Reachable s) : Spent plan s := by
  refine h.invariant_of (P := Ordered plan) (Q := Spent plan)
    (fun _ hs => ordered_of_reachable hs) ?_
    (fun _ _ _ ho hs hstep => hs.step ho hstep)
  rintro s rfl
  exact ⟨rfl, Nat.le_refl _, fun _ => rfl⟩

/-- What a handler that returned with `result` has popped, written and
accounted for. -/
def Leftover (plan : Plan) (popped : List StreamFrame) (written : List Bytes)
    (accounted : List Nat) : Except HandlerError Unit → Prop
  | .ok () => popped = chunksOf written ++ [.fileEnd] ∧ accounted = lengthsOf written
  | .error .create => popped = [] ∧ written = [] ∧ accounted = []
  | .error .write =>
      (∃ chunk, popped = chunksOf written ++ [.fileChunk chunk]) ∧
        accounted = lengthsOf written ∧ plan.failsAt = some written.length
  | .error .flush =>
      popped = chunksOf written ++ [.fileEnd] ∧ accounted = lengthsOf written
  | .error _ => chunksOf written <+: popped ∧ accounted <+: lengthsOf written

/-- What the handler has popped, written and accounted for in each phase. -/
def DevicePhase.Agrees (plan : Plan) (popped : List StreamFrame)
    (written : List Bytes) (accounted : List Nat) : DevicePhase → Prop
  | .opening | .granting => popped = [] ∧ written = [] ∧ accounted = []
  | .receiving => popped = chunksOf written ∧ accounted = lengthsOf written
  | .writing chunk =>
      popped = chunksOf written ++ [.fileChunk chunk] ∧ accounted = lengthsOf written
  | .accounting bytes =>
      popped = chunksOf written ∧ accounted ++ [bytes] = lengthsOf written
  | .flushing =>
      popped = chunksOf written ++ [.fileEnd] ∧ accounted = lengthsOf written
  | .returning result | .reporting result | .finishing result | .ended result =>
      Leftover plan popped written accounted result

theorem DevicePhase.Agrees.prefixes {plan : Plan} {popped : List StreamFrame}
    {written : List Bytes} {accounted : List Nat} {phase : DevicePhase}
    (h : phase.Agrees plan popped written accounted) :
    chunksOf written <+: popped ∧ accounted <+: lengthsOf written := by
  have hleft : ∀ result, Leftover plan popped written accounted result →
      chunksOf written <+: popped ∧ accounted <+: lengthsOf written := by
    rintro (why | ⟨⟨⟩⟩) hresult
    · cases why with
      | create =>
          obtain ⟨rfl, rfl, rfl⟩ := hresult
          exact ⟨List.prefix_rfl, List.prefix_rfl⟩
      | write =>
          obtain ⟨⟨chunk, rfl⟩, rfl, -⟩ := hresult
          exact ⟨List.prefix_append _ _, List.prefix_rfl⟩
      | flush =>
          obtain ⟨rfl, rfl⟩ := hresult
          exact ⟨List.prefix_append _ _, List.prefix_rfl⟩
      | _ => exact hresult
    · obtain ⟨rfl, rfl⟩ := hresult
      exact ⟨List.prefix_append _ _, List.prefix_rfl⟩
  cases phase with
  | opening | granting =>
      obtain ⟨rfl, rfl, rfl⟩ := h
      exact ⟨List.prefix_rfl, List.prefix_rfl⟩
  | receiving =>
      obtain ⟨rfl, rfl⟩ := h
      exact ⟨List.prefix_rfl, List.prefix_rfl⟩
  | writing chunk | flushing =>
      obtain ⟨rfl, rfl⟩ := h
      exact ⟨List.prefix_append _ _, List.prefix_rfl⟩
  | accounting bytes =>
      obtain ⟨rfl, hacc⟩ := h
      exact ⟨List.prefix_rfl, hacc ▸ List.prefix_append _ _⟩
  | returning result | reporting result | finishing result | ended result =>
      exact hleft result h

/-- Whether a running handler has granted the window. -/
def DevicePhase.granted : DevicePhase → Option Bool
  | .opening | .granting => some false
  | .receiving | .writing _ | .accounting _ | .flushing => some true
  | _ => none

/-- The handler's side: what it accounted for, and whether it granted yet. -/
structure Handled (plan : Plan) (s : State) : Prop where
  agrees : s.device.Agrees plan s.popped s.written s.accounted
  consumed : s.consumed = unreported fileWindow s.accounted
  opened : ∀ b, s.device.granted = some b → s.opened = b
  within : ∀ k, plan.failsAt = some k → s.written.length ≤ k

theorem Handled.step {plan : Plan} {s t : State} {a : Actor}
    (hs : Handled plan s) (h : Step plan s a t) : Handled plan t := by
  obtain ⟨hagrees, hconsumed, hopened, hwithin⟩ := hs
  cases h with
  | create hphase =>
      rw [hphase] at hagrees
      exact ⟨hagrees, hconsumed, fun b hb => hopened b (by rwa [hphase]), hwithin⟩
  | createFails hphase =>
      rw [hphase] at hagrees
      exact ⟨hagrees, hconsumed, by simp [DevicePhase.granted], hwithin⟩
  | grant hphase =>
      rw [hphase] at hagrees
      obtain ⟨hpopped, hwritten, haccounted⟩ := hagrees
      refine ⟨?_, hconsumed, by simp [DevicePhase.granted], hwithin⟩
      exact ⟨by simp [hpopped, hwritten, chunksOf], by simp [haccounted, hwritten, lengthsOf]⟩
  | @recv frame rest hphase =>
      rw [hphase] at hagrees
      obtain ⟨hpopped, haccounted⟩ := hagrees
      refine ⟨?_, hconsumed, ?_, hwithin⟩
      · cases frame with
        | fileChunk chunk => exact ⟨by simp [hpopped], haccounted⟩
        | fileEnd => exact ⟨by simp [hpopped], haccounted⟩
        | _ =>
            exact ⟨hpopped ▸ List.prefix_append _ _, haccounted ▸ List.prefix_rfl⟩
      · have htrue := hopened true (by rw [hphase]; rfl)
        cases frame <;> simp [DevicePhase.onFrame, DevicePhase.granted, htrue]
  | @write chunk hphase hok =>
      rw [hphase] at hagrees
      obtain ⟨hpopped, haccounted⟩ := hagrees
      refine ⟨⟨?_, ?_⟩, hconsumed, fun b hb => hopened b (by rwa [hphase]), ?_⟩
      · simp [hpopped, chunksOf]
      · simp [haccounted, lengthsOf]
      · intro k hk
        have hle := hwithin k hk
        have hne : s.written.length ≠ k := fun heq => hok (heq ▸ hk)
        simp only [List.length_append, List.length_singleton]
        omega
  | @writeFails chunk hphase hfails =>
      rw [hphase] at hagrees
      obtain ⟨hpopped, haccounted⟩ := hagrees
      exact ⟨⟨⟨chunk, hpopped⟩, haccounted, hfails⟩, hconsumed,
        by simp [DevicePhase.granted], hwithin⟩
  | @accountOnly bytes consumed hphase haccount
  | @accountReport bytes consumed _ _ hphase _ haccount =>
      rw [hphase] at hagrees
      obtain ⟨hpopped, haccounted⟩ := hagrees
      refine ⟨⟨hpopped, haccounted⟩, ?_, fun b hb => hopened b (by rwa [hphase]), hwithin⟩
      rw [unreported_concat, ← hconsumed, ← accountFileWindow_eq_ok haccount]
  | recvDisconnected | recvCanceled | accountFails | flushCanceled | sendCanceled
  | sendStopped =>
      exact ⟨hagrees.prefixes, hconsumed, by simp [DevicePhase.granted], hwithin⟩
  | flush hphase | flushFails hphase | unregister hphase | reportOk hphase
  | reportError hphase | reportNothing hphase | finish hphase =>
      rw [hphase] at hagrees
      exact ⟨hagrees, hconsumed, by simp [DevicePhase.granted], hwithin⟩
  | _ => exact ⟨hagrees, hconsumed, hopened, hwithin⟩

theorem handled_of_reachable {plan : Plan} {s : State}
    (h : (system plan).Reachable s) : Handled plan s := by
  refine h.invariant (P := Handled plan) ?_ (fun _ _ _ hs hstep => hs.step hstep)
  rintro s rfl
  exact ⟨⟨rfl, rfl, rfl⟩, rfl, fun _ hb => Option.some.inj hb, fun _ _ => Nat.zero_le _⟩

theorem Spent.sent_le {plan : Plan} {s : State} (ho : Ordered plan s)
    (hs : Spent plan s) :
    bytesOf s.popped + bytesOf s.inbox + bytesOf s.unserved +
      bytesOf (s.toDevice.filter (·.isData)) ≤ s.taken := by
  have hframes := congrArg bytesOf ho.frames
  have hcovers := hs.covers
  simp only [bytesOf_append] at hframes
  omega

theorem Handled.accounted_le {plan : Plan} {s : State} (hh : Handled plan s) :
    s.accounted.sum ≤ bytesOf s.popped := by
  obtain ⟨hwritten, haccounted⟩ := hh.agrees.prefixes
  calc s.accounted.sum ≤ (lengthsOf s.written).sum := sum_le_of_prefix haccounted
    _ = bytesOf (chunksOf s.written) := (bytesOf_chunksOf _).symm
    _ ≤ bytesOf s.popped := bytesOf_le_of_prefix hwritten

theorem Handled.accounting_le {plan : Plan} {s : State} (hh : Handled plan s)
    {bytes : Nat} (hphase : s.device = .accounting bytes) :
    s.accounted.sum + bytes ≤ bytesOf s.popped := by
  have hagrees := hh.agrees
  rw [hphase] at hagrees
  obtain ⟨hpopped, haccounted⟩ := hagrees
  rw [hpopped, bytesOf_chunksOf, ← haccounted]
  simp

/-- The credit ledger that a push keeps. -/
def State.ledger (s : State) : Ledger where
  opened := s.opened
  intact := s.hostRoute && s.connected
  credit := s.credit.available
  granting := grantsOf s.toHost
  flight := s.taken - s.accounted.sum
  pending := s.consumed

theorem State.ledger_lose {s t : State} (bytes : Nat)
    (hbytes : bytes ≤ grantsOf s.toHost)
    (ht : t.ledger = { s.ledger with
      intact := false, granting := s.ledger.granting - bytes }) :
    (Ledger.system fileWindow).Leads s.ledger t.ledger := by
  rw [ht]
  exact .single (a := ()) (.lose s.ledger bytes hbytes)

theorem State.ledger_consume {s t : State} (bytes : Nat)
    (hbytes : bytes ≤ s.ledger.flight)
    (ht : t.ledger = { s.ledger with
      flight := s.ledger.flight - bytes
      pending := (account fileWindow s.ledger.pending bytes).1
      granting := s.ledger.granting +
        (account fileWindow s.ledger.pending bytes).2.getD 0 }) :
    (Ledger.system fileWindow).Leads s.ledger t.ledger := by
  rw [ht]
  exact .single (a := ()) (.consume s.ledger bytes hbytes)

theorem ledger_leads {plan : Plan} {s t : State} {a : Actor} (ho : Ordered plan s)
    (hs : Spent plan s) (hh : Handled plan s) (h : Step plan s a t) :
    (Ledger.system fileWindow).Leads s.ledger t.ledger := by
  have hsent := hs.sent_le ho
  have haccounted := hh.accounted_le
  have hsame : t.ledger = s.ledger →
      (Ledger.system fileWindow).Leads s.ledger t.ledger := by
    intro heq
    rw [heq]
    exact .refl
  cases h with
  | @takeCredit chunk credit _ _ _ htake =>
      obtain ⟨hle, hrest⟩ := FlowCredit.tryTake_eq_some_iff.mp htake
      have ht : s.taken + chunk.length - s.accounted.sum =
          s.taken - s.accounted.sum + chunk.length := by omega
      simp only [State.ledger, hrest, ht]
      exact .single (a := ()) (.take s.ledger chunk.length hle)
  | dropStream | close =>
      exact State.ledger_lose 0 (Nat.zero_le _) (by simp [State.ledger])
  | @deliver frame rest _ hwire hdata =>
      exact hsame (by simp [State.ledger, hwire, grantBytes_of_isData hdata])
  | @deliverFull frame rest _ hwire hdata =>
      refine State.ledger_lose 0 (Nat.zero_le _) ?_
      simp [State.ledger, hwire, grantBytes_of_isData hdata]
  | @deliverUpdate bytes rest credit _ hwire _ hadd =>
      obtain ⟨-, -, hsum⟩ := FlowCredit.add_eq_ok_iff.mp hadd
      have hbytes : bytes ≤ s.ledger.granting := by
        simp [State.ledger, hwire, StreamFrame.grantBytes]
      have hstep := Ledger.Step.receive (w := fileWindow) s.ledger bytes hbytes
      simp only [State.ledger, hwire, grantsOf_cons, StreamFrame.grantBytes,
        Nat.add_sub_cancel_left] at hstep
      simp only [State.ledger, hwire, grantsOf_cons, StreamFrame.grantBytes, hsum]
      exact .single hstep
  | @rejectUpdate bytes rest message _ hwire =>
      refine State.ledger_lose bytes ?_ ?_
      · simp [hwire, StreamFrame.grantBytes]
      · simp [State.ledger, hwire, StreamFrame.grantBytes]
  | @deliverCancel rest _ hwire =>
      refine State.ledger_lose 0 (Nat.zero_le _) ?_
      simp [State.ledger, hwire, StreamFrame.grantBytes]
  | @deliverStray frame rest _ hwire hroute =>
      refine State.ledger_lose frame.grantBytes ?_ ?_
      · simp [hwire]
      · simp [State.ledger, hwire, hroute]
  | @grant update hphase _ hupdate =>
      have hunopened := hh.opened false (by rw [hphase]; rfl)
      have hstep := Ledger.Step.openWindow (w := fileWindow) s.ledger hunopened
      simp only [State.ledger, grantsOf_append, grantsOf_windowUpdate hupdate]
      exact .single hstep
  | @accountOnly bytes consumed hphase haccount =>
      have hresult := accountFileWindow_eq_ok haccount
      have hle := hh.accounting_le hphase
      refine State.ledger_consume bytes ?_ ?_
      · simp only [State.ledger]
        omega
      · simp [State.ledger, ← hresult, Nat.sub_sub]
  | @accountReport bytes consumed batch update hphase _ haccount hupdate =>
      have hresult := accountFileWindow_eq_ok haccount
      have hle := hh.accounting_le hphase
      refine State.ledger_consume bytes ?_ ?_
      · simp only [State.ledger]
        omega
      · simp [State.ledger, ← hresult, Nat.sub_sub, grantsOf_windowUpdate hupdate]
  | create | unsupported | sendDeviceCancel | flush | flushCanceled | reportError =>
      exact hsame (by simp [State.ledger, StreamFrame.grantBytes])
  | _ => exact hsame rfl

/-- A push refines the credit-window protocol. -/
theorem ledger_of_reachable {plan : Plan} {s : State}
    (h : (system plan).Reachable s) :
    (Ledger.system fileWindow).Reachable s.ledger := by
  refine h.simulate (N := Ledger.system fileWindow) State.ledger
    (P := fun u => Ordered plan u ∧ Spent plan u ∧ Handled plan u) ?_ ?_ ?_
  · intro u hu
    exact ⟨ordered_of_reachable hu, spent_of_reachable hu, handled_of_reachable hu⟩
  · rintro u rfl
    rfl
  · rintro u a v ⟨ho, hs, hh⟩ huv
    exact ledger_leads ho hs hh huv

theorem written_isPrefix {plan : Plan} {s : State} (ho : Ordered plan s)
    (hh : Handled plan s) : s.written <+: plan.reads.chunks := by
  apply plan.reads.chunksOf_prefix_frames
  apply hh.agrees.prefixes.1.trans
  rw [← ho.frames]
  simp only [List.append_assoc]
  exact List.prefix_append _ _

theorem accounted_eq_take {plan : Plan} {s : State} (ho : Ordered plan s)
    (hh : Handled plan s) :
    s.accounted = plan.reads.sizes.take s.accounted.length := by
  have hsizes : lengthsOf s.written <+: plan.reads.sizes :=
    (written_isPrefix ho hh).map List.length
  exact List.prefix_iff_eq_take.mp (hh.agrees.prefixes.2.trans hsizes)

/-- What the sender has taken fits into the window and the batches the handler
has accounted for. -/
theorem taken_le {plan : Plan} {s : State} (h : (system plan).Reachable s) :
    s.taken + unreported fileWindow s.accounted ≤
      fileFlowWindow + s.accounted.sum := by
  have hh := handled_of_reachable h
  have hbalanced := Ledger.balanced_of_reachable fileWindow (ledger_of_reachable h)
  have htotal := hbalanced.total_le_size
  rw [← hh.consumed]
  simp only [Ledger.total, State.ledger, fileWindow_size] at htotal
  omega

theorem seen_le_taken {plan : Plan} {s : State} (h : (system plan).Reachable s)
    (j : Nat) (hj : j ≤ (s.popped ++ s.inbox ++ s.unserved ++
      s.toDevice.filter (·.isData)).length) :
    (plan.reads.sizes.take j).sum ≤ s.taken := by
  have ho := ordered_of_reachable h
  have hsent := (spent_of_reachable h).sent_le ho
  rw [← plan.reads.bytesOf_take_frames, ← ho.frames,
    List.take_append_of_le_length hj]
  have htake := bytesOf_le_of_prefix (List.take_prefix j
    (s.popped ++ s.inbox ++ s.unserved ++ s.toDevice.filter (·.isData)))
  simp only [bytesOf_append] at htake
  omega

/-- The last position at which the handler still takes chunks. -/
def Plan.limit (plan : Plan) : Nat := plan.failsAt.getD plan.reads.chunks.length

theorem accounted_le_limit {plan : Plan} {s : State} (ho : Ordered plan s)
    (hh : Handled plan s) : s.accounted.length ≤ plan.limit := by
  have haccounted := hh.agrees.prefixes.2.length_le
  simp only [lengthsOf, List.length_map] at haccounted
  unfold Plan.limit
  rcases hfails : plan.failsAt with _ | k
  · have := (written_isPrefix ho hh).length_le
    simp only [Option.getD_none]
    omega
  · have := hh.within k hfails
    simp only [Option.getD_some]
    omega

/-- The queue of the device has room for every frame, if the reads leave no
room for a burst. -/
theorem not_full {plan : Plan}
    (hburst : NoBurst fileWindow routeCapacity plan.limit plan.reads.sizes)
    {s : State} (h : (system plan).Reachable s) {frame : StreamFrame}
    {rest : List StreamFrame} (hwire : s.toDevice = frame :: rest)
    (hdata : frame.isData = true) : s.inbox.length < routeCapacity := by
  by_contra hfull
  have ho := ordered_of_reachable h
  have hh := handled_of_reachable h
  have hlength := congrArg List.length ho.frames
  have hpopped := hh.agrees.prefixes.1.length_le
  have haccounted := hh.agrees.prefixes.2.length_le
  simp only [hwire, List.filter_cons, hdata, if_true, List.length_append,
    List.length_cons, FileReads.length_frames, chunksOf, lengthsOf,
    List.length_map] at hlength hpopped haccounted
  have htaken := taken_le h
  have hseen := seen_le_taken h (s.popped.length + (routeCapacity + 1)) (by
    simp only [hwire, List.filter_cons, hdata, if_true, List.length_append,
      List.length_cons]
    omega)
  have hwindow := hburst.window_lt s.accounted.length s.popped.length
    (accounted_le_limit ho hh) (by omega) (by rw [FileReads.length_sizes]; omega)
  rw [← accounted_eq_take ho hh, fileWindow_size] at hwindow
  omega

theorem not_overflowed {plan : Plan}
    (hburst : NoBurst fileWindow routeCapacity plan.limit plan.reads.sizes)
    {s : State} (h : (system plan).Reachable s) : s.overflowed = false := by
  refine h.invariant_of (P := (system plan).Reachable)
    (Q := fun u => u.overflowed = false) (fun _ hu => hu) ?_ ?_
  · rintro u rfl
    rfl
  · intro u a v hu hover huv
    cases huv with
    | routeFull _ hwire hdata _ hfull =>
        have hroom := not_full hburst hu hwire hdata
        omega
    | _ => exact hover

end SideWire.PushTransfer
