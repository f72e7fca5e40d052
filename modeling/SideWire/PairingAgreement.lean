import SideWire.PairingExchange

/-!
When the records that pairing leaves on the two sides agree. The device overwrites its record
before it confirms the run, and the host only then: a run that ends in between leaves a new
secret on the device and the old one on the host.
-/

namespace SideWire.PairingExchange

open SideWire.TransitionSystem
open SideWire.TaskPool
open SideWire.PairingStore
open SideWire.PairingListener (pairingPin)

/-- The device has stored the secret of the run, and the host may still save it. -/
def Run.unconfirmed (run : Run) : Bool := run.stored && run.attended

/-- The secret that the handler has received and not stored. -/
def DevicePhase.received : DevicePhase → Option Key
  | .locking _ secret | .checking _ secret | .storing secret => some secret
  | _ => none

/-- What a run carries is the secret of the run, and only a device that has stored it
confirms it. -/
structure Run.Coherent (run : Run) : Prop where
  commit : ∀ secret, .commit secret ∈ run.toDevice → secret = run.secret
  received : ∀ secret, run.device.received = some secret → secret = run.secret
  complete : .complete ∈ run.toHost → run.stored = true
  saving : run.host = .saving → run.stored = true

theorem Run.Coherent.opened (secret : Key) : (Run.opened secret).Coherent where
  commit _ h := nomatch h
  received _ h := nomatch h
  complete h := nomatch h
  saving h := nomatch h

theorem HostMove.coherent {run run' : Run} (hmove : HostMove run run') (h : run.Coherent) :
    run'.Coherent := by
  obtain ⟨hcommit, hreceived, hcomplete, hsaving⟩ := h
  cases hmove with
  | readBanner | readReply | readResponse =>
      exact ⟨hcommit, hreceived, fun hmem => hcomplete (List.mem_cons_of_mem _ hmem),
        fun hphase => nomatch hphase⟩
  | start | initiate =>
      refine ⟨?_, hreceived, hcomplete, fun hphase => nomatch hphase⟩
      intro received hmem
      exact hcommit received (by simpa using hmem)
  | commit =>
      refine ⟨?_, hreceived, hcomplete, fun hphase => nomatch hphase⟩
      intro received hmem
      rcases List.mem_append.mp hmem with hmem | hmem
      · exact hcommit received hmem
      · exact Message.commit.inj (List.mem_singleton.mp hmem)
  | readComplete =>
      have hstored := hcomplete List.mem_cons_self
      exact ⟨hcommit, hreceived, fun _ => hstored, fun _ => hstored⟩

theorem DeviceMove.coherent {run run' : Run} (hmove : DeviceMove run run') (h : run.Coherent) :
    run'.Coherent := by
  obtain ⟨hcommit, hreceived, hcomplete, hsaving⟩ := h
  cases hmove with
  | offer | offerNothing | reply | respond =>
      refine ⟨hcommit, fun _ h => (nomatch h), ?_, hsaving⟩
      intro hmem
      exact hcomplete (by simpa using hmem)
  | readStart | readInitiation =>
      exact ⟨fun received hmem => hcommit received (List.mem_cons_of_mem _ hmem),
        fun _ h => (nomatch h), hcomplete, hsaving⟩
  | readCommit =>
      refine ⟨fun received hmem => hcommit received (List.mem_cons_of_mem _ hmem), ?_,
        hcomplete, hsaving⟩
      intro received hphase
      obtain rfl := Option.some.inj hphase
      exact hcommit _ List.mem_cons_self
  | fail hphase =>
      have hfree : run.stored = false := by
        rcases run with ⟨host, device, secret, toDevice, toHost⟩
        cases device <;> simp_all [DevicePhase.mayFail, Run.stored]
      refine ⟨hcommit, fun _ h => (nomatch h), ?_, ?_⟩
      · intro hmem
        exact absurd (hcomplete hmem) (by simp [hfree])
      · intro hphase
        exact absurd (hsaving hphase) (by simp [hfree])

theorem HostMove.unconfirmed {run run' : Run} (hmove : HostMove run run') :
    run'.unconfirmed = run.unconfirmed ∧ run'.secret = run.secret ∧
      run'.attended = run.attended := by
  cases hmove <;> exact ⟨rfl, rfl, rfl⟩

theorem DeviceMove.unconfirmed {run run' : Run} (hmove : DeviceMove run run') :
    run'.unconfirmed = run.unconfirmed ∧ run'.secret = run.secret ∧
      run'.attended = run.attended := by
  cases hmove with
  | fail hphase =>
      refine ⟨?_, rfl, rfl⟩
      rcases run with ⟨host, device, secret, toDevice, toHost⟩
      cases device <;> simp_all [DevicePhase.mayFail, Run.stored, Run.unconfirmed]
  | _ => exact ⟨rfl, rfl, rfl⟩

/-- The device has stored the secret that the host of an unconfirmed run will save, or no run
is unconfirmed and the records agree. -/
def State.Agreeing (s : State) : Prop :=
  (∃ run ∈ s.runs, run.unconfirmed = true ∧ s.deviceSecret = some run.secret) ∨
    (∀ run ∈ s.runs, run.unconfirmed = false) ∧ s.Agrees

structure Inv (s : State) : Prop where
  coherent : ∀ run ∈ s.runs, run.Coherent
  attended : s.runs.countP Run.attended ≤ 1
  agreeing : s.Agreeing

theorem Inv.initial (file : Option Text) (now : Nat) : Inv (.initial file now) where
  coherent _ h := nomatch h
  attended := Nat.zero_le _
  agreeing := .inr ⟨fun _ h => (nomatch h), fun _ _ h => nomatch h⟩

/-- The device stores a secret while the host of that run waits for the confirmation, and the
host does not leave a run whose secret the device has stored. While the host has no record of
the device, and none to come, both may happen. -/
def Confirmed (s : State) : Action → Prop
  | .deviceStores run => run.host = .awaitingComplete ∨
      s.hostSecret = none ∧ ∀ other ∈ s.runs, other.unconfirmed = false
  | .hostFails run => run.stored = false ∨ s.hostSecret = none
  | .other => True

theorem attended_of_unconfirmed {run : Run} (h : run.unconfirmed = true) :
    run.attended = true := by
  simp only [Run.unconfirmed, Bool.and_eq_true] at h
  exact h.2

section Step

variable {s t : State} {action : Action} {run run' : Run} {runs : List Run}

theorem Inv.coherent_step (h : Inv s) (hstep : Step s action t) :
    ∀ run ∈ t.runs, run.Coherent := by
  have hcoherent := h.coherent
  cases hstep with
  | tick | writeFile => exact hcoherent
  | connect =>
      simp only [List.forall_mem_append, List.forall_mem_singleton]
      exact ⟨hcoherent, .opened _⟩
  | host hmove hrun => exact hrun.forall_mem hcoherent (hmove.coherent (hcoherent _ hrun.mem))
  | device hmove hrun => exact hrun.forall_mem hcoherent (hmove.coherent (hcoherent _ hrun.mem))
  | hostFails _ hrun | save _ hrun =>
      obtain ⟨hcommit, hreceived, hcomplete, _⟩ := hcoherent _ hrun.mem
      exact hrun.forall_mem hcoherent ⟨hcommit, hreceived, hcomplete, nofun⟩
  | readPin hphase hrun | checkFails hphase _ hrun =>
      obtain ⟨hcommit, _, hcomplete, hsaving⟩ := hcoherent _ hrun.mem
      simp only [Run.stored, hphase] at hcomplete hsaving
      exact hrun.forall_mem hcoherent
        ⟨hcommit, nofun, fun hmem => (nomatch hcomplete hmem),
          fun hhost => nomatch hsaving hhost⟩
  | lock _ hphase hrun | check hphase _ hrun =>
      obtain ⟨hcommit, hreceived, hcomplete, hsaving⟩ := hcoherent _ hrun.mem
      simp only [Run.stored, hphase] at hcomplete hsaving
      rw [hphase] at hreceived
      exact hrun.forall_mem hcoherent
        ⟨hcommit, hreceived, fun hmem => (nomatch hcomplete hmem),
          fun hhost => nomatch hsaving hhost⟩
  | store _ hrun | removeFile _ hrun | complete _ hrun | completeFails _ hrun =>
      have hcommit := (hcoherent _ hrun.mem).commit
      exact hrun.forall_mem hcoherent ⟨hcommit, nofun, fun _ => rfl, fun _ => rfl⟩

theorem Inv.attended_step (h : Inv s) (hstep : Step s action t) :
    t.runs.countP Run.attended ≤ 1 := by
  have hattended := h.attended
  cases hstep with
  | tick | writeFile => exact hattended
  | connect hidle =>
      have hnone : s.runs.countP Run.attended = 0 :=
        List.countP_eq_zero.mpr fun run hmem => by simp [hidle run hmem]
      rw [List.countP_append, hnone]
      exact le_rfl
  | host hmove hrun =>
      rw [hrun.countP_eq _ hmove.unconfirmed.2.2]
      exact hattended
  | device hmove hrun =>
      rw [hrun.countP_eq _ hmove.unconfirmed.2.2]
      exact hattended
  | @hostFails run _ hphase hrun | @save run _ hphase hrun =>
      have hcount := hrun.countP Run.attended
      have hleft : ({ run with host := .ended } : Run).attended.toNat = 0 := rfl
      simp only
      omega
  | readPin _ hrun | lock _ _ hrun | check _ _ hrun | checkFails _ _ hrun | store _ hrun
  | removeFile _ hrun | complete _ hrun | completeFails _ hrun =>
      rw [hrun.countP_eq _ rfl]
      exact hattended

theorem State.Agreeing.replace (h : s.Agreeing) (hrun : Replaces run run' s.runs t.runs)
    (hkeep : run'.unconfirmed = run.unconfirmed ∧ run'.secret = run.secret)
    (hhost : t.hostSecret = s.hostSecret) (hdevice : t.deviceSecret = s.deviceSecret) :
    t.Agreeing := by
  obtain ⟨hunconfirmed, hsecret⟩ := hkeep
  rcases h with hpending | ⟨hnone, hagrees⟩
  · refine .inl (hrun.exists_mem (P := fun run => run.unconfirmed = true ∧
      t.deviceSecret = some run.secret) ?_ ?_)
    · rw [hdevice]
      exact hpending
    · rw [hunconfirmed, hsecret]
      exact id
  · refine .inr ⟨hrun.forall_mem hnone (hunconfirmed.trans (hnone _ hrun.mem)), ?_⟩
    unfold State.Agrees
    rw [hhost, hdevice]
    exact hagrees

/-- Once the host has left its run, no run is unconfirmed. -/
theorem Inv.unconfirmed_of_leave (h : Inv s) (hattended : run.attended = true)
    (hrun : Replaces run { run with host := .ended } s.runs runs) :
    ∀ other ∈ runs, other.unconfirmed = false := by
  have hcount := hrun.countP_sub Run.attended hattended rfl
  have hone := h.attended
  have hzero : runs.countP Run.attended = 0 := by omega
  intro other hmem
  rw [← Bool.not_eq_true]
  intro hother
  exact List.countP_eq_zero.mp hzero other hmem (attended_of_unconfirmed hother)

theorem Inv.agreeing_save (h : Inv s) (hphase : run.host = .saving)
    (hrun : Replaces run { run with host := .ended } s.runs runs) :
    State.Agreeing { s with runs := runs, hostSecret := some run.secret } := by
  have hattended : run.attended = true := by simp [Run.attended, hphase]
  have hstored := (h.coherent _ hrun.mem).saving hphase
  refine .inr ⟨h.unconfirmed_of_leave hattended hrun, ?_⟩
  rcases h.agreeing with ⟨other, hmem, hother, hdevice⟩ | ⟨hnone, _⟩
  · obtain rfl := hrun.eq_of_countP_le h.attended hattended hmem (attended_of_unconfirmed hother)
    rintro a b hhost hb
    exact Option.some.inj (hhost.symm.trans (hdevice.symm.trans hb))
  · exact absurd (hnone run hrun.mem) (by simp [Run.unconfirmed, hstored, hattended])

theorem Inv.agreeing_hostFails (h : Inv s) (hphase : run.host.mayFail = true)
    (hconfirmed : run.stored = false ∨ s.hostSecret = none)
    (hrun : Replaces run { run with host := .ended } s.runs runs) :
    State.Agreeing { s with runs := runs } := by
  have hattended : run.attended = true := by
    rcases run with ⟨host, device, secret, toDevice, toHost⟩
    cases host <;> simp_all [HostPhase.mayFail, Run.attended]
  refine .inr ⟨h.unconfirmed_of_leave hattended hrun, ?_⟩
  rcases hconfirmed with hfree | hhost
  · rcases h.agreeing with ⟨other, hmem, hother, _⟩ | ⟨_, hagrees⟩
    · obtain rfl :=
        hrun.eq_of_countP_le h.attended hattended hmem (attended_of_unconfirmed hother)
      simp [Run.unconfirmed, hfree] at hother
    · exact hagrees
  · rintro a b hsome _
    exact nomatch hhost.symm.trans hsome

theorem Inv.agreeing_store (h : Inv s) {secret : Key} (hphase : run.device = .storing secret)
    (hconfirmed : Confirmed s (.deviceStores run))
    (hrun : Replaces run { run with device := .removing } s.runs runs) :
    State.Agreeing { s with runs := runs, deviceSecret := some secret } := by
  have hsecret : secret = run.secret :=
    (h.coherent _ hrun.mem).received secret (by rw [hphase]; rfl)
  cases hattended : run.attended with
  | true =>
      refine .inl ⟨{ run with device := .removing }, hrun.mem_new, ?_, congrArg some hsecret⟩
      have hkeep : ({ run with device := .removing } : Run).attended = true := hattended
      simp only [Run.unconfirmed, hkeep, Bool.and_true]
      rfl
  | false =>
      rcases hconfirmed with hwaits | ⟨hhost, hnone⟩
      · simp [Run.attended, hwaits] at hattended
      · refine .inr ⟨hrun.forall_mem hnone ?_, ?_⟩
        · have hkeep : ({ run with device := .removing } : Run).attended = false := hattended
          simp only [Run.unconfirmed, hkeep, Bool.and_false]
        · rintro a b hsome _
          exact nomatch hhost.symm.trans hsome

theorem Inv.agreeing_step (h : Inv s) (hconfirmed : Confirmed s action)
    (hstep : Step s action t) : t.Agreeing := by
  have hagreeing := h.agreeing
  cases hstep with
  | tick | writeFile => exact hagreeing
  | connect =>
      rcases hagreeing with ⟨run, hmem, hrun⟩ | ⟨hnone, hagrees⟩
      · exact .inl ⟨run, List.mem_append_left _ hmem, hrun⟩
      · refine .inr ⟨?_, hagrees⟩
        simp only [List.forall_mem_append, List.forall_mem_singleton]
        exact ⟨hnone, rfl⟩
  | host hmove hrun =>
      obtain ⟨hunconfirmed, hsecret, _⟩ := hmove.unconfirmed
      exact hagreeing.replace hrun ⟨hunconfirmed, hsecret⟩ rfl rfl
  | device hmove hrun =>
      obtain ⟨hunconfirmed, hsecret, _⟩ := hmove.unconfirmed
      exact hagreeing.replace hrun ⟨hunconfirmed, hsecret⟩ rfl rfl
  | hostFails hphase hrun => exact h.agreeing_hostFails hphase hconfirmed hrun
  | save hphase hrun => exact h.agreeing_save hphase hrun
  | store hphase hrun => exact h.agreeing_store hphase hconfirmed hrun
  | readPin hphase hrun | lock _ hphase hrun | check hphase _ hrun | checkFails hphase _ hrun
  | removeFile hphase hrun | complete hphase hrun | completeFails hphase hrun =>
      refine hagreeing.replace hrun ⟨?_, rfl⟩ rfl rfl
      simp only [Run.unconfirmed, Run.stored, hphase]
      rfl

theorem Inv.step (h : Inv s) (hconfirmed : Confirmed s action) (hstep : Step s action t) :
    Inv t where
  coherent := h.coherent_step hstep
  attended := h.attended_step hstep
  agreeing := h.agreeing_step hconfirmed hstep

end Step

theorem Inv.agrees_of_idle {s : State} (h : Inv s) (hidle : s.Idle) : s.Agrees := by
  rcases h.agreeing with ⟨run, hmem, hrun, _⟩ | ⟨_, hagrees⟩
  · have hattended := attended_of_unconfirmed hrun
    simp [Run.attended, (hidle run hmem).1] at hattended
  · exact hagrees

/-- Along a run in which the device stores a secret only under the eyes of its host, and the
host stays until it has saved what the device has stored, idle sides that know each other have
the same secret. -/
theorem secrets_agree {s last : State} {trace : List (State × Action)}
    (hinit : system.init s) (hrun : system.Run s trace last)
    (hconfirmed : ∀ p ∈ trace, Confirmed p.1 p.2) :
    ∀ t ∈ System.visited trace last, t.Idle → t.Agrees := by
  obtain ⟨file, now, rfl⟩ := hinit
  have hinv := hrun.visited_of_steps (P := Inv) Confirmed
    (fun _ _ _ h hok hstep => h.step hok hstep) (Inv.initial file now) hconfirmed
  intro t hmem hidle
  exact (hinv t hmem).agrees_of_idle hidle

section Runs

variable {s : State} {pin : Text}

theorem leads_stored (hidle : ∀ run ∈ s.runs, run.attended = false)
    (hlock : s.commitLocked = false) (hpin : pairingPin s.file s.now = some pin)
    (hvalid : validPin pin = true) (secret : Key) :
    system.LeadsWith Confirmed s { s with
      runs := s.runs ++ [⟨.awaitingComplete, .removing, secret, [], []⟩],
      commitLocked := true, deviceSecret := some secret } := by
  have hread : Step { s with runs := s.runs ++ [.opened secret] } .other { s with
      runs := s.runs ++ [⟨.awaitingBanner, .offering (some pin), secret, [], []⟩] } :=
    hpin ▸ .readPin rfl (.last _ _ _)
  have hcheck : Step { s with
        runs := s.runs ++ [⟨.awaitingComplete, .checking pin secret, secret, [], []⟩],
        commitLocked := true } .other { s with
        runs := s.runs ++ [⟨.awaitingComplete, .storing secret, secret, [], []⟩],
        commitLocked := true } :=
    .check rfl hpin (.last _ _ _)
  exact .head (.connect hidle) trivial <|
    .head hread trivial <|
    .head (.device .offer (.last _ _ _)) trivial <|
    .head (.host .readBanner (.last _ _ _)) trivial <|
    .head (.host (.start hvalid) (.last _ _ _)) trivial <|
    .head (.device .readStart (.last _ _ _)) trivial <|
    .head (.device .reply (.last _ _ _)) trivial <|
    .head (.host .readReply (.last _ _ _)) trivial <|
    .head (.host .initiate (.last _ _ _)) trivial <|
    .head (.device .readInitiation (.last _ _ _)) trivial <|
    .head (.device .respond (.last _ _ _)) trivial <|
    .head (.host .readResponse (.last _ _ _)) trivial <|
    .head (.host .commit (.last _ _ _)) trivial <|
    .head (.device .readCommit (.last _ _ _)) trivial <|
    .head (.lock hlock rfl (.last _ _ _)) trivial <|
    .head hcheck trivial <|
    .head (.store rfl (.last _ _ _)) (.inl rfl) (.refl _)

theorem leads_paired (hidle : ∀ run ∈ s.runs, run.attended = false)
    (hlock : s.commitLocked = false) (hpin : pairingPin s.file s.now = some pin)
    (hvalid : validPin pin = true) (secret : Key) :
    system.LeadsWith Confirmed s { s with
      runs := s.runs ++ [⟨.ended, .ended true, secret, [], []⟩], file := none,
      commitLocked := false, hostSecret := some secret, deviceSecret := some secret } :=
  (leads_stored hidle hlock hpin hvalid secret).trans <|
    .head (.removeFile rfl (.last _ _ _)) trivial <|
    .head (.complete rfl (.last _ _ _)) trivial <|
    .head (.host .readComplete (.last _ _ _)) trivial <|
    .head (.save rfl (.last _ _ _)) trivial (.refl _)

/-- The connection breaks once the device has stored the secret. -/
theorem leads_broken (hidle : ∀ run ∈ s.runs, run.attended = false)
    (hlock : s.commitLocked = false) (hpin : pairingPin s.file s.now = some pin)
    (hvalid : validPin pin = true) (secret : Key) :
    system.Leads s { s with
      runs := s.runs ++ [⟨.ended, .ended true, secret, [], []⟩], file := none,
      commitLocked := false, deviceSecret := some secret } :=
  (leads_stored hidle hlock hpin hvalid secret).leads.trans <|
    System.Leads.head (.removeFile rfl (.last _ _ _)) <|
    System.Leads.head (.hostFails rfl (.last _ _ _)) <|
    System.Leads.head (.completeFails rfl (.last _ _ _)) .refl

end Runs

def offeredFile : Text := "pin=271828\nuntil=60\n".toList

theorem pairingPin_offeredFile : pairingPin (some offeredFile) 0 = some "271828".toList := by
  decide

theorem validPin_offered : validPin "271828".toList = true := by decide

/-- The two sides after a first pairing. -/
def pairedState (secret : Key) : State where
  file := none
  now := 0
  commitLocked := false
  hostSecret := some secret
  deviceSecret := some secret
  runs := [⟨.ended, .ended true, secret, [], []⟩]

theorem pairedState_idle (secret : Key) : (pairedState secret).Idle :=
  List.forall_mem_singleton.mpr ⟨rfl, true, rfl⟩

theorem leads_pairedState (secret : Key) :
    system.LeadsWith Confirmed (.initial (some offeredFile) 0) (pairedState secret) :=
  leads_paired (List.forall_mem_nil _) rfl pairingPin_offeredFile validPin_offered secret

theorem secrets_agree_pairedState :
    ∃ trace, system.Run (.initial (some offeredFile) 0) trace
        (pairedState (.replicate 32 1)) ∧
      ∀ t ∈ System.visited trace (pairedState (.replicate 32 1)), t.Idle → t.Agrees := by
  obtain ⟨trace, hrun, hconfirmed⟩ := leads_pairedState (.replicate 32 1)
  exact ⟨trace, hrun, secrets_agree ⟨some offeredFile, 0, rfl⟩ hrun hconfirmed⟩

/-- The two sides after a second pairing in which the connection breaks between
`store_paired_host` and the confirmation. -/
def brokenState (old new : Key) : State where
  file := none
  now := 0
  commitLocked := false
  hostSecret := some old
  deviceSecret := some new
  runs := [⟨.ended, .ended true, old, [], []⟩, ⟨.ended, .ended true, new, [], []⟩]

theorem leads_brokenState (old new : Key) :
    system.Leads (pairedState old) (brokenState old new) := by
  have hoffer : system.step (pairedState old) .other
      { pairedState old with file := some offeredFile } := .writeFile
  refine System.Leads.head hoffer (leads_broken ?_ rfl ?_ validPin_offered new)
  · exact List.forall_mem_singleton.mpr rfl
  · exact pairingPin_offeredFile

/-- A working pairing that a broken re-pairing makes useless. -/
theorem brokenState_disagrees :
    (system.Reachable (pairedState (.replicate 32 1)) ∧
      (pairedState (.replicate 32 1)).Idle ∧ (pairedState (.replicate 32 1)).Agrees) ∧
    system.Reachable (brokenState (.replicate 32 1) (.replicate 32 2)) ∧
      (brokenState (.replicate 32 1) (.replicate 32 2)).Idle ∧
      ¬ (brokenState (.replicate 32 1) (.replicate 32 2)).Agrees := by
  have hpaired : system.Reachable (pairedState (.replicate 32 1)) :=
    ⟨_, ⟨some offeredFile, 0, rfl⟩, (leads_pairedState _).leads⟩
  refine ⟨⟨hpaired, pairedState_idle _, ?_⟩, hpaired.leads (leads_brokenState _ _), ?_, ?_⟩
  · rintro a b ha hb
    exact Option.some.inj (ha.symm.trans hb)
  · exact List.forall_mem_cons.mpr
      ⟨⟨rfl, true, rfl⟩, List.forall_mem_singleton.mpr ⟨rfl, true, rfl⟩⟩
  · intro hagrees
    have heq := hagrees _ _ rfl rfl
    exact absurd heq (by decide)

end SideWire.PairingExchange
