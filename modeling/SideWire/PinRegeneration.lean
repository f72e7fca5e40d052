import SideWire.PairingAttempts

/-!
The pairing listener while the user generates new PINs: whose PIN a lockout or a pairing
removes, and whose failures are counted or forgotten.
-/

namespace SideWire.PinRegeneration

open SideWire.TransitionSystem
open SideWire.TaskPool
open SideWire.PairingStore
open SideWire.PairingListener

inductive Action
  | daemon (action : PairingListener.Action)
  | user (file : Option Text)

/-- The steps of the listener and its tasks, those of operations on files that fail, and
whatever the user makes of the PIN file, be it a part of a PIN that is being written. -/
inductive Step : State → Action → State → Prop
  | daemon {s t : State} {action : PairingListener.Action}
      (hstep : PairingListener.Step s action t) : Step s (.daemon action) t
  | readFails {s : State} {task : Task} {tasks : List Task}
      (htask : Replaces { task with phase := .opening }
        { task with phase := .failed, pin := none } s.tasks tasks) :
      Step s (.daemon .task) { s with tasks := tasks }
  | checkErrs {s : State} {task : Task} {tasks : List Task}
      (htask : Replaces { task with phase := .checking } { task with phase := .failed }
        s.tasks tasks) :
      Step s (.daemon .task) { s with tasks := tasks, commitLocked := false }
  | storeFails {s : State} {task : Task} {tasks : List Task}
      (htask : Replaces { task with phase := .storing } { task with phase := .failed }
        s.tasks tasks) :
      Step s (.daemon .task) { s with tasks := tasks, commitLocked := false }
  | removeFails {s : State} {task : Task} {tasks : List Task}
      (htask : Replaces { task with phase := .removing } { task with phase := .completing }
        s.tasks tasks) :
      Step s (.daemon .task) { s with tasks := tasks }
  | recordErrs {s : State} {task : Task} {tasks : List Task}
      (htask : Replaces { task with phase := .failed } { task with phase := .leaving false }
        s.tasks tasks) :
      Step s (.daemon .task) { s with tasks := tasks }
  | disableFails {s : State} {task : Task} {tasks : List Task}
      (htask : Replaces { task with phase := .disabling } { task with phase := .resetting }
        s.tasks tasks) :
      Step s (.daemon .task) { s with tasks := tasks }
  | rewrite {s : State} (file : Option Text) : Step s (.user file) { s with file := file }

def system : System State Action where
  init := fun s => ∃ file now, s = { State.initial [] now with file := file }
  step := Step

/-- The PIN that the file names, if it is there. -/
def Names (file : Option Text) (pin : Text) : Prop :=
  ∀ text, file = some text → pinLine text = some pin

/-- The file is there, with this PIN. -/
def OnOffer (file : Option Text) (pin : Text) : Prop :=
  ∃ text, file = some text ∧ pinLine text = some pin

/-- The failures that the guard has counted on a PIN. -/
def failuresOf (guard : PairingGuard) (pin : Text) : Nat :=
  if guard.currentPin = some pin then guard.failures else 0

/-- The next operation of each task on the file or on the guard is about a PIN of its own: a
lockout removes the PIN that has had the failures, a pairing the PIN it has used, and no
failure or success changes the count of another PIN that is on offer. -/
structure Fair (s : State) : Prop where
  lockout : ∀ task ∈ s.tasks, task.phase = .disabling →
    ∃ pin, maxPinFailures ≤ failuresOf s.guard pin ∧ Names s.file pin
  consumed : ∀ task ∈ s.tasks, task.phase = .removing →
    ∃ pin, task.pin = some pin ∧ Names s.file pin
  failure : ∀ task ∈ s.tasks, ∀ pin, task.phase = .counting pin →
    (task.pin = none ∨ task.pin = some pin) ∧
      ∀ other, other ≠ pin → OnOffer s.file other →
        failuresOf (s.guard.fail pin) other = failuresOf s.guard other
  reset : ∀ task ∈ s.tasks, task.phase = .resetting →
    ∃ pin, s.guard.currentPin = some pin ∧ (task.pin = none ∨ task.pin = some pin)
  success : ∀ task ∈ s.tasks, task.phase = .clearing →
    ∃ pin, task.pin = some pin ∧ ∀ other, other ≠ pin → OnOffer s.file other →
      failuresOf s.guard.clearSuccess other = failuresOf s.guard other

/-- The PIN that a task still under way has to do with. -/
def about (guard : PairingGuard) (task : Task) : Option Text :=
  match task.phase with
  | .offering | .exchanging | .locking | .checking | .storing | .removing | .completing
  | .clearing | .failed => task.pin
  | .recording pin | .counting pin => some pin
  | .disabling => guard.currentPin
  | .opening | .resetting | .leaving _ | .gone _ => none

/-- The user writes no other PIN into the file than the one that the tasks under way have to
do with. -/
def Undisturbed (s : State) : Action → Prop
  | .user (some text) => ∀ task ∈ s.tasks, ∀ pin, about s.guard task = some pin →
      pinLine text = some pin
  | _ => True

section Operations

variable {s t : State} {action : Action}

theorem file_step (hstep : Step s action t) :
    t.file = s.file ∨ (∃ file, action = .user file) ∨
      ∃ task ∈ s.tasks, task.phase = .removing ∨ task.phase = .disabling := by
  cases hstep with
  | daemon hstep =>
      cases hstep with
      | removeFile htask => exact .inr (.inr ⟨_, htask.mem, .inl rfl⟩)
      | disable htask => exact .inr (.inr ⟨_, htask.mem, .inr rfl⟩)
      | _ => exact .inl rfl
  | rewrite file => exact .inr (.inl ⟨file, rfl⟩)
  | _ => exact .inl rfl

end Operations

/-- What a task has to do with is the PIN that the file names, and what it charges is its
own. -/
def TaskOk (file : Option Text) (guard : PairingGuard) (task : Task) : Prop :=
  match task.phase with
  | .opening | .leaving _ | .gone _ => True
  | .offering | .failed => ∀ pin, task.pin = some pin → Names file pin
  | .exchanging | .locking | .checking | .storing | .removing | .completing | .clearing =>
      ∃ pin, task.pin = some pin ∧ Names file pin
  | .recording pin | .counting pin =>
      (task.pin = none ∨ task.pin = some pin) ∧ Names file pin
  | .disabling =>
      ∃ pin, guard.currentPin = some pin ∧ maxPinFailures ≤ guard.failures ∧
        (task.pin = none ∨ task.pin = some pin) ∧ Names file pin
  | .resetting => ∃ pin, guard.currentPin = some pin ∧ (task.pin = none ∨ task.pin = some pin)

section TaskOk

variable {file file' : Option Text} {guard guard' : PairingGuard} {task : Task} {pin : Text}

theorem Names.of_none : Names none pin := fun _ h => nomatch h

theorem names_of_pairingPin {now : Nat} (h : pairingPin file now = some pin) : Names file pin :=
  fun _ hfile => pinLine_of_pairingPin (.inr hfile) h

/-- What a task has read of the file is in the file it stands for. -/
theorem TaskOk.rewrite (h : TaskOk file guard task)
    (hfile : ∀ pin, about guard task = some pin → Names file' pin) :
    TaskOk file' guard task := by
  rcases task with ⟨phase, pin, stored⟩
  cases phase with
  | opening | leaving | gone => trivial
  | offering | failed => exact fun pin hpin => hfile pin hpin
  | exchanging | locking | checking | storing | removing | completing | clearing =>
      obtain ⟨pin, hpin, -⟩ := h
      exact ⟨pin, hpin, hfile pin hpin⟩
  | recording pin | counting pin => exact ⟨h.1, hfile pin rfl⟩
  | disabling =>
      obtain ⟨pin, hcurrent, hmany, hown, -⟩ := h
      exact ⟨pin, hcurrent, hmany, hown, hfile pin hcurrent⟩
  | resetting => exact h

theorem TaskOk.remove (h : TaskOk file guard task) : TaskOk none guard task :=
  h.rewrite fun _ _ => Names.of_none

theorem TaskOk.change_guard (hfree : task.guarding = false) (h : TaskOk file guard task) :
    TaskOk file guard' task := by
  rcases task with ⟨phase, pin, stored⟩
  cases phase with
  | disabling | resetting => exact nomatch hfree
  | _ => exact h

theorem names_of_exists {used : Option Text} (h : ∃ pin, used = some pin ∧ Names file pin) :
    ∀ pin, used = some pin → Names file pin := by
  obtain ⟨pin, rfl, hnames⟩ := h
  rintro pin' ⟨⟩
  exact hnames

/-- The PIN that is read for a failure is the one that has been used, as the file names no
other. -/
theorem own_of_pairingPin {now : Nat} {used : Option Text}
    (hused : ∀ pin, used = some pin → Names file pin) (h : pairingPin file now = some pin) :
    used = none ∨ used = some pin := by
  cases hread : used with
  | none => exact .inl rfl
  | some own =>
      obtain ⟨text, hfile⟩ := Option.ne_none_iff_exists'.mp (file_of_pairingPin (by rw [h]; simp))
      exact .inr ((hused own hread text hfile).symm.trans (names_of_pairingPin h text hfile))

end TaskOk

structure Inv (s : State) : Prop where
  guarding : s.tasks.countP Task.guarding = s.guardLocked.toNat
  tasks : ∀ task ∈ s.tasks, TaskOk s.file s.guard task

theorem Inv.initial (file : Option Text) (now : Nat) :
    Inv { State.initial [] now with file := file } where
  guarding := rfl
  tasks _ h := nomatch h

section Run

variable {s t : State}

theorem Inv.guarding_le (h : Inv s) : s.tasks.countP Task.guarding ≤ 1 :=
  h.guarding ▸ Bool.toNat_le s.guardLocked

theorem Inv.daemon_tasks (h : Inv s) {action : PairingListener.Action}
    (hstep : PairingListener.Step s action t) :
    ∀ task ∈ t.tasks, TaskOk t.file t.guard task := by
  have htasks := h.tasks
  cases hstep with
  | tick => exact htasks
  | accept => exact List.forall_mem_append.mpr ⟨htasks, List.forall_mem_singleton.mpr trivial⟩
  | readPin htask => exact htask.forall_mem htasks fun pin hpin => names_of_pairingPin hpin
  | @offer task pin tasks hpin htask =>
      exact htask.forall_mem htasks ⟨pin, hpin, htasks _ htask.mem pin hpin⟩
  | offerFails htask | exchange htask | lockCommit _ htask | check _ _ htask | store htask
  | complete htask | lockGuard _ htask =>
      have htask_ok := htasks _ htask.mem
      exact htask.forall_mem htasks htask_ok
  | exchangeFails htask | lockTimesOut htask | checkFails _ htask | completeFails htask =>
      exact htask.forall_mem htasks (names_of_exists (htasks _ htask.mem))
  | removeFile htask =>
      have htask_ok := (htasks _ htask.mem).remove
      exact htask.forall_mem (fun other hmem => (htasks other hmem).remove) htask_ok
  | clearSuccess hguard htask =>
      have hnone : s.tasks.countP Task.guarding = 0 := by rw [h.guarding, hguard]; rfl
      refine htask.forall_mem (fun other hmem => ?_) trivial
      exact (htasks other hmem).change_guard
        (Bool.not_eq_true _ ▸ List.countP_eq_zero.mp hnone other hmem)
  | recordNothing _ htask | leave htask => exact htask.forall_mem htasks trivial
  | record hfile htask =>
      exact htask.forall_mem htasks
        ⟨own_of_pairingPin (htasks _ htask.mem) hfile, names_of_pairingPin hfile⟩
  | count _ htask | reset htask =>
      exact htask.forall_mem_holder h.guarding_le rfl htasks
        (fun other => TaskOk.change_guard) trivial
  | @countLast task pin tasks hmany htask =>
      obtain ⟨hown, hnames⟩ := htasks _ htask.mem
      exact htask.forall_mem_holder h.guarding_le rfl htasks
        (fun other => TaskOk.change_guard)
        ⟨pin, currentPin_fail s.guard pin, hmany, hown, hnames⟩
  | disable htask =>
      obtain ⟨pin, hcurrent, -, hown, -⟩ := htasks _ htask.mem
      exact htask.forall_mem (fun other hmem => (htasks other hmem).remove)
        ⟨pin, hcurrent, hown⟩

theorem Inv.step {action : Action} (h : Inv s) (hok : Undisturbed s action)
    (hstep : Step s action t) : Inv t := by
  cases hstep with
  | daemon hstep => exact ⟨guarding_step h.guarding hstep, h.daemon_tasks hstep⟩
  | readFails htask =>
      exact ⟨(htask.countP_eq Task.guarding rfl).trans h.guarding,
        htask.forall_mem h.tasks fun _ hpin => nomatch hpin⟩
  | checkErrs htask | storeFails htask =>
      exact ⟨(htask.countP_eq Task.guarding rfl).trans h.guarding,
        htask.forall_mem h.tasks (names_of_exists (h.tasks _ htask.mem))⟩
  | removeFails htask =>
      have htask_ok := h.tasks _ htask.mem
      exact ⟨(htask.countP_eq Task.guarding rfl).trans h.guarding,
        htask.forall_mem h.tasks htask_ok⟩
  | recordErrs htask =>
      exact ⟨(htask.countP_eq Task.guarding rfl).trans h.guarding,
        htask.forall_mem h.tasks trivial⟩
  | disableFails htask =>
      obtain ⟨pin, hcurrent, -, hown, -⟩ := h.tasks _ htask.mem
      exact ⟨(htask.countP_eq Task.guarding rfl).trans h.guarding,
        htask.forall_mem h.tasks ⟨pin, hcurrent, hown⟩⟩
  | rewrite file =>
      refine ⟨h.guarding, fun task hmem => (h.tasks task hmem).rewrite ?_⟩
      intro pin hpin
      cases file with
      | none => exact Names.of_none
      | some text =>
          rintro _ ⟨⟩
          exact hok task hmem pin hpin

theorem failuresOf_of_current {guard : PairingGuard} {pin : Text}
    (h : guard.currentPin = some pin) : failuresOf guard pin = guard.failures :=
  if_pos h

theorem not_onOffer {file : Option Text} {pin other : Text} (hnames : Names file pin)
    (hne : other ≠ pin) : ¬ OnOffer file other := by
  rintro ⟨text, hfile, hother⟩
  exact hne (Option.some.inj (hother.symm.trans (hnames text hfile)))

theorem Inv.fair (h : Inv s) : Fair s where
  lockout task hmem hphase := by
    have htask := h.tasks task hmem
    rw [TaskOk, hphase] at htask
    obtain ⟨pin, hcurrent, hmany, -, hnames⟩ := htask
    exact ⟨pin, (failuresOf_of_current hcurrent).symm ▸ hmany, hnames⟩
  consumed task hmem hphase := by
    have htask := h.tasks task hmem
    rwa [TaskOk, hphase] at htask
  failure task hmem pin hphase := by
    have htask := h.tasks task hmem
    rw [TaskOk, hphase] at htask
    exact ⟨htask.1, fun other hne hoffer => absurd hoffer (not_onOffer htask.2 hne)⟩
  reset task hmem hphase := by
    have htask := h.tasks task hmem
    rwa [TaskOk, hphase] at htask
  success task hmem hphase := by
    have htask := h.tasks task hmem
    rw [TaskOk, hphase] at htask
    obtain ⟨pin, hpin, hnames⟩ := htask
    exact ⟨pin, hpin, fun other hne hoffer => absurd hoffer (not_onOffer hnames hne)⟩

/-- While no new PIN is written under the tasks that have to do with an old one, every task
removes its own PIN only, and counts on no other. -/
theorem fair_of_undisturbed {s last : State} {trace : List (State × Action)}
    (hinit : system.init s) (hrun : system.Run s trace last)
    (hok : ∀ p ∈ trace, Undisturbed p.1 p.2) :
    ∀ u ∈ System.visited trace last, Fair u := by
  obtain ⟨file, now, rfl⟩ := hinit
  have hinv := hrun.visited_of_steps Undisturbed
    (fun _ _ _ h hundisturbed hstep => h.step hundisturbed hstep) (Inv.initial file now) hok
  exact fun u hu => (hinv u hu).fair

end Run

section Regenerated

def secondText : Text := "pin=654321\nuntil=60\n".toList

def secondPin : Text := "654321".toList

/-- The first PIN on offer, with no task under way. -/
def resting (guard : PairingGuard) (earlier : List Task) : State :=
  ⟨some offerText, 0, 4, false, false, guard, earlier⟩

/-- One task under way. -/
def attempting (text : Text) (guard : PairingGuard) (earlier : List Task) (task : Task)
    (committing guarding : Bool) : State :=
  ⟨some text, 0, 3, committing, guarding, guard, earlier ++ [task]⟩

theorem pairingPin_offerText : pairingPin (some offerText) 0 = some offerPin := by decide

theorem pairingPin_secondText : pairingPin (some secondText) 0 = some secondPin := by decide

variable (guard : PairingGuard) (earlier : List Task)

theorem step_task {text : Text} {committing guarding : Bool} {task : Task} {t : State}
    (hstep : PairingListener.Step (attempting text guard earlier task committing guarding)
      .task t) :
    system.step (attempting text guard earlier task committing guarding) (.daemon .task) t :=
  .daemon hstep

theorem leads_offering :
    system.Leads (resting guard earlier)
      (attempting offerText guard earlier ⟨.offering, some offerPin, false⟩ false false) := by
  have haccept : system.step (resting guard earlier) (.daemon .listener)
      (attempting offerText guard earlier ⟨.opening, none, false⟩ false false) :=
    .daemon (.accept rfl rfl)
  refine .head haccept (.single (step_task guard earlier ?_))
  rw [← pairingPin_offerText]
  exact @PairingListener.Step.readPin _ ⟨.opening, none, false⟩ _ (.last ..)

theorem leads_failed :
    system.Leads (resting guard earlier)
      (attempting offerText guard earlier ⟨.failed, some offerPin, false⟩ false false) :=
  (leads_offering guard earlier).tail (step_task guard earlier
    (@PairingListener.Step.offerFails _ ⟨.offering, some offerPin, false⟩ _ (.last ..)))

theorem leads_recording :
    system.Leads (resting guard earlier)
      (attempting offerText guard earlier ⟨.recording offerPin, some offerPin, false⟩
        false false) :=
  (leads_failed guard earlier).tail (step_task guard earlier
    (@PairingListener.Step.record _ ⟨.failed, some offerPin, false⟩ offerPin _
      pairingPin_offerText (.last ..)))

theorem leads_counted (hfew : (guard.fail offerPin).failures < maxPinFailures) :
    system.Leads (resting guard earlier)
      (resting (guard.fail offerPin) (earlier ++ [⟨.gone true, some offerPin, false⟩])) := by
  exact (leads_recording guard earlier).tail (step_task guard earlier
    (@PairingListener.Step.lockGuard _ ⟨.recording offerPin, some offerPin, false⟩ offerPin _
      rfl (.last ..))) |>.tail (step_task guard earlier
    (@PairingListener.Step.count _ ⟨.counting offerPin, some offerPin, false⟩ offerPin _
      hfew (.last ..))) |>.tail (step_task (guard.fail offerPin) earlier
    (@PairingListener.Step.leave _ ⟨.leaving true, some offerPin, false⟩ true _ (.last ..)))

theorem leads_failures (n : Nat) (hn : n < maxPinFailures) :
    ∃ earlier, system.Leads (resting .new [])
      (resting ((PairingGuard.fail · offerPin)^[n] .new) earlier) := by
  have hfailures : ∀ n < maxPinFailures,
      ((PairingGuard.fail · offerPin)^[n] .new).failures = n := by decide
  induction n with
  | zero => exact ⟨[], .refl⟩
  | succ n ih =>
      obtain ⟨earlier, hrun⟩ := ih (Nat.lt_of_succ_lt hn)
      have hnext := Function.iterate_succ_apply' (PairingGuard.fail · offerPin) n .new
      have hone := leads_counted ((PairingGuard.fail · offerPin)^[n] .new) earlier
      rw [← hnext, hfailures (n + 1) hn] at hone
      exact ⟨_, hrun.trans (hone hn)⟩

theorem leads_removing :
    system.Leads (resting .new [])
      (attempting offerText .new [] ⟨.removing, some offerPin, true⟩ true false) := by
  exact (leads_offering .new []).tail (step_task .new []
    (@PairingListener.Step.offer _ ⟨.offering, some offerPin, false⟩ offerPin _ rfl
      (.last ..))) |>.tail (step_task .new []
    (@PairingListener.Step.exchange _ ⟨.exchanging, some offerPin, false⟩ _
      (.last ..))) |>.tail (step_task .new []
    (@PairingListener.Step.lockCommit _ ⟨.locking, some offerPin, false⟩ _ rfl
      (.last ..))) |>.tail (step_task .new []
    (@PairingListener.Step.check _ ⟨.checking, some offerPin, false⟩ offerPin _ rfl
      pairingPin_offerText (.last ..))) |>.tail (step_task .new []
    (@PairingListener.Step.store _ ⟨.storing, some offerPin, false⟩ _ (.last ..)))

theorem step_regenerate (task : Task) (committing guarding : Bool) :
    system.step (attempting offerText guard earlier task committing guarding)
      (.user (some secondText)) (attempting secondText guard earlier task committing guarding) :=
  .rewrite (some secondText)

theorem reachable_resting : system.Reachable (resting .new []) :=
  ⟨_, ⟨some offerText, 0, rfl⟩, .refl⟩

/-- The host of the first PIN is stored, and the file with the second one is about to be
removed. -/
def consumedState : State :=
  attempting secondText .new [] ⟨.removing, some offerPin, true⟩ true false

/-- A failure on the first PIN is about to count on the second. -/
def chargedState : State :=
  attempting secondText .new [] ⟨.counting secondPin, some offerPin, false⟩ false true

/-- The first PIN has had its failures, and the file with the second one is about to be
removed. -/
def lockedOutState (earlier : List Task) : State :=
  attempting secondText ⟨some offerPin, maxPinFailures⟩ earlier
    ⟨.disabling, some offerPin, false⟩ false true

theorem reachable_consumedState : system.Reachable consumedState :=
  reachable_resting.leads (leads_removing.tail (step_regenerate .new [] _ true false))

theorem reachable_chargedState : system.Reachable chargedState := by
  exact reachable_resting.leads ((leads_failed .new []).tail
    (step_regenerate .new [] _ false false) |>.tail (step_task .new []
    (@PairingListener.Step.record _ ⟨.failed, some offerPin, false⟩ secondPin _
      pairingPin_secondText (.last ..))) |>.tail (step_task .new []
    (@PairingListener.Step.lockGuard _ ⟨.recording secondPin, some offerPin, false⟩ secondPin _
      rfl (.last ..))))

theorem reachable_lockedOutState : ∃ earlier, system.Reachable (lockedOutState earlier) := by
  obtain ⟨earlier, hrun⟩ := leads_failures 4 (by decide)
  have hguard : (PairingGuard.fail · offerPin)^[4] .new = ⟨some offerPin, 4⟩ := by decide
  rw [hguard] at hrun
  have hmany : maxPinFailures ≤ (PairingGuard.fail ⟨some offerPin, 4⟩ offerPin).failures := by
    decide
  refine ⟨earlier, reachable_resting.leads (hrun.trans ?_)⟩
  exact (leads_recording ⟨some offerPin, 4⟩ earlier).tail
    (step_regenerate _ earlier _ false false) |>.tail (step_task _ earlier
    (@PairingListener.Step.lockGuard _ ⟨.recording offerPin, some offerPin, false⟩ offerPin _
      rfl (.last ..))) |>.tail (step_task _ earlier
    (@PairingListener.Step.countLast _ ⟨.counting offerPin, some offerPin, false⟩ offerPin _
      hmany (.last ..)))

theorem not_names_secondText : ¬ Names (some secondText) offerPin := by
  intro hnames
  exact absurd (hnames secondText rfl) (by decide)

/-- A PIN that is generated once the failure on the one before has been counted. -/
theorem fair_of_undisturbed_regenerated :
    ∃ trace, system.Run { State.initial [] 0 with file := none } trace
        (attempting secondText ⟨some offerPin, 1⟩ [] ⟨.leaving true, some offerPin, false⟩
          false false) ∧
      ∀ u ∈ System.visited trace
        (attempting secondText ⟨some offerPin, 1⟩ [] ⟨.leaving true, some offerPin, false⟩
          false false), Fair u := by
  have haccept : system.step (resting .new []) (.daemon .listener)
      (attempting offerText .new [] ⟨.opening, none, false⟩ false false) :=
    .daemon (.accept rfl rfl)
  have hread : PairingListener.Step
      (attempting offerText .new [] ⟨.opening, none, false⟩ false false) .task
      (attempting offerText .new [] ⟨.offering, some offerPin, false⟩ false false) := by
    rw [← pairingPin_offerText]
    exact @PairingListener.Step.readPin _ ⟨.opening, none, false⟩ _ (.last ..)
  have hcounted : system.LeadsWith Undisturbed
      (attempting offerText .new [] ⟨.counting offerPin, some offerPin, false⟩ false true)
      (attempting secondText ⟨some offerPin, 1⟩ [] ⟨.leaving true, some offerPin, false⟩
        false false) := by
    refine .head (step_task .new [] (@PairingListener.Step.count _
      ⟨.counting offerPin, some offerPin, false⟩ offerPin _ (by decide) (.last ..))) trivial ?_
    refine .head (step_regenerate ⟨some offerPin, 1⟩ [] _ false false) ?_ (.refl _)
    intro task hmem pin hpin
    rw [List.mem_singleton.mp hmem] at hpin
    exact nomatch hpin
  have hrun : system.LeadsWith Undisturbed { State.initial [] 0 with file := none }
      (attempting secondText ⟨some offerPin, 1⟩ [] ⟨.leaving true, some offerPin, false⟩
        false false) :=
    .head (Step.rewrite (some offerText)) (fun _ hmem => nomatch hmem) <|
    .head haccept trivial <|
    .head (step_task .new [] hread) trivial <|
    .head (step_task .new [] (@PairingListener.Step.offerFails _
      ⟨.offering, some offerPin, false⟩ _ (.last ..))) trivial <|
    .head (step_task .new [] (@PairingListener.Step.record _ ⟨.failed, some offerPin, false⟩
      offerPin _ pairingPin_offerText (.last ..))) trivial <|
    .head (step_task .new [] (@PairingListener.Step.lockGuard _
      ⟨.recording offerPin, some offerPin, false⟩ offerPin _ rfl (.last ..))) trivial hcounted
  obtain ⟨trace, hsteps, hok⟩ := hrun
  exact ⟨trace, hsteps, fair_of_undisturbed ⟨none, 0, rfl⟩ hsteps hok⟩

/-- A PIN that is generated while a connection is under way is removed with the pairing of the
PIN before, is charged with its failure, or is removed by its lockout. -/
theorem not_fair_of_regenerated :
    (system.Reachable consumedState ∧ ¬ Fair consumedState) ∧
      (system.Reachable chargedState ∧ ¬ Fair chargedState) ∧
      ∃ earlier, system.Reachable (lockedOutState earlier) ∧ ¬ Fair (lockedOutState earlier) := by
  refine ⟨⟨reachable_consumedState, fun hfair => ?_⟩,
    ⟨reachable_chargedState, fun hfair => ?_⟩, ?_⟩
  · obtain ⟨pin, hpin, hnames⟩ := hfair.consumed _ (List.mem_singleton_self _) rfl
    cases hpin
    exact not_names_secondText hnames
  · obtain ⟨hown, -⟩ := hfair.failure _ (List.mem_singleton_self _) secondPin rfl
    exact absurd hown (by decide)
  · obtain ⟨earlier, hreachable⟩ := reachable_lockedOutState
    refine ⟨earlier, hreachable, fun hfair => ?_⟩
    obtain ⟨pin, hmany, hnames⟩ := hfair.lockout _ (List.mem_append_right _
      (List.mem_singleton_self _)) rfl
    rw [failuresOf] at hmany
    split at hmany
    · next hcurrent =>
        cases hcurrent
        exact not_names_secondText hnames
    · exact absurd hmany (by decide)

end Regenerated

end SideWire.PinRegeneration
