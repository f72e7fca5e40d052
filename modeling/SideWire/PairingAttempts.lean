import SideWire.PairingListener

namespace SideWire.PairingListener

open SideWire.TransitionSystem
open SideWire.TaskPool
open SideWire.PairingStore

theorem pinLine_of_pairingPin {text : Text} {file : Option Text} {now : Nat} {pin : Text}
    (hfile : file = none ∨ file = some text) (h : pairingPin file now = some pin) :
    pinLine text = some pin := by
  rcases hfile with rfl | rfl
  · exact nomatch h
  · cases hpin : pinLine text with
    | none => simp [pairingPin, hpin] at h
    | some pin' =>
        simp only [pairingPin, hpin, Option.ite_none_left_eq_some] at h
        exact h.2

theorem file_of_pairingPin {file : Option Text} {now : Nat}
    (h : pairingPin file now ≠ none) : file ≠ none := by
  rintro rfl
  exact h rfl

theorem usable_of_le {file : Option Text} {now later : Nat} (hle : now ≤ later)
    (h : pairingPin file later ≠ none) : pairingPin file now ≠ none := by
  cases file with
  | none => exact absurd rfl h
  | some text =>
      cases hpin : pinLine text with
      | none => simp [pairingPin, hpin] at h
      | some pin =>
          simp only [pairingPin, hpin, ne_eq, ite_eq_left_iff, not_forall] at h ⊢
          obtain ⟨hvalid, _⟩ := h
          refine ⟨?_, by simp⟩
          rintro (huntil | hinvalid)
          · exact hvalid (.inl (Nat.lt_of_lt_of_le huntil hle))
          · exact hvalid (.inr hinvalid)

namespace Task

variable (task : Task)

/-- The connection has a permit. -/
def alive : Bool :=
  match task.phase with
  | .gone _ => false
  | _ => true

def committing : Bool :=
  match task.phase with
  | .checking | .storing | .removing | .completing => true
  | _ => false

def storing : Bool :=
  match task.phase with
  | .storing => true
  | _ => false

def removing : Bool :=
  match task.phase with
  | .removing => true
  | _ => false

theorem committing_of_storing {task : Task} (h : task.storing = true) :
    task.committing = true := by
  rcases task with ⟨phase, pin, stored⟩
  cases phase <;> simp_all [storing, committing]

theorem committing_of_removing {task : Task} (h : task.removing = true) :
    task.committing = true := by
  rcases task with ⟨phase, pin, stored⟩
  cases phase <;> simp_all [removing, committing]

def guarding : Bool :=
  match task.phase with
  | .counting _ | .disabling | .resetting => true
  | _ => false

/-- The failure has been counted, and the call that counted it is still to remove the file
and to reset the guard. -/
def closing : Bool :=
  match task.phase with
  | .disabling | .resetting => true
  | _ => false

theorem guarding_of_closing {task : Task} (h : task.closing = true) :
    task.guarding = true := by
  rcases task with ⟨phase, pin, stored⟩
  cases phase <;> simp_all [closing, guarding]

/-- `record_pair_failure` has counted the failure and has returned. -/
def recorded : Bool :=
  match task.phase with
  | .leaving recorded | .gone recorded => recorded
  | _ => false

/-- The handler has read a PIN, and may guess it. -/
def guessing : Bool := task.pin.isSome

/-- An attempt on the PIN whose failure, if it fails, is not recorded. -/
def unrecorded : Bool := task.guessing && !task.recorded

theorem recorded_or_unrecorded (h : task.guessing = true) :
    task.recorded = true ∨ task.unrecorded = true := by
  cases hrecorded : task.recorded with
  | true => exact .inl rfl
  | false => exact .inr (by simp [unrecorded, h, hrecorded])

end Task

/-- The phases that are only reached once the file is gone. -/
def Phase.spent : Phase → Bool
  | .completing | .clearing | .resetting => true
  | _ => false

/-- The phases of an attempt that is over and was not recorded. -/
def Phase.missed : Phase → Bool
  | .leaving recorded | .gone recorded => !recorded
  | _ => false

/-- An attempt that is over without a record has had no PIN to guess. -/
theorem Task.alive_of_unrecorded {task : Task}
    (hmissed : task.phase.missed = true → task.pin = none) (h : task.unrecorded = true) :
    task.alive = true := by
  rcases task with ⟨phase, pin, stored⟩
  cases phase with
  | gone recorded =>
      cases recorded with
      | true => simp [unrecorded, Task.recorded] at h
      | false =>
          obtain rfl : pin = none := hmissed rfl
          simp [unrecorded, guessing] at h
  | _ => rfl

/-- The PIN that `record_pair_failure` has read. -/
def Phase.recordedPin : Phase → Option Text
  | .recording pin | .counting pin => some pin
  | _ => none

/-- The locks, the permits and the counts of an offer of the PIN in `text`. While the file is
there, the guard has counted every failure that is recorded or about to be, no attempt has
gone by unrecorded, and a host that has been stored holds the commit lock. -/
structure Inv (text : Text) (s : State) : Prop where
  file : s.file = none ∨ s.file = some text
  permits : s.permits + s.tasks.countP Task.alive = maxPairingConnections
  committing : s.tasks.countP Task.committing = s.commitLocked.toNat
  guarding : s.tasks.countP Task.guarding = s.guardLocked.toNat
  stored : s.file ≠ none → s.tasks.countP Task.stored = s.tasks.countP Task.removing
  storedOnce : s.tasks.countP Task.stored + s.tasks.countP Task.storing ≤ 1
  tally : s.file ≠ none →
    s.guard.failures = s.tasks.countP Task.recorded + s.tasks.countP Task.closing
  fresh : s.file ≠ none → s.guard.currentPin = none → s.guard.failures = 0
  limit : s.file ≠ none → s.tasks.countP Task.recorded < maxPinFailures
  guardPin : s.guard.currentPin = none ∨ s.guard.currentPin = pinLine text
  spent : ∀ task ∈ s.tasks, task.phase.spent = true → s.file = none
  missed : pairingPin s.file s.now ≠ none → ∀ task ∈ s.tasks, task.phase.missed = true →
    task.pin = none
  recordedPin : ∀ task ∈ s.tasks, task.phase.recordedPin = none ∨
    task.phase.recordedPin = pinLine text

theorem Inv.initial (text : Text) (now : Nat) : Inv text (.initial text now) where
  file := .inr rfl
  permits := rfl
  committing := rfl
  guarding := rfl
  stored _ := rfl
  storedOnce := Nat.zero_le _
  tally _ := rfl
  fresh _ _ := rfl
  limit _ := Nat.zero_lt_succ _
  guardPin := .inl rfl
  spent _ h := nomatch h
  missed _ _ h := nomatch h
  recordedPin _ h := nomatch h

section Step

variable {text : Text} {s t : State} {action : Action}

theorem Inv.permits_step (h : Inv text s) (hstep : Step s action t) :
    t.permits + t.tasks.countP Task.alive = maxPairingConnections := by
  have hpermits := h.permits
  cases hstep with
  | tick => exact hpermits
  | accept hfree _ =>
      have hnew : [(⟨.opening, none, false⟩ : Task)].countP Task.alive = 1 := rfl
      simp only [List.countP_append, hnew]
      omega
  | leave htask =>
      have hcount := htask.countP_sub Task.alive rfl rfl
      simp only
      omega
  | readPin htask | offer _ htask | offerFails htask | exchange htask | exchangeFails htask
  | lockCommit _ htask | lockTimesOut htask | check _ _ htask | checkFails _ htask | store htask
  | removeFile htask | complete htask | completeFails htask | clearSuccess _ htask
  | recordNothing _ htask | record _ htask | lockGuard _ htask | count _ htask
  | countLast _ htask | disable htask | reset htask =>
      rw [htask.countP_eq Task.alive rfl]
      exact hpermits

theorem Inv.committing_step (h : Inv text s) (hstep : Step s action t) :
    t.tasks.countP Task.committing = t.commitLocked.toNat := by
  have hcommitting := h.committing
  cases hstep with
  | tick => exact hcommitting
  | accept =>
      rw [List.countP_append, hcommitting]
      rfl
  | lockCommit hlock htask =>
      exact htask.countP_acquire Task.committing rfl rfl hcommitting hlock
  | checkFails _ htask | complete htask | completeFails htask =>
      exact htask.countP_release Task.committing rfl rfl hcommitting
  | readPin htask | offer _ htask | offerFails htask | exchange htask | exchangeFails htask
  | lockTimesOut htask | check _ _ htask | store htask | removeFile htask
  | clearSuccess _ htask | recordNothing _ htask | record _ htask | lockGuard _ htask
  | count _ htask | countLast _ htask | disable htask | reset htask | leave htask =>
      rw [htask.countP_eq Task.committing rfl]
      exact hcommitting

theorem guarding_step (hguarding : s.tasks.countP Task.guarding = s.guardLocked.toNat)
    (hstep : Step s action t) : t.tasks.countP Task.guarding = t.guardLocked.toNat := by
  cases hstep with
  | tick => exact hguarding
  | accept =>
      rw [List.countP_append, hguarding]
      rfl
  | lockGuard hlock htask =>
      exact htask.countP_acquire Task.guarding rfl rfl hguarding hlock
  | count _ htask | reset htask =>
      exact htask.countP_release Task.guarding rfl rfl hguarding
  | readPin htask | offer _ htask | offerFails htask | exchange htask | exchangeFails htask
  | lockCommit _ htask | lockTimesOut htask | check _ _ htask | checkFails _ htask | store htask
  | removeFile htask | complete htask | completeFails htask | clearSuccess _ htask
  | recordNothing _ htask | record _ htask | countLast _ htask | disable htask | leave htask =>
      rw [htask.countP_eq Task.guarding rfl]
      exact hguarding

theorem Inv.committing_le (h : Inv text s) : s.tasks.countP Task.committing ≤ 1 :=
  h.committing ▸ Bool.toNat_le s.commitLocked

theorem Inv.guarding_le (h : Inv text s) : s.tasks.countP Task.guarding ≤ 1 :=
  h.guarding ▸ Bool.toNat_le s.guardLocked

theorem Inv.stored_step (h : Inv text s) (hstep : Step s action t) :
    (t.file ≠ none → t.tasks.countP Task.stored = t.tasks.countP Task.removing) ∧
      t.tasks.countP Task.stored + t.tasks.countP Task.storing ≤ 1 := by
  have hstored := h.stored
  have honce := h.storedOnce
  cases hstep with
  | tick => exact ⟨hstored, honce⟩
  | accept =>
      simp only [List.countP_append]
      exact ⟨hstored, honce⟩
  | check _ hcheck htask =>
      have hfile : s.file ≠ none := file_of_pairingPin (by rw [hcheck]; simp)
      have hremoving := htask.countP_eq_zero h.committing_le rfl
        (fun _ => Task.committing_of_removing) rfl
      have hstoring := htask.countP_eq_zero h.committing_le rfl
        (fun _ => Task.committing_of_storing) rfl
      rw [htask.countP_eq Task.stored rfl, htask.countP_eq Task.removing rfl,
        htask.countP_add Task.storing rfl rfl, hstoring, hstored hfile, hremoving]
      exact ⟨fun _ => rfl, le_rfl⟩
  | @store task tasks htask =>
      let storing : Task := { task with phase := .storing }
      have hmem : storing ∈ s.tasks := htask.mem
      have hstoring := countP_pos_of_mem hmem (rfl : storing.storing = true)
      have hnone : storing.stored = false := by
        rw [← Bool.not_eq_true]
        intro hmark
        have hpos := countP_pos_of_mem hmem hmark
        omega
      rw [htask.countP_add Task.stored hnone rfl, htask.countP_add Task.removing rfl rfl]
      have hcount := htask.countP_sub Task.storing rfl rfl
      constructor
      · intro hfile
        rw [hstored hfile]
      · change s.tasks.countP Task.stored + 1 + tasks.countP Task.storing ≤ 1
        omega
  | removeFile htask | disable htask =>
      rw [htask.countP_eq Task.stored rfl, htask.countP_eq Task.storing rfl]
      exact ⟨fun hfile => absurd rfl hfile, honce⟩
  | readPin htask | offer _ htask | offerFails htask | exchange htask | exchangeFails htask
  | lockCommit _ htask | lockTimesOut htask | checkFails _ htask | complete htask
  | completeFails htask | clearSuccess _ htask | recordNothing _ htask | record _ htask
  | lockGuard _ htask | count _ htask | countLast _ htask | reset htask | leave htask =>
      rw [htask.countP_eq Task.stored rfl, htask.countP_eq Task.removing rfl,
        htask.countP_eq Task.storing rfl]
      exact ⟨hstored, honce⟩

theorem failures_fail {guard : PairingGuard} {pin : Text}
    (hguard : guard.currentPin = none ∨ guard.currentPin = some pin)
    (hfresh : guard.currentPin = none → guard.failures = 0) (hfew : guard.failures < 255) :
    (guard.fail pin).failures = guard.failures + 1 ∧ (guard.fail pin).currentPin = some pin := by
  unfold PairingGuard.fail
  rcases hguard with hnone | hpin
  · rw [if_pos (by simp [hnone])]
    simp [hfresh hnone]
  · rw [if_neg (by simp [hpin])]
    exact ⟨by simp; omega, hpin⟩

theorem Inv.guardPin_counting (h : Inv text s) {task : Task} {pin : Text}
    (hmem : { task with phase := .counting pin } ∈ s.tasks) :
    s.guard.currentPin = none ∨ s.guard.currentPin = some pin := by
  rcases h.recordedPin _ hmem with hnone | hpin
  · exact nomatch hnone
  · rcases h.guardPin with hnone | hguard
    · exact .inl hnone
    · exact .inr (hguard.trans hpin.symm)

/-- A failure that is counted is one more than those recorded. -/
theorem Inv.fail_counting (h : Inv text s) (hfile : s.file ≠ none) {task task' : Task}
    {pin : Text} {tasks : List Task}
    (htask : Replaces { task with phase := .counting pin } task' s.tasks tasks) :
    s.tasks.countP Task.closing = 0 ∧
      (s.guard.fail pin).failures = s.tasks.countP Task.recorded + 1 ∧
      (s.guard.fail pin).currentPin = some pin := by
  have hclosing : s.tasks.countP Task.closing = 0 :=
    htask.countP_eq_zero h.guarding_le rfl (fun _ => Task.guarding_of_closing) rfl
  have htally := h.tally hfile
  have hlimit := h.limit hfile
  rw [hclosing, Nat.add_zero] at htally
  obtain ⟨hfailures, hpin⟩ := failures_fail (h.guardPin_counting htask.mem) (h.fresh hfile) (by
    simp only [maxPinFailures] at hlimit
    omega)
  exact ⟨hclosing, hfailures.trans (congrArg (· + 1) htally), hpin⟩

/-- What the guard knows while the file is there. -/
structure Tallied (s : State) : Prop where
  tally : s.guard.failures = s.tasks.countP Task.recorded + s.tasks.countP Task.closing
  fresh : s.guard.currentPin = none → s.guard.failures = 0
  limit : s.tasks.countP Task.recorded < maxPinFailures

theorem Inv.tallied_step (h : Inv text s) (hstep : Step s action t) (hfile : t.file ≠ none) :
    Tallied t := by
  have htallied : s.file ≠ none → Tallied s := fun hfile =>
    ⟨h.tally hfile, h.fresh hfile, h.limit hfile⟩
  cases hstep with
  | tick => exact { htallied hfile with }
  | accept =>
      obtain ⟨htally, hfresh, hlimit⟩ := htallied hfile
      refine ⟨?_, hfresh, ?_⟩
      all_goals simp only [List.countP_append]
      · exact htally
      · exact hlimit
  | removeFile | disable => exact absurd rfl hfile
  | clearSuccess _ htask | reset htask => exact absurd (h.spent _ htask.mem rfl) hfile
  | count hfew htask =>
      obtain ⟨hclosing, hfailures, hpin⟩ := h.fail_counting hfile htask
      refine ⟨?_, ?_, ?_⟩
      · rw [htask.countP_add Task.recorded rfl rfl, htask.countP_eq Task.closing rfl, hclosing]
        exact hfailures
      · intro hnone
        exact nomatch hpin.symm.trans hnone
      · rw [htask.countP_add Task.recorded rfl rfl, ← hfailures]
        exact hfew
  | countLast _ htask =>
      obtain ⟨hclosing, hfailures, hpin⟩ := h.fail_counting hfile htask
      refine ⟨?_, ?_, ?_⟩
      · rw [htask.countP_eq Task.recorded rfl, htask.countP_add Task.closing rfl rfl, hclosing]
        exact hfailures
      · intro hnone
        exact nomatch hpin.symm.trans hnone
      · rw [htask.countP_eq Task.recorded rfl]
        exact h.limit hfile
  | readPin htask | offer _ htask | offerFails htask | exchange htask | exchangeFails htask
  | lockCommit _ htask | lockTimesOut htask | check _ _ htask | checkFails _ htask | store htask
  | complete htask | completeFails htask | recordNothing _ htask | record _ htask
  | lockGuard _ htask | leave htask =>
      obtain ⟨htally, hfresh, hlimit⟩ := htallied hfile
      refine ⟨?_, hfresh, ?_⟩
      · rw [htask.countP_eq Task.recorded rfl, htask.countP_eq Task.closing rfl]
        exact htally
      · rw [htask.countP_eq Task.recorded rfl]
        exact hlimit

theorem Inv.file_step (h : Inv text s) (hstep : Step s action t) :
    t.file = none ∨ t.file = some text := by
  cases hstep with
  | removeFile | disable => exact .inl rfl
  | _ => exact h.file

theorem currentPin_fail (guard : PairingGuard) (pin : Text) :
    (guard.fail pin).currentPin = some pin := by
  unfold PairingGuard.fail
  split_ifs with hpin
  · rfl
  · exact not_not.mp hpin

theorem Inv.guardPin_step (h : Inv text s) (hstep : Step s action t) :
    t.guard.currentPin = none ∨ t.guard.currentPin = pinLine text := by
  cases hstep with
  | clearSuccess | reset => exact .inl rfl
  | count _ htask | countLast _ htask =>
      rcases h.recordedPin _ htask.mem with hnone | hpin
      · exact nomatch hnone
      · exact .inr ((currentPin_fail _ _).trans hpin)
  | _ => exact h.guardPin

theorem Inv.spent_step (h : Inv text s) (hstep : Step s action t) :
    ∀ task ∈ t.tasks, task.phase.spent = true → t.file = none := by
  cases hstep with
  | tick => exact h.spent
  | accept =>
      simp only [List.forall_mem_append, List.forall_mem_singleton]
      exact ⟨h.spent, nofun⟩
  | removeFile | disable => exact fun _ _ _ => rfl
  | complete htask => exact htask.forall_mem h.spent fun _ => h.spent _ htask.mem rfl
  | readPin htask | offer _ htask | offerFails htask | exchange htask | exchangeFails htask
  | lockCommit _ htask | lockTimesOut htask | check _ _ htask | checkFails _ htask | store htask
  | completeFails htask | clearSuccess _ htask | recordNothing _ htask | record _ htask
  | lockGuard _ htask | count _ htask | countLast _ htask | reset htask | leave htask =>
      exact htask.forall_mem h.spent (fun hspent => nomatch hspent)

theorem Inv.missed_step (h : Inv text s) (hstep : Step s action t)
    (husable : pairingPin t.file t.now ≠ none) :
    ∀ task ∈ t.tasks, task.phase.missed = true → task.pin = none := by
  cases hstep with
  | tick hclock => exact h.missed (usable_of_le hclock husable)
  | accept =>
      simp only [List.forall_mem_append, List.forall_mem_singleton]
      exact ⟨h.missed husable, nofun⟩
  | removeFile | disable => exact absurd rfl husable
  | recordNothing hfile _ => exact absurd hfile husable
  | clearSuccess _ htask =>
      exact absurd (h.spent _ htask.mem rfl) (file_of_pairingPin husable)
  | leave htask =>
      have hleaving := h.missed husable _ htask.mem
      exact htask.forall_mem (h.missed husable) hleaving
  | readPin htask | offer _ htask | offerFails htask | exchange htask | exchangeFails htask
  | lockCommit _ htask | lockTimesOut htask | check _ _ htask | checkFails _ htask | store htask
  | complete htask | completeFails htask | record _ htask | lockGuard _ htask | count _ htask
  | countLast _ htask | reset htask =>
      exact htask.forall_mem (h.missed husable) (fun hmissed => nomatch hmissed)

theorem Inv.recordedPin_step (h : Inv text s) (hstep : Step s action t) :
    ∀ task ∈ t.tasks, task.phase.recordedPin = none ∨
      task.phase.recordedPin = pinLine text := by
  cases hstep with
  | tick => exact h.recordedPin
  | accept =>
      simp only [List.forall_mem_append, List.forall_mem_singleton]
      exact ⟨h.recordedPin, .inl rfl⟩
  | record hfile htask =>
      exact htask.forall_mem h.recordedPin (.inr (pinLine_of_pairingPin h.file hfile).symm)
  | lockGuard _ htask =>
      have hrecording := h.recordedPin _ htask.mem
      exact htask.forall_mem h.recordedPin hrecording
  | readPin htask | offer _ htask | offerFails htask | exchange htask | exchangeFails htask
  | lockCommit _ htask | lockTimesOut htask | check _ _ htask | checkFails _ htask | store htask
  | removeFile htask | complete htask | completeFails htask | clearSuccess _ htask
  | recordNothing _ htask | count _ htask | countLast _ htask | disable htask | reset htask
  | leave htask => exact htask.forall_mem h.recordedPin (.inl rfl)

theorem Inv.step (h : Inv text s) (hstep : Step s action t) : Inv text t where
  file := h.file_step hstep
  permits := h.permits_step hstep
  committing := h.committing_step hstep
  guarding := guarding_step h.guarding hstep
  stored := (h.stored_step hstep).1
  storedOnce := (h.stored_step hstep).2
  tally hfile := (h.tallied_step hstep hfile).tally
  fresh hfile := (h.tallied_step hstep hfile).fresh
  limit hfile := (h.tallied_step hstep hfile).limit
  guardPin := h.guardPin_step hstep
  spent := h.spent_step hstep
  missed := h.missed_step hstep
  recordedPin := h.recordedPin_step hstep

end Step

/-- At most one host has been stored. When a handler finds its PIN still there, under the
commit lock, few failures of the others are recorded, and few more attempts of theirs may
still fail. -/
structure Guarded (s : State) : Prop where
  stored : s.tasks.countP Task.stored ≤ 1
  attempts : ∀ before task after pin, s.tasks = before ++ task :: after →
    task.phase = .checking → task.pin = some pin → pairingPin s.file s.now = some pin →
      (before ++ after).countP Task.recorded ≤ maxPinFailures - 1 ∧
      (before ++ after).countP Task.unrecorded ≤ maxPairingConnections - 1 ∧
      (before ++ after).countP Task.guessing ≤ 7

theorem Inv.guarded {text : Text} {s : State} (h : Inv text s) : Guarded s where
  stored := Nat.le_trans (Nat.le_add_right _ _) h.storedOnce
  attempts before task after pin hsplit hphase hpin hcheck := by
    have husable : pairingPin s.file s.now ≠ none := by
      rw [hcheck]
      simp
    have hrecorded : (before ++ after).countP Task.recorded ≤ maxPinFailures - 1 := by
      have hlimit := h.limit (file_of_pairingPin husable)
      rw [hsplit, countP_middle] at hlimit
      omega
    have hunrecorded : (before ++ after).countP Task.unrecorded ≤ maxPairingConnections - 1 := by
      have halive : task.alive = true := by
        rw [Task.alive, hphase]
      have hpermits := h.permits
      rw [hsplit, countP_middle, halive, Bool.toNat_true] at hpermits
      have hmono : (before ++ after).countP Task.unrecorded ≤
          (before ++ after).countP Task.alive := by
        refine List.countP_mono_left ?_
        intro other hother hunrecorded
        have hmem : other ∈ s.tasks := by
          rw [hsplit]
          simp only [List.mem_append, List.mem_cons] at hother ⊢
          tauto
        exact Task.alive_of_unrecorded (h.missed husable other hmem) hunrecorded
      omega
    have hguessing := countP_le_add Task.recorded_or_unrecorded (before ++ after)
    simp only [maxPinFailures, maxPairingConnections] at hrecorded hunrecorded ⊢
    exact ⟨hrecorded, hunrecorded, by omega⟩

/-- One PIN pairs one host at most, after seven wrong guesses at most, however the
connections of its offer interleave. -/
theorem pin_guarded (text : Text) (now : Nat) (s : State)
    (h : (system text now).Reachable s) : Guarded s := by
  have hinv : Inv text s := by
    refine h.invariant ?_ fun _ _ _ => Inv.step
    rintro _ rfl
    exact .initial text now
  exact hinv.guarded

section Runs

def offerText : Text := "pin=123456\nuntil=60\n".toList

def offerPin : Text := "123456".toList

theorem pairingPin_offerText : pairingPin (some offerText) 30 = some offerPin := by
  decide

/-- The PIN is offered, and nobody is about to store a host or to count a failure. -/
def offered (permits : Nat) (guard : PairingGuard) (tasks : List Task) : State :=
  ⟨some offerText, 30, permits, false, false, guard, tasks⟩

/-- A connection with the PIN of the offer. -/
def guesser (phase : Phase) : Task := ⟨phase, some offerPin, false⟩

variable {permits : Nat} {guard : PairingGuard} {tasks : List Task}

theorem leads_guess :
    (system offerText 30).Leads (offered (permits + 1) guard tasks)
      (offered permits guard (tasks ++ [guesser .exchanging])) := by
  have hread := @Step.readPin (offered permits guard (tasks ++ [⟨.opening, none, false⟩]))
    ⟨.opening, none, false⟩ (tasks ++ [guesser .offering])
    ⟨tasks, [], rfl, by simp [offered, guesser, pairingPin_offerText]⟩
  have hoffer := @Step.offer (offered permits guard (tasks ++ [guesser .offering]))
    (guesser .offering) offerPin _ rfl ⟨tasks, [], rfl, rfl⟩
  exact System.Leads.head (.accept rfl rfl) <| System.Leads.head hread <| .single hoffer

theorem leads_miss (hfew : (guard.fail offerPin).failures < maxPinFailures) :
    (system offerText 30).Leads (offered permits guard (tasks ++ [guesser .exchanging]))
      (offered (permits + 1) (guard.fail offerPin) (tasks ++ [guesser (.gone true)])) := by
  have hfails := @Step.exchangeFails (offered permits guard (tasks ++ [guesser .exchanging]))
    (guesser .exchanging) _ ⟨tasks, [], rfl, rfl⟩
  have hrecord := @Step.record (offered permits guard (tasks ++ [guesser .failed]))
    (guesser .failed) offerPin _ pairingPin_offerText ⟨tasks, [], rfl, rfl⟩
  have hlock := @Step.lockGuard (offered permits guard (tasks ++ [guesser (.recording offerPin)]))
    (guesser (.recording offerPin)) offerPin _ rfl ⟨tasks, [], rfl, rfl⟩
  have hcount := @Step.count
    { offered permits guard (tasks ++ [guesser (.counting offerPin)]) with guardLocked := true }
    (guesser (.counting offerPin)) offerPin _ hfew ⟨tasks, [], rfl, rfl⟩
  have hleave := @Step.leave
    (offered permits (guard.fail offerPin) (tasks ++ [guesser (.leaving true)]))
    (guesser (.leaving true)) true _ ⟨tasks, [], rfl, rfl⟩
  exact System.Leads.head hfails <| System.Leads.head hrecord <| System.Leads.head hlock <|
    System.Leads.head hcount <| .single hleave

theorem leads_check :
    (system offerText 30).Leads (offered permits guard (tasks ++ [guesser .exchanging]))
      { offered permits guard (tasks ++ [guesser .checking]) with commitLocked := true } := by
  have hexchange := @Step.exchange (offered permits guard (tasks ++ [guesser .exchanging]))
    (guesser .exchanging) _ ⟨tasks, [], rfl, rfl⟩
  have hlock := @Step.lockCommit (offered permits guard (tasks ++ [guesser .locking]))
    (guesser .locking) _ rfl ⟨tasks, [], rfl, rfl⟩
  exact System.Leads.head hexchange (.single hlock)

theorem leads_wrong (hfew : (guard.fail offerPin).failures < maxPinFailures) :
    (system offerText 30).Leads (offered (permits + 1) guard tasks)
      (offered (permits + 1) (guard.fail offerPin) (tasks ++ [guesser (.gone true)])) :=
  leads_guess.trans (leads_miss hfew)

end Runs

/-- Four failures are recorded and three more guesses are on their way when the PIN is found. -/
theorem pin_guarded_checking :
    ∃ s, (system offerText 30).Reachable s ∧
      s.tasks = List.replicate 4 (guesser (.gone true)) ++
        List.replicate 3 (guesser .exchanging) ++ [guesser .checking] ∧
      pairingPin s.file s.now = some offerPin ∧ Guarded s := by
  have hwrong : (system offerText 30).Leads (offered 4 .new [])
      (offered 4 ⟨some offerPin, 4⟩ (List.replicate 4 (guesser (.gone true)))) :=
    (leads_wrong (by decide)).trans <| (leads_wrong (by decide)).trans <|
      (leads_wrong (by decide)).trans (leads_wrong (by decide))
  have hguesses : (system offerText 30).Leads
      (offered 4 ⟨some offerPin, 4⟩ (List.replicate 4 (guesser (.gone true))))
      (offered 0 ⟨some offerPin, 4⟩ (List.replicate 4 (guesser (.gone true)) ++
        List.replicate 3 (guesser .exchanging) ++ [guesser .exchanging])) :=
    leads_guess.trans <| leads_guess.trans <| leads_guess.trans leads_guess
  have hreachable := System.Reachable.leads ⟨_, rfl, .refl⟩
    ((hwrong.trans hguesses).trans leads_check)
  exact ⟨_, hreachable, rfl, pairingPin_offerText, pin_guarded offerText 30 _ hreachable⟩

end SideWire.PairingListener
