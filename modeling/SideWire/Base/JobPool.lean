import Mathlib.Algebra.BigOperators.Group.List.Basic
import Mathlib.Algebra.GroupWithZero.Nat
import Mathlib.Data.List.Nodup
import SideWire.Base.TransitionSystem

/-!
An owner that starts the jobs of a plan one after the other, a limited number of them at a time,
and takes up what they return in any order, until one fails.
-/

namespace SideWire.JobPool

open SideWire.TransitionSystem

/-- `prepare` is what the owner does itself before it starts a job; `acts` says what a job may
do to the world, and what it may return. The sum of what is returned stays below `bound`. -/
structure Workload (Job World Failure : Type*) where
  limit : Nat
  bound : Nat
  plan : List Job
  prepare : Job → World → Except Failure World
  acts : Job → World → Except Failure Nat → World → Prop

inductive Outcome (Failure : Type*)
  | done (count total : Nat)
  | failed (failure : Failure)
  | overflow

/-- The job in `hand` is prepared. A job is `running`, or `finished` until the owner has
`joined` it. -/
structure State (Job World Failure : Type*) where
  todo : List Job
  hand : Option Job
  running : List Job
  finished : List (Job × Except Failure Nat)
  joined : List (Job × Nat)
  count : Nat
  total : Nat
  world : World
  outcome : Option (Outcome Failure)

variable {Job World Failure : Type*}

def State.initial (plan : List Job) (world : World) : State Job World Failure where
  todo := plan
  hand := none
  running := []
  finished := []
  joined := []
  count := 0
  total := 0
  world := world
  outcome := none

/-- How many jobs the pool has. -/
def State.size (s : State Job World Failure) : Nat := s.running.length + s.finished.length

/-- The owner joins: it has no room for the job in hand, or it has started the last one. -/
def State.Joins (limit : Nat) (s : State Job World Failure) : Prop :=
  s.hand.isSome = true ∧ limit ≤ s.size ∨ s.hand = none ∧ s.todo = []

inductive Action (Job : Type*)
  | owner
  | job (job : Job)

inductive Step (w : Workload Job World Failure) :
    State Job World Failure → Action Job → State Job World Failure → Prop
  | prepare {s : State Job World Failure} {job : Job} {rest : List Job} {world : World}
      (hgoing : s.outcome = none) (hhand : s.hand = none) (htodo : s.todo = job :: rest)
      (hprepare : w.prepare job s.world = .ok world) :
      Step w s .owner { s with todo := rest, hand := some job, world := world }
  | refuse {s : State Job World Failure} {job : Job} {rest : List Job} {failure : Failure}
      (hgoing : s.outcome = none) (hhand : s.hand = none) (htodo : s.todo = job :: rest)
      (hprepare : w.prepare job s.world = .error failure) :
      Step w s .owner { s with outcome := some (.failed failure) }
  | start {s : State Job World Failure} {job : Job} (hgoing : s.outcome = none)
      (hhand : s.hand = some job) (hroom : s.size < w.limit) :
      Step w s .owner { s with hand := none, running := s.running ++ [job] }
  | act {s : State Job World Failure} {job : Job} {rest : List Job}
      {result : Except Failure Nat} {world : World} (hrunning : s.running.Perm (job :: rest))
      (hacts : w.acts job s.world result world) :
      Step w s (.job job) { s with
        running := rest, finished := s.finished ++ [(job, result)], world := world }
  | join {s : State Job World Failure} {job : Job} {size : Nat}
      {rest : List (Job × Except Failure Nat)} (hgoing : s.outcome = none)
      (hjoins : s.Joins w.limit) (hfinished : s.finished.Perm ((job, .ok size) :: rest))
      (hbound : s.total + size < w.bound) :
      Step w s .owner { s with
        finished := rest, joined := s.joined ++ [(job, size)]
        count := s.count + 1, total := s.total + size }
  | overflow {s : State Job World Failure} {job : Job} {size : Nat} (hgoing : s.outcome = none)
      (hjoins : s.Joins w.limit) (hfinished : (job, .ok size) ∈ s.finished)
      (hbound : ¬ s.total + size < w.bound) :
      Step w s .owner { s with outcome := some .overflow }
  | fail {s : State Job World Failure} {job : Job} {failure : Failure}
      (hgoing : s.outcome = none) (hjoins : s.Joins w.limit)
      (hfinished : (job, .error failure) ∈ s.finished) :
      Step w s .owner { s with outcome := some (.failed failure) }
  | complete {s : State Job World Failure} (hgoing : s.outcome = none) (hhand : s.hand = none)
      (htodo : s.todo = []) (hrunning : s.running = []) (hfinished : s.finished = []) :
      Step w s .owner { s with outcome := some (.done s.count s.total) }

def system (w : Workload Job World Failure) (world : World) :
    System (State Job World Failure) (Action Job) where
  init s := s = .initial w.plan world
  step := Step w

variable {w : Workload Job World Failure} {world : World} {s t : State Job World Failure}
  {a : Action Job}

/-! What was started. -/

/-- The jobs that were started. -/
def State.started (s : State Job World Failure) : List Job :=
  s.joined.map Prod.fst ++ (s.finished.map Prod.fst ++ s.running)

/-- Every job of the plan is in one place, in its turn as long as it has not been started. -/
structure Inv (w : Workload Job World Failure) (s : State Job World Failure) : Prop where
  planned : ∃ front, w.plan = front ++ (s.hand.toList ++ s.todo) ∧ s.started.Perm front
  room : s.size ≤ w.limit
  counted : s.count = s.joined.length
  summed : s.total = (s.joined.map Prod.snd).sum
  returned : ∀ count total, s.outcome = some (.done count total) → count = s.count ∧
    total = s.total ∧ s.hand.toList ++ s.todo = [] ∧ s.finished = [] ∧ s.running = []

section Inv

theorem inv_initial : Inv w (.initial w.plan world) where
  planned := ⟨[], rfl, List.Perm.refl _⟩
  room := Nat.zero_le _
  counted := rfl
  summed := rfl
  returned _ _ h := by cases h

theorem started_start (job : Job) :
    State.started { s with hand := none, running := s.running ++ [job] } = s.started ++ [job] := by
  simp only [State.started, List.append_assoc]

theorem started_act {job : Job} {rest : List Job} {result : Except Failure Nat} {world : World}
    (hrunning : s.running.Perm (job :: rest)) :
    (State.started { s with
      running := rest, finished := s.finished ++ [(job, result)], world := world }).Perm
        s.started := by
  simp only [State.started, List.map_append, List.map_singleton, List.append_assoc,
    List.singleton_append]
  exact (hrunning.symm.append_left _).append_left _

theorem started_join {job : Job} {size count total : Nat}
    {rest : List (Job × Except Failure Nat)}
    (hfinished : s.finished.Perm ((job, .ok size) :: rest)) :
    (State.started { s with
      finished := rest, joined := s.joined ++ [(job, size)], count := count
      total := total }).Perm s.started := by
  simp only [State.started, List.map_append, List.map_singleton, List.append_assoc,
    List.singleton_append]
  have hjobs := ((hfinished.map Prod.fst).symm.append_right s.running).append_left
    (s.joined.map Prod.fst)
  simpa using hjobs

theorem Inv.step (h : Inv w s) (hstep : Step w s a t) : Inv w t := by
  obtain ⟨⟨front, hplan, hstarted⟩, hroom, hcounted, hsummed, hreturned⟩ := h
  cases hstep with
  | prepare hgoing hhand htodo =>
      refine ⟨⟨front, ?_, hstarted⟩, hroom, hcounted, hsummed, fun _ _ heq => ?_⟩
      · rw [hplan, hhand, htodo]
        rfl
      · simp [hgoing] at heq
  | refuse hgoing | overflow hgoing | fail hgoing =>
      exact ⟨⟨front, hplan, hstarted⟩, hroom, hcounted, hsummed, fun _ _ heq => by simp at heq⟩
  | @start job hgoing hhand hless =>
      refine ⟨⟨front ++ [job], ?_, ?_⟩, ?_, hcounted, hsummed, fun _ _ heq => ?_⟩
      · rw [hplan, hhand]
        simp
      · rw [started_start]
        exact hstarted.append_right [job]
      · simp only [State.size, List.length_append, List.length_singleton] at hless ⊢
        omega
      · simp [hgoing] at heq
  | @act job rest result world hrunning hacts =>
      have hlength := hrunning.length_eq
      refine ⟨⟨front, hplan, (started_act hrunning).trans hstarted⟩, ?_, hcounted, hsummed,
        fun _ _ heq => ?_⟩
      · simp only [State.size, List.length_append, List.length_cons, List.length_nil] at *
        omega
      · have hnone := (hreturned _ _ heq).2.2.2.2
        simp [hnone] at hlength
  | @join job size rest hgoing hjoins hfinished hbound =>
      have hlength := hfinished.length_eq
      refine ⟨⟨front, hplan, (started_join hfinished).trans hstarted⟩, ?_, ?_, ?_,
        fun _ _ heq => ?_⟩
      · simp only [State.size, List.length_cons] at *
        omega
      · simp [hcounted]
      · simp [hsummed]
      · simp [hgoing] at heq
  | complete hgoing hhand htodo hrunning hfinished =>
      refine ⟨⟨front, hplan, hstarted⟩, hroom, hcounted, hsummed, fun _ _ heq => ?_⟩
      obtain ⟨rfl, rfl⟩ := Outcome.done.inj (Option.some.inj heq)
      exact ⟨rfl, rfl, by simp [hhand, htodo], hfinished, hrunning⟩

theorem inv_of_reachable (h : (system w world).Reachable s) : Inv w s := by
  refine h.invariant ?_ fun _ _ _ hs hstep => hs.step hstep
  rintro _ rfl
  exact inv_initial

theorem joined_of_done (h : Inv w s) {count total : Nat}
    (hdone : s.outcome = some (.done count total)) :
    (s.joined.map Prod.fst).Perm w.plan ∧ count = s.joined.length ∧
      total = (s.joined.map Prod.snd).sum := by
  obtain ⟨rfl, rfl, hleft, hfinished, hrunning⟩ := h.returned count total hdone
  obtain ⟨front, hplan, hstarted⟩ := h.planned
  rw [hleft, List.append_nil] at hplan
  simp only [State.started, hfinished, hrunning, List.map_nil, List.append_nil] at hstarted
  exact ⟨hplan ▸ hstarted, h.counted, h.summed⟩

theorem Inv.mem_plan (h : Inv w s) {job : Job} (hjob : job ∈ s.started) : job ∈ w.plan := by
  obtain ⟨front, hplan, hstarted⟩ := h.planned
  rw [hplan]
  exact List.mem_append_left _ (hstarted.mem_iff.mp hjob)

theorem Inv.nodup (h : Inv w s) (hplan : w.plan.Nodup) : s.started.Nodup := by
  obtain ⟨front, heq, hstarted⟩ := h.planned
  rw [heq] at hplan
  exact hstarted.nodup_iff.mpr hplan.of_append_left

theorem Inv.mem_todo (h : Inv w s) {job : Job} (hjob : job ∈ s.todo) : job ∈ w.plan := by
  obtain ⟨front, heq, -⟩ := h.planned
  rw [heq]
  exact List.mem_append_right _ (List.mem_append_right _ hjob)

end Inv

/-! What becomes of the world. -/

section World

theorem mem_started_of_running {job : Job} (h : job ∈ s.running) : job ∈ s.started :=
  List.mem_append_right _ (List.mem_append_right _ h)

/-- What the owner and the jobs of the plan keep, holds on. -/
theorem keeps (keep : World → Prop) (hworld : keep world)
    (hprepare : ∀ job ∈ w.plan, ∀ before after, keep before →
      w.prepare job before = .ok after → keep after)
    (hacts : ∀ job ∈ w.plan, ∀ before result after, keep before →
      w.acts job before result after → keep after)
    (h : (system w world).Reachable s) : keep s.world := by
  refine System.Reachable.invariant_of (P := Inv w) (Q := fun s => keep s.world)
    (fun _ => inv_of_reachable) ?_ ?_ h
  · rintro _ rfl
    exact hworld
  · intro s a t hinv hs hstep
    cases hstep with
    | prepare _ _ htodo hprepared =>
        exact hprepare _ (hinv.mem_todo (by simp [htodo])) _ _ hs hprepared
    | act hrunning hacted =>
        have hjob := hinv.mem_plan (mem_started_of_running
          (hrunning.mem_iff.mpr List.mem_cons_self))
        exact hacts _ hjob _ _ _ hs hacted
    | _ => exact hs

/-- The jobs that returned without a failure, with what they returned. -/
def State.Done (s : State Job World Failure) (job : Job) (size : Nat) : Prop :=
  (job, .ok size) ∈ s.finished ∨ (job, size) ∈ s.joined

theorem mem_started_of_done {job : Job} {size : Nat} (h : s.Done job size) : job ∈ s.started := by
  rcases h with h | h
  · exact List.mem_append_right _ (List.mem_append_left _ (List.mem_map_of_mem (f := Prod.fst) h))
  · exact List.mem_append_left _ (List.mem_map_of_mem (f := Prod.fst) h)

/-- What a job brings about holds on when no other job undoes it. -/
theorem achieves (achieve : Job → Nat → World → Prop) (hplan : w.plan.Nodup)
    (hacts : ∀ job ∈ w.plan, ∀ before size after,
      w.acts job before (.ok size) after → achieve job size after)
    (hother : ∀ job ∈ w.plan, ∀ other ∈ w.plan, job ≠ other → ∀ size before result after,
      achieve job size before → w.acts other before result after → achieve job size after)
    (hprepare : ∀ job ∈ w.plan, ∀ other ∈ w.plan, ∀ size before after,
      achieve job size before → w.prepare other before = .ok after → achieve job size after)
    (h : (system w world).Reachable s) {job : Job} {size : Nat} (hdone : s.Done job size) :
    achieve job size s.world := by
  revert job size
  refine System.Reachable.invariant_of (P := Inv w)
    (Q := fun s => ∀ {job size}, s.Done job size → achieve job size s.world)
    (fun _ => inv_of_reachable) ?_ ?_ h
  · rintro _ rfl job size (hdone | hdone)
    · cases hdone
    · cases hdone
  · intro s a t hinv hs hstep job size hdone
    have hjob := fun hdone : s.Done job size => hinv.mem_plan (mem_started_of_done hdone)
    cases hstep with
    | @prepare other rest world _ _ htodo hprepared =>
        have hother := hinv.mem_todo (by rw [htodo]; exact List.mem_cons_self)
        exact hprepare job (hjob hdone) other hother _ _ _ (hs hdone) hprepared
    | @act other rest result world hrunning hacted =>
        have hmem : other ∈ s.running := hrunning.mem_iff.mpr List.mem_cons_self
        have hplanned := hinv.mem_plan (mem_started_of_running hmem)
        have hearlier (hbefore : s.Done job size) : achieve job size world := by
          refine hother job (hjob hbefore) other hplanned ?_ _ _ _ _ (hs hbefore) hacted
          -- a job that is running has not returned
          rintro rfl
          have hnodup := hinv.nodup hplan
          simp only [State.started, ← List.append_assoc] at hnodup
          refine List.disjoint_of_nodup_append hnodup ?_ hmem
          rcases hbefore with hbefore | hbefore
          · exact List.mem_append_right _ (List.mem_map_of_mem (f := Prod.fst) hbefore)
          · exact List.mem_append_left _ (List.mem_map_of_mem (f := Prod.fst) hbefore)
        rcases hdone with hdone | hdone
        · rcases List.mem_append.mp hdone with hdone | hdone
          · exact hearlier (.inl hdone)
          · obtain ⟨rfl, rfl⟩ := Prod.mk.inj (List.mem_singleton.mp hdone)
            exact hacts _ hplanned _ _ _ hacted
        · exact hearlier (.inr hdone)
    | @join other size' rest _ _ hfinished =>
        refine hs ?_
        rcases hdone with hdone | hdone
        · exact .inl (hfinished.mem_iff.mpr (List.mem_cons_of_mem _ hdone))
        · rcases List.mem_append.mp hdone with hdone | hdone
          · exact .inr hdone
          · obtain ⟨rfl, rfl⟩ := Prod.mk.inj (List.mem_singleton.mp hdone)
            exact .inl (hfinished.mem_iff.mpr List.mem_cons_self)
    | _ => exact hs hdone

end World

/-! The end. -/

/-- What is left to do: each job is prepared, started, run and joined. -/
def State.work (s : State Job World Failure) : Nat :=
  4 * s.todo.length + 3 * s.hand.toList.length + 2 * s.running.length + s.finished.length +
    if s.outcome.isNone then 1 else 0

section End

theorem work_lt (hstep : Step w s a t) : t.work < s.work := by
  cases hstep with
  | prepare hgoing hhand htodo =>
      simp only [State.work, hhand, htodo, Option.toList_none, Option.toList_some, List.length_cons,
        List.length_nil]
      omega
  | start hgoing hhand =>
      simp only [State.work, hhand, Option.toList_none, Option.toList_some, List.length_append,
        List.length_cons, List.length_nil]
      omega
  | act hrunning =>
      have hlength := hrunning.length_eq
      simp only [State.work, List.length_append, List.length_cons, List.length_nil] at hlength ⊢
      omega
  | join hgoing hjoins hfinished =>
      have hlength := hfinished.length_eq
      simp only [State.work, List.length_cons] at hlength ⊢
      omega
  | refuse hgoing | overflow hgoing | fail hgoing | complete hgoing =>
      simp [State.work, hgoing]

/-- Every run ends, at the latest when nothing is left to do. -/
theorem length_le_work {trace : List (State Job World Failure × Action Job)}
    (hrun : (system w world).Run s trace t) : trace.length + t.work ≤ s.work := by
  induction hrun with
  | nil => simp
  | cons hstep _ ih =>
      have hless := work_lt hstep
      rw [List.length_cons]
      omega

theorem work_le (h : (system w world).Reachable s) : s.work ≤ 4 * w.plan.length + 1 := by
  refine System.Reachable.invariant (P := fun s => s.work ≤ 4 * w.plan.length + 1) ?_
    (fun _ _ _ hs hstep => Nat.le_trans (Nat.le_of_lt (work_lt hstep)) hs) h
  rintro _ rfl
  simp [State.work, State.initial]

theorem started_of_outcome (houtcome : s.outcome ≠ none) (hrun : (system w world).Leads s t) :
    t.outcome = s.outcome ∧ t.started.Perm s.started := by
  refine hrun.preserves (P := fun t => t.outcome = s.outcome ∧ t.started.Perm s.started) ?_
    ⟨rfl, List.Perm.refl _⟩
  rintro u a v ⟨hu, hstarted⟩ hstep
  cases hstep with
  | act hrunning => exact ⟨hu, (started_act hrunning).trans hstarted⟩
  | _ => exact absurd (hu.symm.trans (by assumption)) houtcome

/-- Without an outcome, the owner can go on, unless it waits for a job that has not returned. -/
theorem goes_on (hlimit : 0 < w.limit) (hgoing : s.outcome = none) :
    (∃ t, Step w s .owner t) ∨
      s.Joins w.limit ∧ s.finished = [] ∧ s.running ≠ [] := by
  have hjoin (hjoins : s.Joins w.limit) {first : Job × Except Failure Nat}
      {rest : List (Job × Except Failure Nat)} (hfinished : s.finished = first :: rest) :
      ∃ t, Step w s .owner t := by
    obtain ⟨job, result⟩ := first
    cases result with
    | error failure => exact ⟨_, .fail hgoing hjoins (hfinished ▸ List.mem_cons_self)⟩
    | ok size =>
        by_cases hbound : s.total + size < w.bound
        · exact ⟨_, .join hgoing hjoins (.of_eq hfinished) hbound⟩
        · exact ⟨_, .overflow hgoing hjoins (hfinished ▸ List.mem_cons_self) hbound⟩
  cases hhand : s.hand with
  | some job =>
      by_cases hroom : s.size < w.limit
      · exact .inl ⟨_, .start hgoing hhand hroom⟩
      · have hjoins : s.Joins w.limit := .inl ⟨by simp [hhand], Nat.le_of_not_lt hroom⟩
        cases hfinished : s.finished with
        | nil =>
            refine .inr ⟨hjoins, rfl, fun hrunning => hroom ?_⟩
            rwa [State.size, hrunning, hfinished]
        | cons first rest => exact .inl (hjoin hjoins hfinished)
  | none =>
      cases htodo : s.todo with
      | cons job rest =>
          cases hprepare : w.prepare job s.world with
          | error failure => exact .inl ⟨_, .refuse hgoing hhand htodo hprepare⟩
          | ok world => exact .inl ⟨_, .prepare hgoing hhand htodo hprepare⟩
      | nil =>
          have hjoins : s.Joins w.limit := .inr ⟨hhand, htodo⟩
          cases hfinished : s.finished with
          | cons first rest => exact .inl (hjoin hjoins hfinished)
          | nil =>
              cases hrunning : s.running with
              | nil => exact .inl ⟨_, .complete hgoing hhand htodo hrunning hfinished⟩
              | cons job rest => exact .inr ⟨hjoins, rfl, List.cons_ne_nil _ _⟩

end End

end SideWire.JobPool
