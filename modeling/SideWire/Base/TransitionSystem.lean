import Mathlib.Logic.Relation

namespace SideWire.TransitionSystem

/-- A labelled transition system with a set of initial states. -/
structure System (State Action : Type*) where
  init : State → Prop
  step : State → Action → State → Prop

namespace System

variable {State Action : Type*} (M : System State Action)

/-- One step, whatever its label. -/
def Next (s t : State) : Prop := ∃ a, M.step s a t

/-- One step whose label satisfies `who`: the steps of one party. -/
def NextBy (who : Action → Prop) (s t : State) : Prop :=
  ∃ a, who a ∧ M.step s a t

/-- Zero or more steps. -/
def Leads : State → State → Prop := Relation.ReflTransGen M.Next

/-- Zero or more steps of one party alone. -/
def LeadsBy (who : Action → Prop) : State → State → Prop :=
  Relation.ReflTransGen (M.NextBy who)

/-- The states some run from an initial state ends in. -/
def Reachable (t : State) : Prop := ∃ s, M.init s ∧ M.Leads s t

variable {M}

theorem Leads.single {s t : State} {a : Action} (h : M.step s a t) : M.Leads s t :=
  Relation.ReflTransGen.single ⟨a, h⟩

theorem Leads.head {s t u : State} {a : Action} (h : M.step s a t)
    (hrest : M.Leads t u) : M.Leads s u :=
  Relation.ReflTransGen.head ⟨a, h⟩ hrest

theorem Leads.tail {s t u : State} {a : Action} (hrun : M.Leads s t)
    (h : M.step t a u) : M.Leads s u :=
  Relation.ReflTransGen.tail hrun ⟨a, h⟩

theorem Leads.of_eq {s t : State} (h : s = t) : M.Leads s t := h ▸ .refl

theorem Leads.to_eq {s t u : State} (hrun : M.Leads s t) (h : t = u) : M.Leads s u :=
  h ▸ hrun

theorem Leads.consume {α : Type*} {whole : List α} {f : List α → List α → State}
    (hstep : ∀ moved x rest, moved ++ x :: rest = whole →
      M.Next (f moved (x :: rest)) (f (moved ++ [x]) rest))
    {moved rest : List α} (h : moved ++ rest = whole) : M.Leads (f moved rest) (f whole []) := by
  induction rest generalizing moved with
  | nil =>
      rw [← h, List.append_nil]
      exact .refl
  | cons x rest ih =>
      exact Relation.ReflTransGen.head (hstep moved x rest h) (ih (by simpa using h))

theorem LeadsBy.head {who : Action → Prop} {s t u : State} {a : Action}
    (hwho : who a) (h : M.step s a t) (hrest : M.LeadsBy who t u) :
    M.LeadsBy who s u :=
  Relation.ReflTransGen.head ⟨a, hwho, h⟩ hrest

theorem LeadsBy.tail {who : Action → Prop} {s t u : State} {a : Action}
    (hrun : M.LeadsBy who s t) (h : M.step t a u) (hwho : who a) : M.LeadsBy who s u :=
  Relation.ReflTransGen.tail hrun ⟨a, hwho, h⟩

theorem LeadsBy.of_eq {who : Action → Prop} {s t : State} (h : s = t) : M.LeadsBy who s t :=
  h ▸ .refl

theorem LeadsBy.mono {who who' : Action → Prop} (hwho : ∀ a, who a → who' a) {s t : State}
    (h : M.LeadsBy who s t) : M.LeadsBy who' s t := by
  refine Relation.ReflTransGen.mono ?_ s t h
  rintro u v ⟨a, ha, hstep⟩
  exact ⟨a, hwho a ha, hstep⟩

theorem LeadsBy.leads {who : Action → Prop} {s t : State} (h : M.LeadsBy who s t) :
    M.Leads s t := by
  refine Relation.ReflTransGen.mono ?_ s t h
  rintro u v ⟨a, -, hstep⟩
  exact ⟨a, hstep⟩

theorem Reachable.leads {s t : State} (hs : M.Reachable s) (h : M.Leads s t) :
    M.Reachable t := by
  obtain ⟨s₀, hinit, hrun⟩ := hs
  exact ⟨s₀, hinit, hrun.trans h⟩

theorem Leads.preserves {P : State → Prop}
    (hstep : ∀ s a t, P s → M.step s a t → P t)
    {s t : State} (hrun : M.Leads s t) (hs : P s) : P t := by
  induction hrun with
  | refl => exact hs
  | tail _ hnext ih =>
      obtain ⟨a, ha⟩ := hnext
      exact hstep _ a _ ih ha

/-- An inductive invariant holds of every reachable state. -/
theorem Reachable.invariant {P : State → Prop}
    (hinit : ∀ s, M.init s → P s)
    (hstep : ∀ s a t, P s → M.step s a t → P t)
    {t : State} (h : M.Reachable t) : P t := by
  obtain ⟨s, hs, hrun⟩ := h
  exact hrun.preserves hstep (hinit s hs)

/-- An invariant may lean on one that is already known of reachable states. -/
theorem Reachable.invariant_of {P Q : State → Prop}
    (hP : ∀ s, M.Reachable s → P s)
    (hinit : ∀ s, M.init s → Q s)
    (hstep : ∀ s a t, P s → Q s → M.step s a t → Q t)
    {t : State} (h : M.Reachable t) : Q t := by
  obtain ⟨s, hs, hrun⟩ := h
  have hboth : M.Reachable t ∧ Q t := by
    refine hrun.preserves (P := fun u => M.Reachable u ∧ Q u) ?_
      ⟨⟨s, hs, .refl⟩, hinit s hs⟩
    rintro u a v ⟨hu, hq⟩ huv
    exact ⟨hu.leads (.single huv), hstep u a v (hP u hu) hq huv⟩
  exact hboth.2

/-- A simulation by runs carries reachability over. -/
theorem Reachable.simulate {State' Action' : Type*} {N : System State' Action'}
    (abs : State → State') {P : State → Prop}
    (hP : ∀ s, M.Reachable s → P s)
    (hinit : ∀ s, M.init s → N.init (abs s))
    (hstep : ∀ s a t, P s → M.step s a t → N.Leads (abs s) (abs t))
    {t : State} (h : M.Reachable t) : N.Reachable (abs t) := by
  refine h.invariant_of (P := P) (Q := fun u => N.Reachable (abs u)) hP ?_ ?_
  · intro s hs
    exact ⟨abs s, hinit s hs, .refl⟩
  · intro s a u hs ih hsu
    exact ih.leads (hstep s a u hs hsu)

/-- A run with the state before each step and the action taken there. -/
inductive Run (M : System State Action) :
    State → List (State × Action) → State → Prop
  | nil (s : State) : Run M s [] s
  | cons {s t u : State} {a : Action} {trace : List (State × Action)} :
      M.step s a t → Run M t trace u → Run M s ((s, a) :: trace) u

/-- Every state a run goes through, its last one included. -/
def visited (trace : List (State × Action)) (last : State) : List State :=
  trace.map Prod.fst ++ [last]

/-- Along a run whose steps all meet `ok`, an invariant kept by such steps
holds of every state visited. -/
theorem Run.visited_of_steps {P : State → Prop} (ok : State → Action → Prop)
    (hstep : ∀ s a t, P s → ok s a → M.step s a t → P t)
    {s t : State} {trace : List (State × Action)} (hrun : M.Run s trace t)
    (hs : P s) (hok : ∀ p ∈ trace, ok p.1 p.2) :
    ∀ u ∈ visited trace t, P u := by
  induction hrun with
  | nil s =>
      intro u hu
      have hu : u = s := by simpa [visited] using hu
      exact hu ▸ hs
  | @cons s v w a rest hsv _ ih =>
      intro u hu
      rcases List.mem_cons.mp hu with rfl | hu
      · exact hs
      · exact ih (hstep s a v hs (hok (s, a) (by simp)) hsv)
          (fun p hp => hok p (by simp [hp])) u hu

theorem Run.step_visited {s t : State} {trace : List (State × Action)}
    (hrun : M.Run s trace t) {u : State} {a : Action} (hmem : (u, a) ∈ trace) :
    ∃ v, M.step u a v ∧ v ∈ visited trace t := by
  induction hrun with
  | nil => simp at hmem
  | @cons s v w b rest hsv hrest ih =>
      rcases List.mem_cons.mp hmem with heq | hmem
      · obtain ⟨rfl, rfl⟩ := Prod.mk.inj heq
        refine ⟨v, hsv, ?_⟩
        cases hrest <;> simp [visited]
      · obtain ⟨x, hx, hxmem⟩ := ih hmem
        exact ⟨x, hx, List.mem_cons_of_mem _ hxmem⟩

theorem Run.leads {s t : State} {trace : List (State × Action)}
    (hrun : M.Run s trace t) : M.Leads s t := by
  induction hrun with
  | nil s => exact .refl
  | cons hstep _ ih => exact Leads.head hstep ih

variable (M) in
/-- A run of one party alone that stands still only where the party can do nothing. -/
def MaximalRun (who : Action → Prop) (run : Nat → State) : Prop :=
  ∀ n, M.NextBy who (run n) (run (n + 1)) ∨
    run (n + 1) = run n ∧ ∀ t, ¬ M.NextBy who (run n) t

theorem exists_maximalRun (who : Action → Prop) (s : State) :
    ∃ run, M.MaximalRun who run ∧ run 0 = s := by
  classical
  let next (s : State) : State := if h : ∃ t, M.NextBy who s t then h.choose else s
  let run (n : Nat) : State := Nat.rec s (fun _ => next) n
  refine ⟨run, fun n => ?_, rfl⟩
  have hafter : run (n + 1) = next (run n) := rfl
  by_cases h : ∃ t, M.NextBy who (run n) t
  · refine .inl ?_
    rw [hafter]
    simpa only [next, dif_pos h] using h.choose_spec
  · exact .inr ⟨hafter.trans (dif_neg h), fun t ht => h ⟨t, ht⟩⟩

/-- Where a party is never stuck before its goal, and each of its steps takes from a store of
work or reaches the goal, every maximal run of the party reaches it. -/
theorem MaximalRun.reaches {who : Action → Prop} {P : State → Prop} (Goal : State → Prop)
    {work : State → Nat} (hnext : ∀ s, P s → ∃ t, M.NextBy who s t)
    (hstep : ∀ s t, P s → M.NextBy who s t → Goal t ∨ P t ∧ work t < work s)
    {run : Nat → State} (hrun : M.MaximalRun who run) {start : Nat} (hstart : P (run start)) :
    ∃ n ≤ start + work (run start) + 1, Goal (run n) := by
  induction hwork : work (run start) using Nat.strongRecOn generalizing start with
  | _ bound ih =>
      rcases hrun start with hmove | ⟨-, hstuck⟩
      · rcases hstep _ _ hstart hmove with hgoal | ⟨hafter, hless⟩
        · exact ⟨start + 1, by omega, hgoal⟩
        · obtain ⟨n, hn, hgoal⟩ := ih _ (hwork ▸ hless) hafter rfl
          exact ⟨n, by omega, hgoal⟩
      · obtain ⟨t, ht⟩ := hnext _ hstart
        exact absurd ht (hstuck t)

variable (M) in
/-- Some run whose steps all meet `ok`. -/
def LeadsWith (ok : State → Action → Prop) (s t : State) : Prop :=
  ∃ trace, M.Run s trace t ∧ ∀ p ∈ trace, ok p.1 p.2

theorem LeadsWith.refl {ok : State → Action → Prop} (s : State) : M.LeadsWith ok s s :=
  ⟨[], .nil s, by simp⟩

theorem LeadsWith.head {ok : State → Action → Prop} {s t u : State} {a : Action}
    (h : M.step s a t) (hok : ok s a) (hrest : M.LeadsWith ok t u) : M.LeadsWith ok s u := by
  obtain ⟨trace, hrun, htrace⟩ := hrest
  exact ⟨(s, a) :: trace, .cons h hrun, List.forall_mem_cons.mpr ⟨hok, htrace⟩⟩

theorem Run.append {s t u : State} {first second : List (State × Action)}
    (hfirst : M.Run s first t) (hsecond : M.Run t second u) : M.Run s (first ++ second) u := by
  induction hfirst with
  | nil s => exact hsecond
  | cons hstep _ ih => exact .cons hstep (ih hsecond)

theorem LeadsWith.trans {ok : State → Action → Prop} {s t u : State}
    (hfirst : M.LeadsWith ok s t) (hsecond : M.LeadsWith ok t u) : M.LeadsWith ok s u := by
  obtain ⟨first, hrun, hok⟩ := hfirst
  obtain ⟨second, hrun', hok'⟩ := hsecond
  exact ⟨first ++ second, hrun.append hrun', List.forall_mem_append.mpr ⟨hok, hok'⟩⟩

theorem LeadsWith.leads {ok : State → Action → Prop} {s t : State}
    (h : M.LeadsWith ok s t) : M.Leads s t := by
  obtain ⟨_, hrun, _⟩ := h
  exact hrun.leads

end System

end SideWire.TransitionSystem
