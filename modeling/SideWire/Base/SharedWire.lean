import Mathlib.Data.List.Basic
import SideWire.Base.TransitionSystem

/-!
A system of one stream whose two wires carry messages of other streams as well. Whatever the
others send, the stream does nothing that it could not do alone.
-/

namespace SideWire.SharedWire

open SideWire.TransitionSystem

variable {Own Other : Type*}

/-- What a wire carries for the stream. -/
def own (wire : List (Own ⊕ Other)) : List Own := wire.filterMap Sum.getLeft?

@[simp] theorem own_map_inl (messages : List Own) :
    own (messages.map (Sum.inl : Own → Own ⊕ Other)) = messages := by
  induction messages with
  | nil => rfl
  | cons message messages ih => exact congrArg (message :: ·) ih

/-- What a step of the stream does to a wire: nothing, or it sends some messages, or it takes
the message at the front. -/
inductive Moves : List (Own ⊕ Other) → List (Own ⊕ Other) → Prop
  | stay (wire : List (Own ⊕ Other)) : Moves wire wire
  | send (wire : List (Own ⊕ Other)) (messages : List Own) :
      Moves wire (wire ++ messages.map .inl)
  | take (message : Own) (wire : List (Own ⊕ Other)) : Moves (.inl message :: wire) wire

/-- What the other streams do to a wire. -/
inductive Passes : List (Own ⊕ Other) → List (Own ⊕ Other) → Prop
  | stay (wire : List (Own ⊕ Other)) : Passes wire wire
  | send (wire : List (Own ⊕ Other)) (message : Other) : Passes wire (wire ++ [.inr message])
  | take (message : Other) (wire : List (Own ⊕ Other)) : Passes (.inr message :: wire) wire

/-- The two ends of a wire that the stream has to itself. -/
inductive MovesAlone : List Own → List Own → Prop
  | stay (messages : List Own) : MovesAlone messages messages
  | send (messages more : List Own) : MovesAlone messages (messages ++ more)
  | take (message : Own) (messages : List Own) : MovesAlone (message :: messages) messages

theorem MovesAlone.moves {messages messages' : List Own} (h : MovesAlone messages messages') :
    Moves (messages.map (Sum.inl : Own → Own ⊕ Other)) (messages'.map Sum.inl) := by
  cases h with
  | stay => exact .stay _
  | send =>
      rw [List.map_append]
      exact .send _ _
  | take => exact .take _ _

variable {State Action : Type*}

/-- A state of the stream, with its messages where they are on the shared wires. -/
structure Shared (toFirst toSecond : State → List Own) (Other : Type*) where
  state : State
  first : List (Own ⊕ Other)
  second : List (Own ⊕ Other)
  first_eq : own first = toFirst state
  second_eq : own second = toSecond state

variable {toFirst toSecond : State → List Own}

/-- A step of the stream, or of the others. -/
inductive SharedStep (M : System State Action) :
    Shared toFirst toSecond Other → Option Action → Shared toFirst toSecond Other → Prop
  | own {c d : Shared toFirst toSecond Other} {a : Action} (hstep : M.step c.state a d.state)
      (hfirst : Moves c.first d.first) (hsecond : Moves c.second d.second) :
      SharedStep M c (some a) d
  | others {c d : Shared toFirst toSecond Other} (hstate : d.state = c.state)
      (hfirst : Passes c.first d.first) (hsecond : Passes c.second d.second) :
      SharedStep M c none d

/-- The system on shared wires, which are empty at first. -/
def share (M : System State Action) (toFirst toSecond : State → List Own) (Other : Type*) :
    System (Shared toFirst toSecond Other) (Option Action) where
  init := fun c => M.init c.state ∧ c.first = [] ∧ c.second = []
  step := SharedStep M

theorem reachable_state {M : System State Action} {c : Shared toFirst toSecond Other}
    (h : (share M toFirst toSecond Other).Reachable c) : M.Reachable c.state := by
  refine h.simulate (P := fun _ => True) Shared.state (fun _ _ => trivial) ?_ ?_
  · rintro c ⟨hinit, -, -⟩
    exact hinit
  · rintro c a d - hstep
    cases hstep with
    | own hstep => exact .single hstep
    | others hstate => exact .of_eq hstate.symm

/-- Every step of the stream moves its messages as on wires of its own. -/
def WiresMove (M : System State Action) (toFirst toSecond : State → List Own) : Prop :=
  ∀ s a t, M.step s a t →
    MovesAlone (toFirst s) (toFirst t) ∧ MovesAlone (toSecond s) (toSecond t)

variable (toFirst toSecond) in
/-- A state in which nobody else uses the wires. -/
def alone (Other : Type*) (s : State) : Shared toFirst toSecond Other where
  state := s
  first := (toFirst s).map .inl
  second := (toSecond s).map .inl
  first_eq := own_map_inl _
  second_eq := own_map_inl _

theorem step_alone {M : System State Action} (Other : Type*)
    (hmoves : WiresMove M toFirst toSecond) {s t : State} {a : Action} (h : M.step s a t) :
    (share M toFirst toSecond Other).step (alone toFirst toSecond Other s) (some a)
      (alone toFirst toSecond Other t) := by
  obtain ⟨hfirst, hsecond⟩ := hmoves s a t h
  exact .own h hfirst.moves hsecond.moves

/-- On wires that nobody else uses, the stream does what it does alone. -/
theorem reachable_alone {M : System State Action} (Other : Type*)
    (hinit : ∀ s, M.init s → toFirst s = [] ∧ toSecond s = [])
    (hmoves : WiresMove M toFirst toSecond) {s : State} (h : M.Reachable s) :
    (share M toFirst toSecond Other).Reachable (alone toFirst toSecond Other s) := by
  refine h.simulate (P := fun _ => True) (alone toFirst toSecond Other) (fun _ _ => trivial) ?_ ?_
  · intro s hs
    obtain ⟨hfirst, hsecond⟩ := hinit s hs
    exact ⟨hs, by simp [alone, hfirst], by simp [alone, hsecond]⟩
  · rintro s a t - hstep
    exact .single (step_alone Other hmoves hstep)

end SideWire.SharedWire
