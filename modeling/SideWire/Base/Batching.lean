import Mathlib.Algebra.GroupWithZero.Nat
import Mathlib.Data.List.Basic

/-!
Lists cut into batches under two limits, and requests that are made one after the other
until one of them fails.
-/

namespace SideWire.Batching

variable {α ε : Type*}

section Limits

variable (size : α → Nat) (count limit : Nat)

/-- A batch of at most so many elements, which is no larger than the limit unless it has a
single element. -/
structure Within (batch : List α) : Prop where
  nonempty : batch ≠ []
  few : batch.length ≤ count
  small : (batch.map size).sum ≤ limit ∨ batch.length = 1

/-- A list cut into batches within the limits. -/
structure Cut (list : List α) (batches : List (List α)) : Prop where
  flatten : batches.flatten = list
  within : ∀ batch ∈ batches, Within size count limit batch

variable {size count limit} {list : List α} {batches : List (List α)}

theorem Cut.nil : Cut size count limit [] [] := ⟨rfl, nofun⟩

theorem Cut.cons {batch : List α} (hbatch : Within size count limit batch)
    (hrest : Cut size count limit list batches) :
    Cut size count limit (batch ++ list) (batch :: batches) where
  flatten := by rw [List.flatten_cons, hrest.flatten]
  within := by
    rintro other hother
    rcases List.mem_cons.mp hother with rfl | hother
    · exact hbatch
    · exact hrest.within other hother

end Limits

section Requests

/-- Makes the requests in their order until one fails, and returns those that were made. What
comes of a request may depend on those made before it. -/
def perform (act : List α → α → Except ε Unit) (made : List α) :
    List α → Except ε Unit × List α
  | [] => (.ok (), made)
  | request :: requests =>
      match act made request with
      | .error error => (.error error, made ++ [request])
      | .ok () => perform act (made ++ [request]) requests

/-- Each request succeeds after those before it. -/
def Succeed (act : List α → α → Except ε Unit) (requests : List α) : Prop :=
  ∀ before request after, requests = before ++ request :: after → act before request = .ok ()

variable {act : List α → α → Except ε Unit} {made requests : List α}

theorem succeed_nil : Succeed act [] := by
  intro before request after heq
  simp at heq

theorem Succeed.snoc (h : Succeed act made) {request : α} (hact : act made request = .ok ()) :
    Succeed act (made ++ [request]) := by
  intro before request' after heq
  rcases List.eq_nil_or_concat after with rfl | ⟨after, last, rfl⟩
  · obtain ⟨rfl, hlast⟩ := List.append_inj' heq rfl
    obtain rfl := List.singleton_inj.mp hlast
    exact hact
  · have hsplit : made ++ [request] = (before ++ request' :: after) ++ [last] := by
      simpa using heq
    exact h before request' after (List.append_inj' hsplit rfl).1

theorem perform_of_succeed (h : Succeed act made) (requests : List α) :
    (Succeed act (made ++ requests) ∧ perform act made requests = (.ok (), made ++ requests)) ∨
      ∃ earlier request later error, requests = earlier ++ request :: later ∧
        Succeed act (made ++ earlier) ∧ act (made ++ earlier) request = .error error ∧
        perform act made requests = (.error error, made ++ earlier ++ [request]) := by
  induction requests generalizing made with
  | nil =>
      rw [List.append_nil]
      exact .inl ⟨h, rfl⟩
  | cons request requests ih =>
      rw [perform]
      cases hact : act made request with
      | error error =>
          refine .inr ⟨[], request, requests, error, rfl, ?_, ?_, ?_⟩
          · rwa [List.append_nil]
          · rwa [List.append_nil]
          · rw [List.append_nil]
      | ok =>
          rcases ih (h.snoc hact) with ⟨hall, hperform⟩ |
            ⟨earlier, failing, later, error, rfl, hstep⟩
          · rw [List.append_assoc, List.singleton_append] at hall hperform
            exact .inl ⟨hall, hperform⟩
          · rw [List.append_assoc, List.singleton_append] at hstep
            exact .inr ⟨request :: earlier, failing, later, error, rfl, hstep⟩

/-- All requests are made and succeed, or one fails and no later one is made. -/
theorem perform_spec (act : List α → α → Except ε Unit) (requests : List α) :
    (Succeed act requests ∧ perform act [] requests = (.ok (), requests)) ∨
      ∃ earlier request later error, requests = earlier ++ request :: later ∧
        Succeed act earlier ∧ act earlier request = .error error ∧
        perform act [] requests = (.error error, earlier ++ [request]) :=
  perform_of_succeed succeed_nil requests

end Requests

end SideWire.Batching
