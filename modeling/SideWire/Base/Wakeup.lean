import Mathlib.Logic.Basic

/-!
A waiter creates a future for each of some conditions, then looks at the conditions, and then
sleeps. Who makes a condition true notifies the waiters afterwards.
-/

namespace SideWire.Wakeup

/-- A future for the next notification, once it is created. -/
inductive Notified
  | absent
  | waiting
  | completed
  deriving DecidableEq

/-- A notification leaves nothing behind for futures that are created later. -/
def Notified.wake : Notified → Notified
  | .waiting => .completed
  | future => future

theorem Notified.wake_of_ne_absent {future : Notified} (h : future ≠ .absent) :
    future.wake = .completed := by
  cases future with
  | absent => exact absurd rfl h
  | waiting => rfl
  | completed => rfl

/-- The conditions as one waiter has them: it has created its futures for some, has looked at
those in `checked` since, and someone has still to notify it of those in `signaling`. -/
structure View (ι : Type*) where
  future : ι → Notified
  created : ι → Prop
  checked : ι → Prop
  ready : ι → Prop
  signaling : ι → Prop

namespace View

variable {ι : Type*} {v v' : View ι}

/-- The future came before the look, and what was made true after the look is notified. -/
structure Watched (v : View ι) : Prop where
  created : ∀ i, v.created i → v.future i ≠ .absent
  ordered : ∀ i, v.checked i → v.created i
  notified : ∀ i, v.checked i → v.ready i → v.future i = .completed ∨ v.signaling i

/-- What a step must keep to. The waiter itself may look at a condition and find it unmet;
whoever else makes one true has to notify, and does not forget it. -/
structure Disturbs (v v' : View ι) : Prop where
  created : ∀ i, v'.created i ↔ v.created i
  checked : ∀ i, v'.checked i → v.checked i ∨ (v.created i ∧ ¬ v'.ready i)
  future : ∀ i, v'.future i = v.future i ∨ v'.future i = (v.future i).wake
  raised : ∀ i, v'.ready i → v.ready i ∨ v'.signaling i ∨ v'.future i = (v.future i).wake
  notified : ∀ i, v'.ready i → v.signaling i →
    v'.signaling i ∨ v'.future i = (v.future i).wake

theorem Disturbs.of_others (hcreated : v'.created = v.created)
    (hchecked : v'.checked = v.checked) (hfuture : v'.future = v.future)
    (hraised : ∀ i, v'.ready i → v.ready i ∨ v'.signaling i)
    (hnotified : ∀ i, v'.ready i → v.signaling i → v'.signaling i) : Disturbs v v' where
  created i := by rw [hcreated]
  checked i h := .inl (hchecked ▸ h)
  future i := .inl (congrFun hfuture i)
  raised i h := (hraised i h).imp_right .inl
  notified i h hsignaling := .inl (hnotified i h hsignaling)

theorem Disturbs.of_look (j : ι) (hcreated : v'.created = v.created)
    (hfuture : v'.future = v.future) (hready : v'.ready = v.ready)
    (hsignaling : v'.signaling = v.signaling)
    (hchecked : ∀ i, v'.checked i → v.checked i ∨ i = j) (hj : v.created j)
    (hunmet : ¬ v.ready j) : Disturbs v v' where
  created i := by rw [hcreated]
  checked i h := (hchecked i h).imp_right fun hi => by
    rw [hi, hready]
    exact ⟨hj, hunmet⟩
  future i := .inl (congrFun hfuture i)
  raised i h := .inl (hready ▸ h)
  notified i _ h := .inl (hsignaling ▸ h)

theorem Disturbs.ne_absent (h : Disturbs v v') {i : ι} (hfuture : v.future i ≠ .absent) :
    v'.future i ≠ .absent := by
  rcases h.future i with hsame | hwoken
  · rwa [hsame]
  · rw [hwoken, Notified.wake_of_ne_absent hfuture]
    exact nofun

theorem Disturbs.completed (h : Disturbs v v') {i : ι} (hfuture : v.future i = .completed) :
    v'.future i = .completed := by
  rcases h.future i with hsame | hwoken
  · rwa [hsame]
  · rw [hwoken, hfuture]
    rfl

theorem Watched.disturbed (h : v.Watched) (hstep : Disturbs v v') : v'.Watched where
  created i hcreated := hstep.ne_absent (h.created i ((hstep.created i).mp hcreated))
  ordered i hchecked := by
    rw [hstep.created]
    exact (hstep.checked i hchecked).elim (h.ordered i) And.left
  notified i hchecked hready := by
    rcases hstep.checked i hchecked with hbefore | ⟨_, hunmet⟩
    · have hfuture := h.created i (h.ordered i hbefore)
      have hwoken : v'.signaling i ∨ v'.future i = (v.future i).wake →
          v'.future i = .completed ∨ v'.signaling i := by
        rw [Notified.wake_of_ne_absent hfuture]
        exact Or.symm
      rcases hstep.raised i hready with hearlier | hraised
      · rcases h.notified i hbefore hearlier with hcompleted | hsignaling
        · exact .inl (hstep.completed hcompleted)
        · exact hwoken (hstep.notified i hready hsignaling)
      · exact hwoken hraised
    · exact absurd hready hunmet

theorem Watched.of_unchecked (hcreated : ∀ i, v.created i → v.future i ≠ .absent)
    (h : ∀ i, ¬ v.checked i) : v.Watched where
  created := hcreated
  ordered i hchecked := absurd hchecked (h i)
  notified i hchecked := absurd hchecked (h i)

/-- A waiter that sleeps on a condition that is met is still to be notified. -/
theorem Watched.signaling (h : v.Watched) {i : ι} (hchecked : v.checked i)
    (hasleep : v.future i ≠ .completed) (hready : v.ready i) : v.signaling i :=
  (h.notified i hchecked hready).resolve_left hasleep

end View

end SideWire.Wakeup
