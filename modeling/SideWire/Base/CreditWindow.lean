import Mathlib.Algebra.BigOperators.Group.List.Basic
import Mathlib.Algebra.GroupWithZero.Nat
import Mathlib.Data.List.Induction
import SideWire.Base.TransitionSystem

/-!
Credit windows with batched updates. A receiver opens a window of bytes once;
a sender spends it; what the receiver has consumed flows back as credit, but
only in batches that have reached a threshold.
-/

namespace SideWire.CreditWindow

open SideWire.TransitionSystem

/-- A window of `size` bytes whose updates wait for a batch of `threshold`. -/
structure Window where
  size : Nat
  threshold : Nat
  threshold_pos : 0 < threshold

variable (w : Window)

/-- Account for `bytes` more consumed bytes: what stays unreported, and the
batch to report when the threshold is reached. -/
def account (pending bytes : Nat) : Nat × Option Nat :=
  if w.threshold ≤ pending + bytes then (0, some (pending + bytes))
  else (pending + bytes, none)

/-- The bytes still unreported after consuming chunks of the given sizes. -/
def unreported (chunks : List Nat) : Nat :=
  chunks.foldl (fun pending bytes => (account w pending bytes).1) 0

@[simp] theorem unreported_nil : unreported w [] = 0 := rfl

@[simp] theorem unreported_concat (chunks : List Nat) (bytes : Nat) :
    unreported w (chunks ++ [bytes]) =
      (account w (unreported w chunks) bytes).1 := by
  simp [unreported]

theorem account_split (pending bytes : Nat) :
    (account w pending bytes).1 + (account w pending bytes).2.getD 0 =
      pending + bytes := by
  unfold account
  split <;> simp

theorem account_lt (pending bytes : Nat) :
    (account w pending bytes).1 < w.threshold := by
  unfold account
  split
  · exact w.threshold_pos
  · omega

theorem threshold_le_of_account {pending bytes batch : Nat}
    (h : (account w pending bytes).2 = some batch) : w.threshold ≤ batch := by
  unfold account at h
  split at h
  · rename_i hle
    have hbatch : pending + bytes = batch := by simpa using h
    omega
  · simp at h

theorem unreported_lt (chunks : List Nat) :
    unreported w chunks < w.threshold := by
  induction chunks using List.reverseRecOn with
  | nil => exact w.threshold_pos
  | append_singleton chunks bytes _ =>
      rw [unreported_concat]
      exact account_lt w _ _

/-- No `capacity + 1` frames in a row fit into what is left of the window once
`i ≤ limit` chunks are consumed: the next `capacity + 1` chunks, or the last
`capacity` ones with an end marker behind them, weigh more than the window less
the unreported bytes. -/
def NoBurst (capacity limit : Nat) (chunks : List Nat) : Prop :=
  ∀ i ≤ limit, i + capacity ≤ chunks.length →
    w.size < unreported w (chunks.take i) +
      ((chunks.drop i).take (capacity + 1)).sum

theorem sum_take_add (chunks : List Nat) (i n : Nat) :
    (chunks.take (i + n)).sum =
      (chunks.take i).sum + ((chunks.drop i).take n).sum := by
  rw [List.take_add, List.sum_append]

theorem sum_take_mono (chunks : List Nat) {i j : Nat} (hij : i ≤ j) :
    (chunks.take i).sum ≤ (chunks.take j).sum := by
  obtain ⟨n, rfl⟩ := Nat.exists_eq_add_of_le hij
  rw [sum_take_add]
  exact Nat.le_add_right _ _

theorem exists_first_exceeding {items : List Nat} {budget : Nat}
    (h : budget < items.sum) :
    ∃ m, ∃ hm : m < items.length, (items.take m).sum ≤ budget ∧
      budget < (items.take m).sum + items[m] := by
  induction items generalizing budget with
  | nil => simp at h
  | cons item items ih =>
      by_cases hitem : budget < item
      · exact ⟨0, by simp, by simp, by simpa using hitem⟩
      · rw [List.sum_cons] at h
        obtain ⟨m, hm, hle, hlt⟩ := ih (show budget - item < items.sum by omega)
        refine ⟨m + 1, by simpa using hm, ?_, ?_⟩
        · rw [List.take_succ_cons, List.sum_cons]
          omega
        · rw [List.take_succ_cons, List.sum_cons, List.getElem_cons_succ]
          omega

variable {w} in
/-- Without a burst, `capacity + 1` frames past the ones popped do not fit into
the window and the batches reported so far. -/
theorem NoBurst.window_lt {capacity limit : Nat} {chunks : List Nat}
    (h : NoBurst w capacity limit chunks) (accounted popped : Nat)
    (hlimit : accounted ≤ limit) (hle : accounted ≤ popped)
    (hmore : popped + capacity ≤ chunks.length) :
    w.size + (chunks.take accounted).sum <
      unreported w (chunks.take accounted) +
        (chunks.take (popped + (capacity + 1))).sum := by
  have hburst := h accounted hlimit (by omega)
  have hmono := sum_take_mono chunks
    (show accounted + (capacity + 1) ≤ popped + (capacity + 1) by omega)
  rw [sum_take_add] at hmono
  omega

/-- Where the bytes of a window are: with the sender as credit, on their way
to it as grants, on their way to the receiver as data, or consumed and not yet
reported. A ledger is no longer `intact` once a grant may have been lost. -/
structure Ledger where
  opened : Bool
  intact : Bool
  credit : Nat
  granting : Nat
  flight : Nat
  pending : Nat
  deriving DecidableEq

namespace Ledger

/-- Nothing granted, nothing sent. -/
def empty : Ledger := ⟨false, true, 0, 0, 0, 0⟩

inductive Step : Ledger → Unit → Ledger → Prop
  | openWindow (l : Ledger) (h : l.opened = false) :
      Step l () { l with opened := true, granting := l.granting + w.size }
  | take (l : Ledger) (bytes : Nat) (h : bytes ≤ l.credit) :
      Step l () { l with credit := l.credit - bytes, flight := l.flight + bytes }
  | consume (l : Ledger) (bytes : Nat) (h : bytes ≤ l.flight) :
      Step l () { l with
        flight := l.flight - bytes
        pending := (account w l.pending bytes).1
        granting := l.granting + (account w l.pending bytes).2.getD 0 }
  | receive (l : Ledger) (bytes : Nat) (h : bytes ≤ l.granting) :
      Step l () { l with
        granting := l.granting - bytes, credit := l.credit + bytes }
  | lose (l : Ledger) (bytes : Nat) (h : bytes ≤ l.granting) :
      Step l () { l with intact := false, granting := l.granting - bytes }

/-- The credit-window protocol from its empty ledger. -/
def system : System Ledger Unit where
  init := fun l => l = empty
  step := Step w

/-- All bytes that the ledger knows of. -/
def total (l : Ledger) : Nat := l.credit + l.granting + l.flight + l.pending

/-- Every byte of an opened window is in at most one place, and in exactly one
as long as no grant is lost. -/
structure Balanced (l : Ledger) : Prop where
  total_le : l.total ≤ if l.opened then w.size else 0
  total_eq : l.intact = true → l.total = if l.opened then w.size else 0
  pending_lt : l.pending < w.threshold

theorem Step.balanced {l m : Ledger} {a : Unit} (hbal : Balanced w l)
    (h : Step w l a m) :
    Balanced w m := by
  obtain ⟨hle, heq, hpending⟩ := hbal
  unfold total at hle heq
  cases h with
  | openWindow hopened =>
      simp only [hopened, Bool.false_eq_true, if_false] at hle heq
      refine ⟨?_, ?_, hpending⟩
      · simp only [total, if_true]
        omega
      · intro hintact
        have := heq hintact
        simp only [total, if_true]
        omega
  | take bytes hbytes =>
      refine ⟨?_, ?_, hpending⟩
      · simp only [total]
        omega
      · intro hintact
        have := heq hintact
        simp only [total]
        omega
  | consume bytes hbytes =>
      have hsplit := account_split w l.pending bytes
      refine ⟨?_, ?_, account_lt w _ _⟩
      · simp only [total]
        omega
      · intro hintact
        have := heq hintact
        simp only [total]
        omega
  | receive bytes hbytes =>
      refine ⟨?_, ?_, hpending⟩
      · simp only [total]
        omega
      · intro hintact
        have := heq hintact
        simp only [total]
        omega
  | lose bytes hbytes =>
      refine ⟨?_, by simp, hpending⟩
      simp only [total]
      omega

theorem balanced_of_reachable {l : Ledger} (h : (system w).Reachable l) :
    Balanced w l := by
  refine h.invariant (P := Balanced w) ?_
    (fun _ _ _ hbal hstep => Step.balanced w hbal hstep)
  rintro s rfl
  exact ⟨Nat.le_refl _, fun _ => rfl, w.threshold_pos⟩

variable {w}

theorem Balanced.total_le_size {l : Ledger} (h : Balanced w l) :
    l.total ≤ w.size := by
  have hle := h.total_le
  split at hle <;> omega

end Ledger

end SideWire.CreditWindow
