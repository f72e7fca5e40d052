import SideWire.PushFailure
import SideWire.PullRuns

namespace SideWire.FileTransfer

open SideWire.TransitionSystem
open SideWire.CreditWindow
open SideWire.FlowControl

/-- The push of a file that is read as `reads` and whose `failsAt`-th write fails. -/
def push (reads : FileReads) (failsAt : Option Nat) : PushTransfer.Plan :=
  ⟨reads, failsAt⟩

/-- The pull of a file that is read as `reads`, with a failure after the last read
if `readFails`, and whose `failsAt`-th write fails. -/
def pull (reads : FileReads) (readFails : Bool) (failsAt : Option Nat) :
    PullTransfer.Plan :=
  ⟨reads, readFails, failsAt⟩

/-- The queue of either receiver suffices exactly for reads that leave no room for a
burst. -/
theorem queues_suffice_iff_noBurst (reads : FileReads) (readFails : Bool)
    (failsAt : Option Nat) :
    ((∀ s, (PushTransfer.system (push reads failsAt)).Reachable s →
        s.overflowed = false) ↔
      NoBurst fileWindow routeCapacity (failsAt.getD reads.chunks.length) reads.sizes) ∧
    ((∀ s, (PullTransfer.system (pull reads readFails failsAt)).Reachable s →
        s.overflowed = false) ↔
      NoBurst fileWindow routeCapacity (failsAt.getD reads.chunks.length) reads.sizes) := by
  constructor
  · exact PushTransfer.never_overflowed_iff (push reads failsAt)
  · exact PullTransfer.never_overflowed_iff (pull reads readFails failsAt)

theorem overflow_of_burst (reads : FileReads) (readFails : Bool)
    (hmany : routeCapacity ≤ reads.chunks.length)
    (hfits : (reads.sizes.take (routeCapacity + 1)).sum ≤ fileFlowWindow) :
    (∃ s, (PushTransfer.system (push reads none)).Reachable s ∧ s.overflowed = true) ∧
      ∃ s, (PullTransfer.system (pull reads readFails none)).Reachable s ∧
        s.overflowed = true := by
  constructor
  · apply PushTransfer.exists_overflowed (push reads none) (Nat.zero_le _)
    · simpa [push] using hmany
    · simpa [push] using hfits
  · apply PullTransfer.exists_overflowed (pull reads readFails none) (Nat.zero_le _)
    · simpa [pull] using hmany
    · simpa [pull] using hfits

/-- Reads of one page at a time, as a pipe returns them. -/
def pageReads : FileReads := .uniform 17 4096 (by decide)

theorem pageReads_overflow :
    (¬ ∀ s, (PushTransfer.system (push pageReads none)).Reachable s → s.overflowed = false) ∧
      ¬ ∀ s, (PullTransfer.system (pull pageReads false none)).Reachable s →
        s.overflowed = false := by
  have hmany : routeCapacity ≤ pageReads.chunks.length := by
    simp only [pageReads, FileReads.uniform, List.length_replicate]
    decide
  have hfits : (pageReads.sizes.take (routeCapacity + 1)).sum ≤ fileFlowWindow := by
    rw [pageReads, FileReads.sizes_uniform]
    decide
  obtain ⟨⟨s, hpush, hs⟩, t, hpull, ht⟩ := overflow_of_burst pageReads false hmany hfits
  constructor
  · intro hnever
    simp [hnever s hpush] at hs
  · intro hnever
    simp [hnever t hpull] at ht

/-- Credit is conserved and never stalls a sender, in both directions. -/
theorem transfers_creditSound (reads : FileReads) (readFails : Bool)
    (failsAt : Option Nat) :
    (∀ s, (PushTransfer.system (push reads failsAt)).Reachable s →
      PushTransfer.CreditSound (push reads failsAt) s) ∧
    ∀ s, (PullTransfer.system (pull reads readFails failsAt)).Reachable s →
      PullTransfer.CreditSound (pull reads readFails failsAt) s := by
  constructor
  · intro s h
    exact PushTransfer.creditSound_of_reachable h
  · intro s h
    exact PullTransfer.creditSound_of_reachable h

/-- The host always answers a push whose write fails, exactly if the failing chunk
and those that can come late fit into what is left of the window. -/
theorem push_answers_iff_fitsLate (reads : FileReads) (failsAt : Option Nat) :
    (∀ s, (PushTransfer.system (push reads failsAt)).Reachable s →
      PushTransfer.Refused s → PushTransfer.Answers (push reads failsAt) s) ↔
      (push reads failsAt).FitsLate :=
  PushTransfer.always_answers_iff (push reads failsAt)

theorem stuck_of_full_window (reads : FileReads)
    (hexceeds : fileFlowWindow <
      (reads.sizes.take (PushTransfer.lateCapacity + 2)).sum) :
    ∃ s, (PushTransfer.system (push reads (some 0))).Reachable s ∧
      PushTransfer.Refused s ∧ ∃ chunk, s.host = .parked chunk false := by
  apply PushTransfer.exists_stuck (push reads (some 0)) rfl
  simpa [push] using hexceeds

/-- One read more than the window covers. -/
def fullReads : FileReads := .uniform 5 fileBufferSize (by decide)

theorem fullReads_stuck :
    ¬ ∀ s, (PushTransfer.system (push fullReads (some 0))).Reachable s →
      PushTransfer.Refused s → PushTransfer.Answers (push fullReads (some 0)) s := by
  intro hanswers
  obtain ⟨s, hreach, hrefused, chunk, hparked⟩ := stuck_of_full_window fullReads (by
    rw [fullReads, FileReads.sizes_uniform]
    decide)
  exact (hanswers s hreach hrefused).awake chunk hparked

end SideWire.FileTransfer
