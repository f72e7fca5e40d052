import SideWire.FileTransfer
import SideWire.PullFidelity
import SideWire.PushFidelity

namespace SideWire.FileFidelity

open SideWire.FileTransfer
open SideWire.FlowControl
open SideWire.SharedWire
open SideWire.TransitionSystem

/-- A push whose two wires carry the frames of other streams too. -/
def sharedPush (plan : PushTransfer.Plan) (Other : Type*) :=
  share (PushTransfer.system plan) PushTransfer.State.toDevice PushTransfer.State.toHost Other

/-- A pull whose two wires carry the frames of other streams too. -/
def sharedPull (plan : PullTransfer.Plan) (Other : Type*) :=
  share (PullTransfer.system plan) PullTransfer.State.toDevice PullTransfer.State.toHost Other

/-- A step that changes the state of the stream is one of its own. -/
theorem step_of_changed {State Action Own Other : Type*} {M : System State Action}
    {toFirst toSecond : State → List Own} {c d : Shared toFirst toSecond Other}
    {a : Option Action} (h : SharedStep M c a d) (hchanged : d.state ≠ c.state) :
    ∃ b, M.step c.state b d.state := by
  cases h with
  | own hstep => exact ⟨_, hstep⟩
  | others hstate => exact absurd hstate hchanged

/-- Whatever the other streams do, whenever `remote_push` returns `Ok` the handler has written
what the host has read, and whenever `remote_pull` returns `Ok` the host has written what the
handler has read, as many bytes as the handler has declared. -/
theorem transfers_faithful (reads : FileReads) (readFails : Bool) (failsAt : Option Nat)
    (Other : Type*) :
    (∀ c a d, (sharedPush (push reads failsAt) Other).Reachable c →
      (sharedPush (push reads failsAt) Other).step c a d →
      c.state.host.running = true → d.state.host = .succeeded →
      PushTransfer.Faithful (push reads failsAt) d.state) ∧
    ∀ c a d, (sharedPull (pull reads readFails failsAt) Other).Reachable c →
      (sharedPull (pull reads readFails failsAt) Other).step c a d →
      c.state.host.running = true → d.state.host = .succeeded →
      PullTransfer.Faithful (pull reads readFails failsAt) d.state := by
  constructor
  · intro c a d hreach hstep hrunning hsucceeded
    obtain ⟨b, hown⟩ := step_of_changed hstep (by
      intro heq
      rw [heq] at hsucceeded
      rw [hsucceeded] at hrunning
      exact nomatch hrunning)
    exact PushTransfer.faithful_of_succeeded (reachable_state hreach) hown hrunning hsucceeded
  · intro c a d hreach hstep hrunning hsucceeded
    obtain ⟨b, hown⟩ := step_of_changed hstep (by
      intro heq
      rw [heq] at hsucceeded
      rw [hsucceeded] at hrunning
      exact nomatch hrunning)
    exact PullTransfer.faithful_of_succeeded (reachable_state hreach) hown hrunning hsucceeded

/-- Both transfers of a file of three pages do succeed. -/
theorem transfers_faithful_pages :
    (∃ s, s.host = .succeeded ∧
      PushTransfer.Faithful (push (.uniform 3 4096 (by decide)) none) s) ∧
    ∃ s, s.host = .succeeded ∧
      PullTransfer.Faithful (pull (.uniform 3 4096 (by decide)) false none) s := by
  obtain ⟨hpush, hpull⟩ :=
    transfers_faithful (.uniform 3 4096 (by decide)) false none Unit
  constructor
  · obtain ⟨s, a, t, hreach, hstep, hrunning, hsucceeded⟩ :=
      PushTransfer.exists_succeeded (push (.uniform 3 4096 (by decide)) none) rfl
    have hmoves := PushTransfer.wiresMove (push (.uniform 3 4096 (by decide)) none)
    refine ⟨t, hsucceeded, hpush _ _ _ (reachable_alone Unit ?_ hmoves hreach)
      (step_alone Unit hmoves hstep) hrunning hsucceeded⟩
    rintro _ rfl
    exact ⟨rfl, rfl⟩
  · obtain ⟨s, a, t, hreach, hstep, hrunning, hsucceeded⟩ :=
      PullTransfer.exists_succeeded (pull (.uniform 3 4096 (by decide)) false none) rfl rfl
    have hmoves := PullTransfer.wiresMove (pull (.uniform 3 4096 (by decide)) false none)
    refine ⟨t, hsucceeded, hpull _ _ _ (reachable_alone Unit ?_ hmoves hreach)
      (step_alone Unit hmoves hstep) hrunning hsucceeded⟩
    rintro _ rfl
    exact ⟨rfl, rfl⟩

end SideWire.FileFidelity
