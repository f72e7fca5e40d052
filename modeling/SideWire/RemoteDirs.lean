import SideWire.Base.Batching
import SideWire.Base.SizedText
import SideWire.PairingStore

/-!
How a recursive push creates its directories: `ensure_remote_dirs` on the host, which asks the
server for one `mkdir` after the other.
-/

namespace SideWire.RemoteDirs

open SideWire.Batching
open SideWire.PairingStore
open SideWire.SizedText

def maxMkdirBatchPaths : Nat := 64
def maxMkdirBatchBytes : Nat := 32 * 1024

/-- The largest `usize` of a 64-bit host. -/
def usizeMax : Nat := 2 ^ 64 - 1

def saturatingAdd (a b : Nat) : Nat := min (a + b) usizeMax

inductive RunAs
  | root
  | shell
  deriving DecidableEq

structure ExecRequest where
  device : Option Text
  program : Text
  args : List Text
  runAs : RunAs
  deriving DecidableEq

/-- What `exec_control` returns for a request after those made before it: an error, or the
output, the error output and the exit code of the program. -/
abbrev Server := List ExecRequest → ExecRequest → Except String (Text × Text × Option Int)

/-- The inner loop: where the batch from `start` on ends. -/
def batchEnd (paths : List Text) (start stop bytes : Nat) : Nat :=
  if h : stop < paths.length ∧ stop - start < maxMkdirBatchPaths then
    have hstop : stop < paths.length := h.1
    let next := saturatingAdd (len Char.utf8Size paths[stop]) 1
    if start < stop ∧ maxMkdirBatchBytes < saturatingAdd bytes next then stop
    else batchEnd paths start (stop + 1) (saturatingAdd bytes next)
  else stop
termination_by paths.length - stop

def mkdirRequest (device : Option Text) (runAs : RunAs) (batch : List Text) : ExecRequest where
  device := device
  program := "/system/bin/mkdir".toList
  args := "-p".toList :: batch
  runAs := runAs

/-- The total size of some paths, with one unit of their own each. -/
def batchBytes (batch : List Text) : Nat :=
  (batch.map fun path => len Char.utf8Size path + 1).sum

section Batch

variable {paths : List Text} {start stop bytes : Nat}

theorem slice_succ (hstart : start ≤ stop) (hstop : stop < paths.length) :
    (paths.take (stop + 1)).drop start = (paths.take stop).drop start ++ [paths[stop]] := by
  have hle : start ≤ (paths.take stop).length := by
    rw [List.length_take]
    omega
  rw [← List.take_append_getElem hstop, List.drop_append_of_le_length hle]

theorem batchBytes_snoc (batch : List Text) (path : Text) :
    batchBytes (batch ++ [path]) = batchBytes batch + (len Char.utf8Size path + 1) := by
  simp [batchBytes]

/-- The batch so far, as the inner loop keeps it. -/
structure Filling (paths : List Text) (start stop bytes : Nat) : Prop where
  ordered : start ≤ stop
  bounded : stop ≤ paths.length
  few : stop - start ≤ maxMkdirBatchPaths
  bytes_eq : bytes = min (batchBytes ((paths.take stop).drop start)) usizeMax
  small : batchBytes ((paths.take stop).drop start) ≤ maxMkdirBatchBytes ∨ stop ≤ start + 1

theorem filling_self (h : start ≤ paths.length) : Filling paths start start 0 where
  ordered := Nat.le_refl start
  bounded := h
  few := by omega
  bytes_eq := by
    have hnil : (paths.take start).drop start = [] := by
      rw [List.drop_eq_nil_iff, List.length_take]
      exact Nat.min_le_left _ _
    rw [hnil]
    rfl
  small := .inr (Nat.le_succ start)

theorem saturatingAdd_saturated (sum size : Nat) :
    saturatingAdd (min sum usizeMax) (saturatingAdd size 1) = min (sum + (size + 1)) usizeMax := by
  simp only [saturatingAdd]
  generalize usizeMax = top
  omega

theorem Filling.succ (h : Filling paths start stop bytes) (hstop : stop < paths.length)
    (hfew : stop - start < maxMkdirBatchPaths)
    (hfits : ¬ (start < stop ∧ maxMkdirBatchBytes <
      saturatingAdd bytes (saturatingAdd (len Char.utf8Size paths[stop]) 1))) :
    Filling paths start (stop + 1)
      (saturatingAdd bytes (saturatingAdd (len Char.utf8Size paths[stop]) 1)) := by
  have hordered := h.ordered
  have hsum := batchBytes_snoc ((paths.take stop).drop start) paths[stop]
  rw [← slice_succ hordered hstop] at hsum
  rw [h.bytes_eq, saturatingAdd_saturated, ← hsum] at hfits ⊢
  refine ⟨by omega, hstop, by omega, rfl, ?_⟩
  by_cases hfirst : start < stop
  · -- The sum has not saturated, since the limit is below what it saturates at.
    have hlimit : maxMkdirBatchBytes < usizeMax := by decide
    have hle := Nat.le_of_not_lt (not_and.mp hfits hfirst)
    exact .inl ((min_le_iff.mp hle).resolve_right (Nat.not_le.mpr hlimit))
  · exact .inr (by omega)

theorem Filling.batchEnd (h : Filling paths start stop bytes) (hstart : start < paths.length) :
    start < batchEnd paths start stop bytes ∧
      ∃ total, Filling paths start (batchEnd paths start stop bytes) total := by
  induction hleft : paths.length - stop using Nat.strong_induction_on generalizing stop bytes with
  | _ left ih =>
      have hordered := h.ordered
      have hpaths : 0 < maxMkdirBatchPaths := by decide
      rw [RemoteDirs.batchEnd]
      by_cases hloop : stop < paths.length ∧ stop - start < maxMkdirBatchPaths
      · rw [dif_pos hloop]
        dsimp only
        split_ifs with hfull
        · exact ⟨hfull.1, bytes, h⟩
        · exact ih _ (by omega) (h.succ hloop.1 hloop.2 hfull) rfl
      · rw [dif_neg hloop]
        refine ⟨?_, bytes, h⟩
        by_contra hstay
        exact hloop ⟨by omega, by omega⟩

theorem lt_batchEnd (h : start < paths.length) : start < RemoteDirs.batchEnd paths start start 0 :=
  ((filling_self (Nat.le_of_lt h)).batchEnd h).1

end Batch

/-- The outer loop from `start` on, with the requests that have been made. -/
def ensureFrom (server : Server) (device : Option Text) (runAs : RunAs) (paths : List Text)
    (start : Nat) (made : List ExecRequest) : Except String Unit × List ExecRequest :=
  if h : start < paths.length then
    have := lt_batchEnd h
    let stop := batchEnd paths start start 0
    let request := mkdirRequest device runAs ((paths.take stop).drop start)
    match server made request with
    | .error error => (.error error, made ++ [request])
    | .ok (_, stderr, code) =>
        if code.getD 1 ≠ 0 then
          let count := stop - start
          let text := String.ofList (trim stderr)
          (.error s!"mkdir batch for {count} paths failed: {text}", made ++ [request])
        else ensureFrom server device runAs paths stop (made ++ [request])
  else (.ok (), made)
termination_by paths.length - start

/-- What the call returns, and the requests it has made. -/
def ensureRemoteDirs (server : Server) (device : Option Text) (runAs : RunAs)
    (paths : List Text) : Except String Unit × List ExecRequest :=
  ensureFrom server device runAs paths 0 []

/-! The batches by themselves, and what becomes of one of them. -/

/-- The batches from `start` on. -/
def mkdirBatches (paths : List Text) (start : Nat) : List (List Text) :=
  if h : start < paths.length then
    have := lt_batchEnd h
    let stop := batchEnd paths start start 0
    (paths.take stop).drop start :: mkdirBatches paths stop
  else []
termination_by paths.length - start

/-- The request for one batch after those for others. -/
def mkdir (server : Server) (device : Option Text) (runAs : RunAs) (made : List (List Text))
    (batch : List Text) : Except String Unit :=
  match server (made.map (mkdirRequest device runAs)) (mkdirRequest device runAs batch) with
  | .error error => .error error
  | .ok (_, stderr, code) =>
      if code.getD 1 ≠ 0 then
        let count := batch.length
        let text := String.ofList (trim stderr)
        .error s!"mkdir batch for {count} paths failed: {text}"
      else .ok ()

section Batches

variable {paths : List Text} {start : Nat}

/-- Batches of paths, by their bytes and one more for each. -/
abbrev CutPaths : List Text → List (List Text) → Prop :=
  Cut (fun path => len Char.utf8Size path + 1) maxMkdirBatchPaths maxMkdirBatchBytes

theorem cut_mkdirBatches (paths : List Text) (start : Nat) :
    CutPaths (paths.drop start) (mkdirBatches paths start) := by
  induction hleft : paths.length - start using Nat.strong_induction_on generalizing start with
  | _ left ih =>
      rw [mkdirBatches]
      split_ifs with hstart
      · obtain ⟨hlt, _, hfilling⟩ :=
          (filling_self (Nat.le_of_lt hstart)).batchEnd hstart
        dsimp only
        generalize batchEnd paths start start 0 = stop at hlt hfilling
        have hbounded := hfilling.bounded
        have hlength : ((paths.take stop).drop start).length = stop - start := by
          rw [List.length_drop, List.length_take]
          omega
        have hsplit : paths.drop start = (paths.take stop).drop start ++ paths.drop stop := by
          have hle : start ≤ (paths.take stop).length := by
            rw [List.length_take]
            omega
          rw [← List.drop_append_of_le_length hle, List.take_append_drop]
        rw [hsplit]
        refine Cut.cons ⟨?_, ?_, ?_⟩ (ih _ (by omega) stop rfl)
        · exact List.ne_nil_of_length_pos (by omega)
        · rw [hlength]
          exact hfilling.few
        · rw [hlength]
          exact hfilling.small.imp id fun hsingle => by omega
      · rw [List.drop_of_length_le (by omega)]
        exact Cut.nil

/-- The loop makes the requests for the batches in their order, until one fails. -/
theorem ensureFrom_eq (server : Server) (device : Option Text) (runAs : RunAs)
    (paths : List Text) (start : Nat) (made : List (List Text)) :
    ensureFrom server device runAs paths start (made.map (mkdirRequest device runAs)) =
      ((perform (mkdir server device runAs) made (mkdirBatches paths start)).1,
        (perform (mkdir server device runAs) made (mkdirBatches paths start)).2.map
          (mkdirRequest device runAs)) := by
  induction hleft : paths.length - start using Nat.strong_induction_on
    generalizing start made with
  | _ left ih =>
      rw [ensureFrom, mkdirBatches]
      split_ifs with hstart
      · have hlt := lt_batchEnd hstart
        have hcount : ((paths.take (batchEnd paths start start 0)).drop start).length =
            batchEnd paths start start 0 - start := by
          obtain ⟨_, _, hfilling⟩ := (filling_self (Nat.le_of_lt hstart)).batchEnd hstart
          have hbounded := hfilling.bounded
          rw [List.length_drop, List.length_take]
          omega
        dsimp only
        rw [perform, mkdir]
        cases server (made.map (mkdirRequest device runAs)) (mkdirRequest device runAs
            ((paths.take (batchEnd paths start start 0)).drop start)) with
        | error error => simp only [List.map_append, List.map_cons, List.map_nil]
        | ok answer =>
            obtain ⟨_, stderr, code⟩ := answer
            dsimp only
            split_ifs with hcode
            · simp only [hcount, List.map_append, List.map_cons, List.map_nil]
            · have hmore := ih _ (by omega) (batchEnd paths start start 0)
                (made ++ [(paths.take (batchEnd paths start start 0)).drop start]) rfl
              rw [List.map_append, List.map_singleton] at hmore
              exact hmore
      · rfl

end Batches

end SideWire.RemoteDirs
