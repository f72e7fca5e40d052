import SideWire.Base.ByteString
import SideWire.Base.CreditWindow

/-!
The parts of file flow control that host and device share: the credit a sender
holds, the accounting of a receiver, and the frames of one file stream. Host
and device each carry their own copy of this code with the same bounds.
-/

namespace SideWire.FlowControl

open SideWire.ByteString
open SideWire.CreditWindow

def routeCapacity : Nat := 16
def maxFlowCredit : Nat := 16 * 1024 * 1024
def fileBufferSize : Nat := 256 * 1024
def fileFlowWindow : Nat := 1024 * 1024
def fileFlowUpdateThreshold : Nat := fileFlowWindow / 2
/-- One more than the largest `usize` of the supported 64-bit targets. -/
def usizeBound : Nat := 2 ^ 64

/-- `FlowCredit`: the bytes a sender may still put into `FileChunk` frames. -/
structure FlowCredit where
  available : Nat
  deriving DecidableEq

namespace FlowCredit

def new : FlowCredit := ⟨0⟩

def add (credit : FlowCredit) (bytes : Nat) : Except String FlowCredit :=
  if bytes = 0 then
    .error "stream window update must grant at least one byte"
  else if usizeBound ≤ credit.available + bytes then
    .error "stream flow credit overflow"
  else if maxFlowCredit < credit.available + bytes then
    .error s!"stream flow credit exceeds {maxFlowCredit} bytes"
  else .ok ⟨credit.available + bytes⟩

def tryTake (credit : FlowCredit) (bytes : Nat) : Option FlowCredit :=
  if credit.available < bytes then none else some ⟨credit.available - bytes⟩

theorem add_eq_ok_iff {credit updated : FlowCredit} {bytes : Nat} :
    credit.add bytes = .ok updated ↔
      0 < bytes ∧ credit.available + bytes ≤ maxFlowCredit ∧
        updated.available = credit.available + bytes := by
  have hbound : maxFlowCredit < usizeBound := by decide
  rcases updated with ⟨available⟩
  unfold add
  split_ifs with hzero hoverflow hmax
  · simp [hzero]
  · simp only [false_iff]
    omega
  · simp only [false_iff]
    omega
  · simp only [Except.ok.injEq, FlowCredit.mk.injEq]
    omega

theorem tryTake_eq_some_iff {credit rest : FlowCredit} {bytes : Nat} :
    credit.tryTake bytes = some rest ↔
      bytes ≤ credit.available ∧ rest.available = credit.available - bytes := by
  rcases rest with ⟨available⟩
  unfold tryTake
  split_ifs with hlt
  · simp only [false_iff]
    omega
  · simp only [Option.some.injEq, FlowCredit.mk.injEq]
    omega

theorem tryTake_eq_none_iff {credit : FlowCredit} {bytes : Nat} :
    credit.tryTake bytes = none ↔ credit.available < bytes := by
  unfold tryTake
  split_ifs with hlt <;> simp [hlt]

end FlowCredit

/-- Who takes a step of a transfer: the two functions that exchange the file, the
two readers, and the tasks they spawn. -/
inductive Actor
  | host
  | hostReader
  | hostTask
  | handler
  | serve
  | deviceTask
  | network
  deriving DecidableEq

/-- The frames one file stream carries, in either direction, with their
payloads decoded. -/
inductive StreamFrame
  | fileMeta (size : Nat)
  | fileChunk (payload : Bytes)
  | fileEnd
  | error
  | windowUpdate (bytes : Nat)
  | streamCancel
  deriving DecidableEq

namespace StreamFrame

/-- The bytes of a chunk, which is all that the credit of a stream covers. -/
def chunkBytes : StreamFrame → Nat
  | .fileChunk payload => payload.length
  | _ => 0

/-- The bytes a window update grants. -/
def grantBytes : StreamFrame → Nat
  | .windowUpdate bytes => bytes
  | _ => 0

/-- The size in a `FileMeta`. -/
def metaSize : StreamFrame → Nat
  | .fileMeta size => size
  | _ => 0

/-- Cancellations and window updates never enter a stream's queue. -/
def isData : StreamFrame → Bool
  | .windowUpdate _ => false
  | .streamCancel => false
  | _ => true

/-- `frame_completes_stream`, for the frames of a file stream. -/
def completes : StreamFrame → Bool
  | .fileEnd | .error => true
  | _ => false

end StreamFrame

/-- The chunk bytes among some frames. -/
def bytesOf (frames : List StreamFrame) : Nat :=
  (frames.map StreamFrame.chunkBytes).sum

@[simp] theorem bytesOf_nil : bytesOf [] = 0 := rfl

@[simp] theorem bytesOf_cons (frame : StreamFrame) (frames : List StreamFrame) :
    bytesOf (frame :: frames) = frame.chunkBytes + bytesOf frames := rfl

@[simp] theorem bytesOf_append (xs ys : List StreamFrame) :
    bytesOf (xs ++ ys) = bytesOf xs + bytesOf ys := by
  simp [bytesOf]

theorem bytesOf_le_of_prefix {xs ys : List StreamFrame} (h : xs <+: ys) :
    bytesOf xs ≤ bytesOf ys := by
  obtain ⟨rest, rfl⟩ := h
  simp

/-- The bytes granted by window updates among some frames. -/
def grantsOf (frames : List StreamFrame) : Nat :=
  (frames.map StreamFrame.grantBytes).sum

@[simp] theorem grantsOf_nil : grantsOf [] = 0 := rfl

@[simp] theorem grantsOf_cons (frame : StreamFrame) (frames : List StreamFrame) :
    grantsOf (frame :: frames) = frame.grantBytes + grantsOf frames := rfl

@[simp] theorem grantsOf_append (xs ys : List StreamFrame) :
    grantsOf (xs ++ ys) = grantsOf xs + grantsOf ys := by
  simp [grantsOf]

theorem grantBytes_of_isData {frame : StreamFrame} (h : frame.isData = true) :
    frame.grantBytes = 0 := by
  cases frame <;> simp_all [StreamFrame.isData, StreamFrame.grantBytes]

def chunksOf (chunks : List Bytes) : List StreamFrame :=
  chunks.map .fileChunk

def lengthsOf (chunks : List Bytes) : List Nat :=
  chunks.map List.length

theorem bytesOf_chunksOf (chunks : List Bytes) :
    bytesOf (chunksOf chunks) = (lengthsOf chunks).sum := by
  simp only [bytesOf, chunksOf, lengthsOf, List.map_map]
  rfl

theorem chunksOf_append_inj {xs ys : List Bytes} {a b : StreamFrame}
    {rest rest' : List StreamFrame} (ha : ∀ chunk, a ≠ .fileChunk chunk)
    (hb : ∀ chunk, b ≠ .fileChunk chunk)
    (h : chunksOf xs ++ a :: rest = chunksOf ys ++ b :: rest') :
    xs = ys ∧ a = b ∧ rest = rest' := by
  induction xs generalizing ys with
  | nil =>
      cases ys with
      | nil => exact ⟨rfl, List.cons.inj h⟩
      | cons y ys => exact absurd (List.cons.inj h).1 (ha y)
  | cons x xs ih =>
      cases ys with
      | nil => exact absurd (List.cons.inj h).1.symm (hb x)
      | cons y ys =>
          obtain ⟨hhead, htail⟩ := List.cons.inj h
          obtain ⟨rfl, hrest⟩ := ih htail
          exact ⟨congrArg (· :: xs) (StreamFrame.fileChunk.inj hhead), hrest⟩

theorem sum_le_of_prefix {xs ys : List Nat} (h : xs <+: ys) : xs.sum ≤ ys.sum := by
  obtain ⟨rest, rfl⟩ := h
  simp

/-- `grant_window` and `send_window_update`: the update frame for `bytes`. -/
def windowUpdate (bytes : Nat) : Except String (List StreamFrame) :=
  if bytes = 0 then .ok []
  else if 2 ^ 32 ≤ bytes then .error "stream window update exceeds u32"
  else .ok [.windowUpdate bytes]

theorem windowUpdate_eq_ok {bytes : Nat} {update : List StreamFrame}
    (h : windowUpdate bytes = .ok update) :
    update = [] ∧ bytes = 0 ∨ update = [.windowUpdate bytes] ∧ 0 < bytes := by
  unfold windowUpdate at h
  split_ifs at h with hzero
  · exact .inl ⟨(Except.ok.inj h).symm, hzero⟩
  · exact .inr ⟨(Except.ok.inj h).symm, Nat.pos_of_ne_zero hzero⟩

theorem grantsOf_windowUpdate {bytes : Nat} {update : List StreamFrame}
    (h : windowUpdate bytes = .ok update) : grantsOf update = bytes := by
  rcases windowUpdate_eq_ok h with ⟨rfl, rfl⟩ | ⟨rfl, -⟩ <;> rfl

theorem eq_of_mem_windowUpdate {bytes : Nat} {update : List StreamFrame}
    (h : windowUpdate bytes = .ok update) {frame : StreamFrame} (hframe : frame ∈ update) :
    frame = .windowUpdate bytes ∧ 0 < bytes := by
  rcases windowUpdate_eq_ok h with ⟨rfl, -⟩ | ⟨rfl, hpos⟩
  · simp at hframe
  · exact ⟨List.mem_singleton.mp hframe, hpos⟩

theorem streamCancel_not_mem_windowUpdate {bytes : Nat} {update : List StreamFrame}
    (h : windowUpdate bytes = .ok update) : .streamCancel ∉ update := by
  intro hmem
  simpa using (eq_of_mem_windowUpdate h hmem).1

theorem count_windowUpdate {bytes : Nat} {update : List StreamFrame}
    (h : windowUpdate bytes = .ok update) {frame : StreamFrame}
    (hframe : ∀ n, frame ≠ .windowUpdate n) : update.count frame = 0 := by
  rw [List.count_eq_zero]
  intro hmem
  exact hframe bytes (eq_of_mem_windowUpdate h hmem).1

/-- `account_file_window` of the device: what stays consumed and unreported,
and the bytes of the window update to send. -/
def accountFileWindow (consumed bytes : Nat) : Except String (Nat × Option Nat) :=
  if usizeBound ≤ consumed + bytes then
    .error "file flow-control byte counter overflow"
  else if fileFlowUpdateThreshold ≤ consumed + bytes then
    .ok (0, some (consumed + bytes))
  else .ok (consumed + bytes, none)

/-- The same accounting inside the loop of `remote_pull`. -/
def accountPullWindow (windowConsumed bytes : Nat) : Nat × Option Nat :=
  let consumed := windowConsumed + bytes
  if fileFlowUpdateThreshold ≤ consumed then (0, some consumed)
  else (consumed, none)

/-- The credit window both receivers keep for a file. -/
def fileWindow : Window where
  size := fileFlowWindow
  threshold := fileFlowUpdateThreshold
  threshold_pos := by decide

@[simp] theorem fileWindow_size : fileWindow.size = fileFlowWindow := rfl

@[simp] theorem fileWindow_threshold :
    fileWindow.threshold = fileFlowUpdateThreshold := rfl

theorem accountPullWindow_eq (consumed bytes : Nat) :
    accountPullWindow consumed bytes = account fileWindow consumed bytes := rfl

theorem accountFileWindow_eq {consumed bytes : Nat}
    (h : consumed + bytes < usizeBound) :
    accountFileWindow consumed bytes = .ok (account fileWindow consumed bytes) := by
  unfold accountFileWindow account
  rw [if_neg (by omega), fileWindow_threshold]
  split_ifs <;> rfl

theorem accountFileWindow_eq_ok {consumed bytes : Nat} {result : Nat × Option Nat}
    (h : accountFileWindow consumed bytes = .ok result) :
    result = account fileWindow consumed bytes := by
  by_cases hlt : consumed + bytes < usizeBound
  · rw [accountFileWindow_eq hlt] at h
    exact (Except.ok.inj h).symm
  · unfold accountFileWindow at h
    rw [if_pos (by omega)] at h
    cases h

theorem windowUpdate_of_account {consumed bytes rest batch : Nat}
    (haccount : account fileWindow consumed bytes = (rest, some batch))
    (hbound : consumed + bytes < 2 ^ 32) :
    windowUpdate batch = .ok [.windowUpdate batch] := by
  have hsplit := account_split fileWindow consumed bytes
  have hthreshold := threshold_le_of_account fileWindow (congrArg Prod.snd haccount)
  rw [haccount] at hsplit
  simp only [Option.getD_some, fileWindow_threshold] at hsplit hthreshold
  have hpos : 0 < fileFlowUpdateThreshold := by decide
  unfold windowUpdate
  rw [if_neg (by omega), if_neg (by omega)]

/-- The reads a sender obtains from a file or a pipe: whatever the split, each
one is not empty and fits the read buffer. -/
structure FileReads where
  chunks : List Bytes
  sized : ∀ chunk ∈ chunks, 1 ≤ chunk.length ∧ chunk.length ≤ fileBufferSize

namespace FileReads

variable (reads : FileReads)

def sizes : List Nat := lengthsOf reads.chunks

/-- The frames a sender emits for these reads, and the one that ends them. -/
def framesWith (last : StreamFrame) : List StreamFrame := chunksOf reads.chunks ++ [last]

/-- The frames a sender emits for these reads when all goes well. -/
def frames : List StreamFrame := reads.framesWith .fileEnd

@[simp] theorem length_framesWith (last : StreamFrame) :
    (reads.framesWith last).length = reads.chunks.length + 1 := by
  simp [framesWith, chunksOf]

@[simp] theorem length_frames : reads.frames.length = reads.chunks.length + 1 :=
  reads.length_framesWith _

@[simp] theorem length_sizes : reads.sizes.length = reads.chunks.length := by
  simp [sizes, lengthsOf]

theorem bytesOf_take_framesWith {last : StreamFrame} (hlast : last.chunkBytes = 0)
    (j : Nat) : bytesOf ((reads.framesWith last).take j) = (reads.sizes.take j).sum := by
  have hend : bytesOf ([last].take (j - (chunksOf reads.chunks).length)) = 0 := by
    cases j - (chunksOf reads.chunks).length <;> simp [hlast]
  rw [framesWith, List.take_append, bytesOf_append, hend, Nat.add_zero, chunksOf,
    ← List.map_take, sizes, lengthsOf, ← List.map_take]
  exact bytesOf_chunksOf _

theorem bytesOf_take_frames (j : Nat) :
    bytesOf (reads.frames.take j) = (reads.sizes.take j).sum :=
  reads.bytesOf_take_framesWith rfl j

theorem chunksOf_prefix_framesWith {last : StreamFrame}
    (hlast : ∀ chunk, last ≠ .fileChunk chunk) {written : List Bytes}
    (h : chunksOf written <+: reads.framesWith last) : written <+: reads.chunks := by
  rcases List.prefix_concat_iff.mp h with heq | hle
  · have hmem : last ∈ chunksOf written := by
      rw [heq]
      simp
    obtain ⟨chunk, -, hchunk⟩ := List.mem_map.mp hmem
    exact absurd hchunk.symm (hlast chunk)
  · exact (List.prefix_map_iff_of_injective (fun _ _ hab => by simpa using hab)).mp hle

theorem chunksOf_prefix_frames {written : List Bytes}
    (h : chunksOf written <+: reads.frames) : written <+: reads.chunks :=
  reads.chunksOf_prefix_framesWith (by simp) h

theorem sum_take_pos {j : Nat} (hj : 0 < j) (hreads : 0 < reads.chunks.length) :
    0 < (reads.sizes.take j).sum := by
  rcases hchunks : reads.chunks with _ | ⟨chunk, rest⟩
  · simp [hchunks] at hreads
  · obtain ⟨j, rfl⟩ := Nat.exists_eq_add_one_of_ne_zero (Nat.pos_iff_ne_zero.mp hj)
    have hsized := (reads.sized chunk (by simp [hchunks])).1
    simp only [sizes, lengthsOf, hchunks, List.map_cons, List.take_succ_cons, List.sum_cons]
    omega

theorem mem_frames {frame : StreamFrame} (h : frame ∈ reads.frames) :
    (∃ chunk ∈ reads.chunks, frame = .fileChunk chunk) ∨ frame = .fileEnd := by
  rcases List.mem_append.mp h with hchunk | hend
  · obtain ⟨chunk, hmem, rfl⟩ := List.mem_map.mp hchunk
    exact .inl ⟨chunk, hmem, rfl⟩
  · exact .inr (List.mem_singleton.mp hend)

/-- Reads of one size throughout. -/
def uniform (count size : Nat) (hsize : 1 ≤ size ∧ size ≤ fileBufferSize) : FileReads where
  chunks := List.replicate count (List.replicate size 0)
  sized := by
    intro chunk hchunk
    rw [List.eq_of_mem_replicate hchunk, List.length_replicate]
    exact hsize

@[simp] theorem sizes_uniform (count size : Nat)
    (hsize : 1 ≤ size ∧ size ≤ fileBufferSize) :
    (uniform count size hsize).sizes = List.replicate count size := by
  simp [uniform, sizes, lengthsOf]

end FileReads

end SideWire.FlowControl
