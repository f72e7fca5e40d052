import SideWire.Base.JobPool
import SideWire.PushFidelity
import SideWire.PushTree
import SideWire.RemoteDirs

/-!
A recursive push as a whole: `push_path` on a directory, with the directories it asks for first
and the pool of transfers after them.
-/

namespace SideWire.RecursivePush

open SideWire.ByteString
open SideWire.FlowControl (Actor fileBufferSize)
open SideWire.JobPool
open SideWire.PairingStore (Text)
open SideWire.PushTree
open SideWire.RemoteDirs
open SideWire.TransferPaths
open SideWire.TransitionSystem

def maxTransferJobs : Nat := 16

def transferJobs (jobs : Nat) : Nat := max 1 (min jobs maxTransferJobs)

/-- How many bytes a `u64` counts. -/
def u64Bound : Nat := 2 ^ 64

/-- Where a path of the device leads: the slashes between its names do not count. -/
abbrev Place := Bool × List Text

def place (path : Text) : Place := (isAbsolute path, parts path)

abbrev Files := Place → Option Bytes

/-- A path on the host by its names, and the path that it is pushed to. -/
abbrev PendingFile := List Text × Text

/-- The call, beside the tree that it is about. -/
structure Push where
  root : Text
  remote : Text
  content : List Text → Option Bytes
  server : Server
  device : Option Text
  runAs : RunAs
  jobs : Nat

/-- `push_file` on one file, between peers with flow control. It succeeds at the end of a
transfer of what the host reads, and returns the size of the file; after any other end something
else may stand in its place. -/
inductive PushFile (content : List Text → Option Bytes) (job : PendingFile) :
    Files → Except String Nat → Files → Prop
  | sent {before : Files} {plan : PushTransfer.Plan} {bytes : Bytes} {s t : PushTransfer.State}
      {a : Actor} (hcontent : content job.1 = some bytes)
      (hreads : plan.reads.chunks.flatten = bytes)
      (hreach : (PushTransfer.system plan).Reachable s) (hstep : PushTransfer.Step plan s a t)
      (hrunning : s.host.running = true) (hsucceeded : t.host = .succeeded) :
      PushFile content job before (.ok bytes.length)
        (Function.update before (place job.2) (some t.written.flatten))
  | failed {before : Files} {message : String} (left : Option Bytes) :
      PushFile content job before (.error message)
        (Function.update before (place job.2) left)

/-- What happens before the transfers: the walk, and the directories. The requests that were
made are told beside the outcome. -/
def start {platform : Platform} (push : Push) (tree : LocalTree platform) (fuel : Nat) :
    Option (Except String (List PendingFile) × List ExecRequest) :=
  match walkTree platform push.root push.remote tree.readDir fuel (.initial push.remote) with
  | none => none
  | some (.error message) => some (.error message, [])
  | some (.ok walk) =>
      match ensureRemoteDirs push.server push.device push.runAs walk.remoteDirs with
      | (.error message, made) => some (.error message, made)
      | (.ok (), made) => some (.ok walk.pendingFiles, made)

/-- The loop over the pending files, and `drain_transfers`. -/
def pushLoad (push : Push) (pending : List PendingFile) : Workload PendingFile Files String where
  limit := transferJobs push.jobs
  bound := u64Bound
  plan := pending
  prepare _ files := .ok files
  acts := PushFile push.content

theorem place_injective {platform : Platform} {remote : Text} {names names' : List Text}
    (hnames : ∀ name ∈ names, IsPlain platform name)
    (hnames' : ∀ name ∈ names', IsPlain platform name)
    (h : place (remotePath remote names) = place (remotePath remote names')) : names = names' :=
  names_of_parts hnames hnames' (congrArg Prod.snd h)

/-! The transfers. -/

section Transfers

variable {platform : Platform} {push : Push} {tree : LocalTree platform}
  {pending : List PendingFile} {before : Files} {s : State PendingFile Files String}

/-- The file stands on the device as it is on the host. -/
def Arrived (push : Push) (job : PendingFile) (size : Nat) (files : Files) : Prop :=
  ∃ bytes, push.content job.1 = some bytes ∧ size = bytes.length ∧
    files (place job.2) = some bytes

/-- The files to send, each to a place of its own. -/
structure Targets (tree : LocalTree platform) (remote : Text) (pending : List PendingFile)
    (files : List (List Text)) : Prop where
  pending : pending = files.map fun file => (file, remotePath remote file)
  nodup : files.Nodup
  mem_iff : ∀ file, file ∈ files ↔ IsFile tree.readDir file

theorem Targets.eq_of_mem {files : List (List Text)} (h : Targets tree push.remote pending files)
    {job : PendingFile} (hjob : job ∈ pending) :
    IsFile tree.readDir job.1 ∧ job.2 = remotePath push.remote job.1 := by
  rw [h.pending] at hjob
  obtain ⟨file, hfile, rfl⟩ := List.mem_map.mp hjob
  exact ⟨(h.mem_iff file).mp hfile, rfl⟩

theorem Targets.place_ne {files : List (List Text)} (h : Targets tree push.remote pending files)
    {job other : PendingFile} (hjob : job ∈ pending) (hother : other ∈ pending)
    (hne : job ≠ other) : place job.2 ≠ place other.2 := by
  obtain ⟨hfile, hremote⟩ := h.eq_of_mem hjob
  obtain ⟨hfile', hremote'⟩ := h.eq_of_mem hother
  intro heq
  rw [hremote, hremote'] at heq
  have hnames := place_injective (plain_of_isFile hfile) (plain_of_isFile hfile') heq
  exact hne (Prod.ext hnames (by rw [hremote, hremote', hnames]))

theorem Targets.nodup_pending {files : List (List Text)}
    (h : Targets tree push.remote pending files) : pending.Nodup := by
  rw [h.pending]
  exact h.nodup.map fun file file' heq => (Prod.mk.inj heq).1

theorem PushFile.arrived {content : List Text → Option Bytes} {job : PendingFile}
    {before after : Files} {size : Nat} (h : PushFile content job before (.ok size) after)
    (hcontent : push.content = content) : Arrived push job size after := by
  cases h with
  | @sent plan bytes s t a hbytes hreads hreach hstep hrunning hsucceeded =>
      refine ⟨bytes, hcontent ▸ hbytes, rfl, ?_⟩
      have hwritten := (PushTransfer.faithful_of_succeeded hreach hstep hrunning hsucceeded).written
      rw [Function.update_self, hwritten, hreads]

theorem PushFile.update {content : List Text → Option Bytes} {job : PendingFile}
    {before after : Files} {result : Except String Nat}
    (h : PushFile content job before result after) :
    ∃ left, after = Function.update before (place job.2) left := by
  cases h with
  | sent => exact ⟨_, rfl⟩
  | failed left => exact ⟨left, rfl⟩

theorem arrived_of_done {files : List (List Text)}
    (htargets : Targets tree push.remote pending files)
    (h : (system (pushLoad push pending) before).Reachable s) {job : PendingFile} {size : Nat}
    (hdone : s.Done job size) : Arrived push job size s.world := by
  refine achieves (Arrived push) htargets.nodup_pending ?_ ?_ ?_ h hdone
  · intro job _ before size after hacted
    exact PushFile.arrived hacted rfl
  · intro job hjob other hother hne size before result after harrived hacted
    obtain ⟨bytes, hcontent, hsize, hfile⟩ := harrived
    obtain ⟨left, rfl⟩ := PushFile.update hacted
    refine ⟨bytes, hcontent, hsize, ?_⟩
    rwa [Function.update_of_ne (htargets.place_ne hjob hother hne)]
  · rintro job _ other _ size before after harrived heq
    obtain rfl := Except.ok.inj heq
    exact harrived

theorem total_of_done {files : List (List Text)} (htargets : Targets tree push.remote pending files)
    (h : (system (pushLoad push pending) before).Reachable s) {count total : Nat}
    (hdone : s.outcome = some (.done count total)) :
    count = files.length ∧
      total = (files.map fun file => ((push.content file).getD []).length).sum := by
  obtain ⟨hjoined, rfl, rfl⟩ := joined_of_done (inv_of_reachable h) hdone
  have hplan : (pushLoad push pending).plan = files.map fun file =>
      (file, remotePath push.remote file) := htargets.pending
  rw [hplan] at hjoined
  refine ⟨by simpa using hjoined.length_eq, ?_⟩
  have hsizes : s.joined.map Prod.snd =
      (s.joined.map Prod.fst).map fun job => ((push.content job.1).getD []).length := by
    rw [List.map_map]
    refine List.map_congr_left fun p hp => ?_
    obtain ⟨bytes, hcontent, hsize, -⟩ := arrived_of_done htargets h (.inr hp)
    simp [hcontent, hsize]
  rw [hsizes, (hjoined.map _).sum_eq, List.map_map]
  rfl

theorem stands_of_done {files : List (List Text)}
    (htargets : Targets tree push.remote pending files)
    (h : (system (pushLoad push pending) before).Reachable s) {count total : Nat}
    (hdone : s.outcome = some (.done count total)) :
    ∀ file ∈ files, ∃ bytes, push.content file = some bytes ∧
      s.world (place (remotePath push.remote file)) = some bytes := by
  intro file hfile
  have hjoined := (joined_of_done (inv_of_reachable h) hdone).1
  have hplanned : (file, remotePath push.remote file) ∈ pending :=
    htargets.pending ▸ List.mem_map_of_mem hfile
  obtain ⟨⟨job, size⟩, hjob, heq⟩ := List.mem_map.mp (hjoined.mem_iff.mpr hplanned)
  obtain ⟨bytes, hcontent, -, hplace⟩ := arrived_of_done htargets h (.inr hjob)
  simp only at heq
  rw [heq] at hcontent hplace
  exact ⟨bytes, hcontent, hplace⟩

/-- What was asked for before the transfers begin: the pushed directory and all directories in
it, each behind the one it stands in, in requests that all succeeded. -/
structure Asked (push : Push) (tree : LocalTree platform) (made : List ExecRequest)
    (below : List (List Text)) (batches : List (List Text)) : Prop where
  made : made = batches.map (mkdirRequest push.device push.runAs)
  paths : batches.flatten = push.remote :: below.map (remotePath push.remote)
  succeed : Batching.Succeed (mkdir push.server push.device push.runAs) batches
  mem_iff : ∀ dir, dir ∈ [] :: below ↔ IsDir tree.readDir dir
  parent : ∀ front dir back, below = front ++ dir :: back → dir.dropLast ∈ [] :: front

theorem ensureRemoteDirs_eq (server : Server) (device : Option Text) (runAs : RunAs)
    (paths : List Text) : ensureRemoteDirs server device runAs paths =
      ((Batching.perform (mkdir server device runAs) [] (mkdirBatches paths 0)).1,
        (Batching.perform (mkdir server device runAs) [] (mkdirBatches paths 0)).2.map
          (mkdirRequest device runAs)) :=
  ensureFrom_eq server device runAs paths 0 []

theorem start_ok {fuel : Nat} {made : List ExecRequest} (hfuel : tree.dirs.length < fuel)
    (h : start push tree fuel = some (.ok pending, made)) :
    (∃ files, Targets tree push.remote pending files) ∧
      ∃ below batches, Asked push tree made below batches := by
  rw [start] at h
  rcases walkTree_ends push.root push.remote hfuel with
    ⟨walk, below, files, hwalk, hfound⟩ | ⟨⟨message, hwalk⟩, -⟩
  · rw [hwalk] at h
    simp only at h
    obtain ⟨rfl⟩ := hfound.walk
    rcases Batching.perform_spec (mkdir push.server push.device push.runAs)
      (mkdirBatches (push.remote :: below.map (remotePath push.remote)) 0) with
      ⟨hsucceed, hperform⟩ | ⟨earlier, batch, later, message, -, -, -, hperform⟩
    · rw [ensureRemoteDirs_eq, hperform] at h
      simp only [Option.some.injEq, Prod.mk.injEq, Except.ok.injEq] at h
      obtain ⟨rfl, rfl⟩ := h
      refine ⟨⟨files, rfl, hfound.nodup_files, hfound.mem_files⟩, below, _, rfl, ?_, hsucceed,
        hfound.mem_dirs, hfound.parent⟩
      exact (cut_mkdirBatches _ 0).flatten
    · rw [ensureRemoteDirs_eq, hperform] at h
      simp at h
  · rw [hwalk] at h
    simp at h

theorem transferJobs_pos (jobs : Nat) : 0 < transferJobs jobs := by
  rw [transferJobs]
  omega

end Transfers

def smallPush : Push where
  root := ['h']
  remote := ['/', 'd']
  content
    | [['f']] => some [1]
    | [['a'], ['g']] => some [2, 3]
    | _ => none
  server _ _ := .ok ([], [], some 0)
  device := none
  runAs := .root
  jobs := 2

def smallPending : List PendingFile :=
  [([['f']], ['/', 'd', '/', 'f']), ([['a'], ['g']], ['/', 'd', '/', 'a', '/', 'g'])]

theorem start_smallPush : ∃ made, start smallPush smallTree 3 = some (.ok smallPending, made) := by
  have hwalk : walkTree .unix smallPush.root smallPush.remote smallTree.readDir 3
      (.initial smallPush.remote) = some (.ok
        ⟨[], [['/', 'd'], ['/', 'd', '/', 'a']], smallPending⟩) := by rfl
  rcases Batching.perform_spec (mkdir smallPush.server smallPush.device smallPush.runAs)
    (mkdirBatches [['/', 'd'], ['/', 'd', '/', 'a']] 0) with
    ⟨-, hperform⟩ | ⟨earlier, batch, later, message, -, -, hfails, -⟩
  · rw [start, hwalk]
    simp only [ensureRemoteDirs_eq, hperform]
    exact ⟨_, rfl⟩
  · cases hfails

/-- A file of a single read. -/
def singleRead (chunk : Bytes) (hsized : 1 ≤ chunk.length ∧ chunk.length ≤ fileBufferSize) :
    PushTransfer.Plan :=
  ⟨⟨[chunk], List.forall_mem_singleton.mpr hsized⟩, none⟩

theorem pushFile_single {content : List Text → Option Bytes} {job : PendingFile} {chunk : Bytes}
    (before : Files) (hcontent : content job.1 = some chunk)
    (hsized : 1 ≤ chunk.length ∧ chunk.length ≤ fileBufferSize) :
    ∃ after, PushFile content job before (.ok chunk.length) after := by
  obtain ⟨s, a, t, hreach, hstep, hrunning, hsucceeded⟩ :=
    PushTransfer.exists_succeeded (singleRead chunk hsized) rfl
  exact ⟨_, .sent hcontent (by simp [singleRead]) hreach hstep hrunning hsucceeded⟩

theorem exists_pushed : ∃ s : State PendingFile Files String,
    (system (pushLoad smallPush smallPending) fun _ => none).Reachable s ∧
      s.outcome = some (.done 2 3) := by
  have hone : 0 + 1 < u64Bound := by decide
  have hboth : 0 + 1 + 2 < u64Bound := by decide
  obtain ⟨first, hfirst⟩ := @pushFile_single smallPush.content ([['f']], ['/', 'd', '/', 'f']) [1]
    (fun _ => none) rfl (by decide)
  obtain ⟨second, hsecond⟩ := @pushFile_single smallPush.content
    ([['a'], ['g']], ['/', 'd', '/', 'a', '/', 'g']) [2, 3] first rfl (by decide)
  exact ⟨_, ⟨.initial smallPending fun _ => none, rfl,
    System.Leads.head (.prepare rfl rfl rfl rfl) <|
    System.Leads.head (.start rfl rfl (by decide)) <|
    System.Leads.head (.prepare rfl rfl rfl rfl) <|
    System.Leads.head (.start rfl rfl (by decide)) <|
    System.Leads.head (.act (.refl _) hfirst) <| System.Leads.head (.act (.refl _) hsecond) <|
    System.Leads.head (.join rfl (.inr ⟨rfl, rfl⟩) (.refl _) hone) <|
    System.Leads.head (.join rfl (.inr ⟨rfl, rfl⟩) (.refl _) hboth) <|
    .single (.complete rfl rfl rfl rfl rfl)⟩, rfl⟩

/-- A recursive push waits for nothing but its transfers: a run has at most four steps for each
file and one more; without an outcome the loop can go on, unless it waits for a transfer that has
not returned; and once there is an outcome, a failure of a single transfer too, no more files are
sent. -/
theorem push_ends (push : Push) (pending : List PendingFile) (before : Files)
    {s : State PendingFile Files String}
    (h : (system (pushLoad push pending) before).Reachable s) :
    (∀ trace t, (system (pushLoad push pending) before).Run s trace t →
        trace.length ≤ 4 * pending.length + 1) ∧
      (s.outcome = none → (∃ t, (system (pushLoad push pending) before).step s .owner t) ∨
        s.Joins (transferJobs push.jobs) ∧ s.finished = [] ∧ s.running ≠ []) ∧
      ∀ t, s.outcome ≠ none → (system (pushLoad push pending) before).Leads s t →
        t.outcome = s.outcome ∧ t.started.Perm s.started := by
  refine ⟨fun trace t hrun => ?_, goes_on (transferJobs_pos _), fun t => started_of_outcome⟩
  have hlength := length_le_work hrun
  have hwork : s.work ≤ 4 * pending.length + 1 := work_le h
  omega

theorem push_ends_small : ∃ s : State PendingFile Files String,
    (system (pushLoad smallPush smallPending) fun _ => none).Reachable s ∧
      ∀ t, (system (pushLoad smallPush smallPending) fun _ => none).Leads s t →
        t.outcome = some (.done 2 3) := by
  obtain ⟨s, h, hdone⟩ := exists_pushed
  obtain ⟨-, -, hstays⟩ := push_ends smallPush smallPending (fun _ => none) h
  exact ⟨s, h, fun t hrun => (hstays t (by simp [hdone]) hrun).1.trans hdone⟩

end SideWire.RecursivePush
