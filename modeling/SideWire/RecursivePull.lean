import SideWire.PullFidelity
import SideWire.RecursivePush

/-!
A recursive pull: `run_pull` on a directory, which asks the device what there is, and what it
brings back of what was pushed.
-/

namespace SideWire.RecursivePull

open SideWire.ByteString
open SideWire.FlowControl (Actor fileBufferSize)
open SideWire.JobPool
open SideWire.PairingStore (Text trim)
open SideWire.PushTree
open SideWire.RecursivePush
open SideWire.RemoteDirs
open SideWire.TransferPaths
open SideWire.TransitionSystem

/-- What stands below the output directory, by the names that lead there. -/
abbrev LocalFiles := List Text → Option Bytes

/-- The call. `createDirs` is what becomes of making the directories that lead to a place below
the output directory, which leaves all files as they are. -/
structure Pull where
  platform : Platform
  remote : Text
  server : Server
  device : Option Text
  runAs : RunAs
  createDirs : LocalFiles → List Text → Except String Unit
  jobs : Nat

def findRequest (pull : Pull) (kind : Text) : ExecRequest where
  device := pull.device
  program := "/system/bin/find".toList
  args := [pull.remote, "-type".toList, kind, "-print0".toList]
  runAs := pull.runAs

def nul : Char := '\x00'

def remoteFind (pull : Pull) (made : List ExecRequest) (kind : Text) : Except String (List Text) :=
  match pull.server made (findRequest pull kind) with
  | .error message => .error message
  | .ok (stdout, stderr, code) =>
      if code.getD 1 ≠ 0 then
        let root := String.ofList pull.remote
        let text := String.ofList (trim stderr)
        .error s!"find {root}: {text}"
      else .ok ((stdout.splitOnP (· == nul)).filter (· ≠ []))

/-- The names of a path that has normal components only. -/
def namesOf (platform : Platform) (relative : Text) : List Text :=
  ((components platform relative).getD []).filterMap fun
    | .normal name => some name
    | _ => none

/-- Where what the device reports at a path is put. -/
def destination (pull : Pull) (path : Text) : Except String (List Text) :=
  match localRelative pull.platform pull.remote path with
  | .error message => .error message
  | .ok relative => .ok (namesOf pull.platform relative)

/-- The loop over the directories that were found. -/
def makeDirs (pull : Pull) (files : LocalFiles) : List Text → Except String Unit
  | [] => .ok ()
  | path :: rest =>
      match destination pull path with
      | .error message => .error message
      | .ok names =>
          match pull.createDirs files names with
          | .error message => .error message
          | .ok () => makeDirs pull files rest

/-- What happens before the transfers: the files to fetch, or the error. -/
def start (pull : Pull) (files : LocalFiles) : Except String (List Text) :=
  match remoteFind pull [] ['d'] with
  | .error message => .error message
  | .ok directories =>
      match makeDirs pull files directories with
      | .error message => .error message
      | .ok () => remoteFind pull [findRequest pull ['d']] ['f']

/-- What the loop does for a file before it starts the transfer. -/
def prepare (pull : Pull) (path : Text) (files : LocalFiles) : Except String LocalFiles :=
  match destination pull path with
  | .error message => .error message
  | .ok names =>
      match pull.createDirs files names.dropLast with
      | .error message => .error message
      | .ok () => .ok files

/-- `pull_file` on one file of the device, between peers with flow control. It succeeds at the
end of a transfer of what the handler reads; after any other end something else may stand at its
destination. -/
inductive PullFile (pull : Pull) (remote : Files) (path : Text) :
    LocalFiles → Except String Nat → LocalFiles → Prop
  | received {before : LocalFiles} {plan : PullTransfer.Plan} {bytes : Bytes}
      {s t : PullTransfer.State} {a : Actor} {names : List Text}
      (hdestination : destination pull path = .ok names)
      (hcontent : remote (place path) = some bytes) (hreads : plan.reads.chunks.flatten = bytes)
      (hreach : (PullTransfer.system plan).Reachable s) (hstep : PullTransfer.Step plan s a t)
      (hrunning : s.host.running = true) (hsucceeded : t.host = .succeeded) :
      PullFile pull remote path before (.ok t.written.flatten.length)
        (Function.update before names (some t.written.flatten))
  | failed {before : LocalFiles} {names : List Text} {message : String}
      (hdestination : destination pull path = .ok names) (left : Option Bytes) :
      PullFile pull remote path before (.error message) (Function.update before names left)
  | refused {before : LocalFiles} {message : String} :
      PullFile pull remote path before (.error message) before

def pullLoad (pull : Pull) (remote : Files) (paths : List Text) :
    Workload Text LocalFiles String where
  limit := transferJobs pull.jobs
  bound := u64Bound
  plan := paths
  prepare := prepare pull
  acts := PullFile pull remote

/-! Destinations. -/

section Destinations

variable {pull : Pull} {path : Text} {names : List Text}

theorem namesOf_of_hasNames {platform : Platform} {relative : Text}
    (h : HasNames platform relative names) : namesOf platform relative = names := by
  rw [namesOf, h.found, Option.getD_some, List.filterMap_map]
  exact List.filterMap_some

theorem destination_eq_ok_iff :
    destination pull path = .ok names ↔
      ∃ tail, path = pull.remote.rdropWhile (· == '/') ++ tail ∧
        List.Forall₂ (fun part name => partName pull.platform part = some name)
          (parts tail) names := by
  rw [destination]
  constructor
  · intro h
    cases hrelative : localRelative pull.platform pull.remote path with
    | error message =>
        rw [hrelative] at h
        cases h
    | ok relative =>
        rw [hrelative] at h
        simp only at h
        obtain ⟨tail, names', hpath, hnames, rfl⟩ := localRelative_eq_ok_iff.mp hrelative
        rw [namesOf_of_hasNames (hasNames_of_forall₂ hnames)] at h
        obtain rfl := Except.ok.inj h
        exact ⟨tail, hpath, hnames⟩
  · rintro ⟨tail, hpath, hnames⟩
    rw [localRelative_eq_ok_iff.mpr ⟨tail, names, hpath, hnames, rfl⟩]
    simp only
    rw [namesOf_of_hasNames (hasNames_of_forall₂ hnames)]

theorem prepare_eq_ok {files after : LocalFiles} (h : prepare pull path files = .ok after) :
    after = files ∧ ∃ names, destination pull path = .ok names := by
  rw [prepare] at h
  cases hdestination : destination pull path with
  | error message =>
      rw [hdestination] at h
      cases h
  | ok names =>
      rw [hdestination] at h
      simp only at h
      split at h
      · cases h
      · exact ⟨(Except.ok.inj h).symm, names, rfl⟩

end Destinations

/-! The transfers. -/

/-- The files come to places of their own. -/
structure Apart (pull : Pull) (paths : List Text) : Prop where
  nodup : paths.Nodup
  injective : ∀ path ∈ paths, ∀ other ∈ paths, ∀ names, destination pull path = .ok names →
    destination pull other = .ok names → path = other

/-- The file stands on the host as it is on the device. -/
def Received (pull : Pull) (remote : Files) (path : Text) (size : Nat) (files : LocalFiles) :
    Prop :=
  ∃ names bytes, destination pull path = .ok names ∧ remote (place path) = some bytes ∧
    size = bytes.length ∧ files names = some bytes

section Transfers

variable {pull : Pull} {remote : Files} {paths : List Text} {before : LocalFiles}
  {s : State Text LocalFiles String}

theorem PullFile.arrived {path : Text} {files after : LocalFiles} {size : Nat}
    (h : PullFile pull remote path files (.ok size) after) :
    Received pull remote path size after := by
  cases h with
  | @received plan bytes s t a names hdestination hcontent hreads hreach hstep hrunning
      hsucceeded =>
      have hwritten := (PullTransfer.faithful_of_succeeded hreach hstep hrunning hsucceeded).written
      refine ⟨names, bytes, hdestination, hcontent, ?_, ?_⟩
      · rw [hwritten, hreads]
      · rw [Function.update_self, hwritten, hreads]

theorem PullFile.other {path : Text} {files after : LocalFiles} {result : Except String Nat}
    {names : List Text} (h : PullFile pull remote path files result after)
    (hother : destination pull path ≠ .ok names) : after names = files names := by
  cases h with
  | received hdestination | failed hdestination =>
      refine Function.update_of_ne ?_ _ _
      rintro rfl
      exact hother hdestination
  | refused => rfl

theorem received_of_done (hapart : Apart pull paths)
    (h : (system (pullLoad pull remote paths) before).Reachable s) {path : Text} {size : Nat}
    (hdone : s.Done path size) : Received pull remote path size s.world := by
  refine achieves (Received pull remote) hapart.nodup ?_ ?_ ?_ h hdone
  · intro path _ files size after hacted
    exact PullFile.arrived hacted
  · intro path hpath other hother hne size files result after hreceived hacted
    obtain ⟨names, bytes, hdestination, hcontent, hsize, hfile⟩ := hreceived
    refine ⟨names, bytes, hdestination, hcontent, hsize, ?_⟩
    have hkept : after names = files names := PullFile.other hacted fun hsame =>
      hne (hapart.injective path hpath other hother names hdestination hsame)
    rwa [hkept]
  · intro path _ other _ size files after hreceived hprepared
    obtain ⟨rfl, -⟩ := prepare_eq_ok hprepared
    exact hreceived

theorem unchanged {names : List Text} (h : (system (pullLoad pull remote paths) before).Reachable s)
    (hother : ∀ path ∈ paths, destination pull path ≠ .ok names) :
    s.world names = before names := by
  refine keeps (fun files => files names = before names) rfl ?_ ?_ h
  · intro path _ files after hkeep hprepared
    obtain ⟨rfl, -⟩ := prepare_eq_ok hprepared
    exact hkeep
  · intro path hpath files result after hkeep hacted
    exact (PullFile.other hacted (hother path hpath)).trans hkeep

theorem total_of_received (hapart : Apart pull paths)
    (h : (system (pullLoad pull remote paths) before).Reachable s) {count total : Nat}
    (hdone : s.outcome = some (.done count total)) :
    count = paths.length ∧
      total = (paths.map fun path => ((remote (place path)).getD []).length).sum := by
  obtain ⟨hjoined, rfl, rfl⟩ := joined_of_done (inv_of_reachable h) hdone
  have hlength : (s.joined.map Prod.fst).length = paths.length := hjoined.length_eq
  rw [List.length_map] at hlength
  refine ⟨hlength, ?_⟩
  have hsizes : s.joined.map Prod.snd =
      (s.joined.map Prod.fst).map fun path => ((remote (place path)).getD []).length := by
    rw [List.map_map]
    refine List.map_congr_left fun p hp => ?_
    obtain ⟨names, bytes, -, hcontent, hsize, -⟩ := received_of_done hapart h (.inr hp)
    simp [hcontent, hsize]
  rw [hsizes, (hjoined.map _).sum_eq]
  rfl

end Transfers

/-- A path below the root, as `find` prints it. -/
def findPath (root : Text) (names : List Text) : Text := names.foldl remotePush root

/-- What `find` prints with `-print0`. -/
def listing (paths : List Text) : Text := paths.flatMap (· ++ [nul])

/-- The device reports these directories and these files. -/
structure Finds (pull : Pull) (directories paths : List Text) : Prop where
  dirs : ∃ stderr, pull.server [] (findRequest pull ['d']) =
    .ok (listing directories, stderr, some 0)
  files : ∃ stderr, pull.server [findRequest pull ['d']] (findRequest pull ['f']) =
    .ok (listing paths, stderr, some 0)
  printable : ∀ path ∈ directories ++ paths, path ≠ [] ∧ nul ∉ path

section Finding

variable {pull : Pull} {remote root : Text} {names : List Text} {platform : Platform}

theorem split_listing {paths : List Text} (h : ∀ path ∈ paths, path ≠ [] ∧ nul ∉ path) :
    ((listing paths).splitOnP (· == nul)).filter (· ≠ []) = paths := by
  induction paths with
  | nil => rfl
  | cons path paths ih =>
      obtain ⟨⟨hnil, hnul⟩, hpaths⟩ := List.forall_mem_cons.mp h
      have hclear : ∀ c ∈ path, (c == nul) = false := by
        intro c hc
        rw [beq_eq_false_iff_ne]
        rintro rfl
        exact hnul hc
      rw [listing, List.flatMap_cons, List.append_assoc, List.singleton_append,
        List.splitOnP_append_cons_of_forall_mem hclear nul (by simp),
        List.filter_cons_of_pos (by simpa using hnil)]
      exact congrArg (path :: ·) (ih hpaths)

theorem remoteFind_eq {made : List ExecRequest} {kind stderr : Text} {paths : List Text}
    (hserver : pull.server made (findRequest pull kind) = .ok (listing paths, stderr, some 0))
    (h : ∀ path ∈ paths, path ≠ [] ∧ nul ∉ path) : remoteFind pull made kind = .ok paths := by
  rw [remoteFind, hserver]
  simp only [Option.getD_some, ne_eq, not_true_eq_false, if_false]
  exact congrArg _ (split_listing h)

theorem parts_of_slashes {tail : Text} (h : ∀ c ∈ tail, c = '/') : parts tail = [] := by
  rw [← parts_dropWhile, List.dropWhile_eq_nil_iff.mpr (by simpa using h)]
  rfl

/-- What is found comes back to the names that lead there. -/
theorem destination_findPath (hnames : ∀ name ∈ names, IsPlain pull.platform name) :
    destination pull (findPath pull.remote names) = .ok names := by
  have hparts : ∀ name ∈ names, parts name = [name] := fun name hname =>
    parts_name (hnames name hname)
  have hslashes : ∀ c ∈ pull.remote.rtakeWhile (· == '/'), c = '/' := by
    intro c hc
    simpa using List.mem_rtakeWhile_imp hc
  obtain ⟨tail, htail, hfound⟩ := foldl_remotePush (getLast?_rdropWhile pull.remote) hparts
    (pull.remote.rtakeWhile (· == '/'))
  rw [List.rdropWhile_append_rtakeWhile] at htail
  rw [parts_of_slashes hslashes, List.nil_append] at hfound
  refine destination_eq_ok_iff.mpr ⟨tail, htail, ?_⟩
  rw [hfound]
  exact forall₂_partName hnames

theorem isAbsolute_remotePush (output name : Text) :
    isAbsolute (remotePush output name) = (output.isEmpty || isAbsolute output) := by
  cases output with
  | nil => rfl
  | cons c output =>
      rw [remotePush]
      split_ifs <;> rfl

theorem isAbsolute_foldl (base : Text) (hnames : names ≠ []) :
    isAbsolute (names.foldl remotePush base) = (base.isEmpty || isAbsolute base) := by
  induction names generalizing base with
  | nil => exact absurd rfl hnames
  | cons name names ih =>
      rw [List.foldl_cons]
      cases names with
      | nil => exact isAbsolute_remotePush base name
      | cons next names =>
          have hfilled : (remotePush base name).isEmpty = false := by
            rw [remotePush]
            split_ifs with hlast
            · cases base with
              | nil => cases hlast
              | cons c base => rfl
            · simp
          rw [ih _ (by simp), hfilled, Bool.false_or, isAbsolute_remotePush]

/-- What was pushed is found at its place, however the root is written. -/
theorem place_findPath (hplain : ∀ name ∈ names, IsPlain platform name) (hnames : names ≠ []) :
    place (findPath root names) = place (remotePath root names) := by
  have hparts : ∀ name ∈ names, parts name = [name] := fun name hname =>
    parts_name (hplain name hname)
  refine Prod.ext ?_ ?_
  · rw [place, place, findPath, remotePath, isAbsolute_foldl _ hnames, isAbsolute_foldl _ hnames]
    split_ifs with hroot
    · rw [hroot]
    · cases root with
      | nil => rfl
      | cons c rest =>
          obtain ⟨tail, htail⟩ := List.rdropWhile_prefix (· == '/') (l := c :: rest)
          cases hdrop : (c :: rest).rdropWhile (· == '/') with
          | nil =>
              have hc := List.rdropWhile_eq_nil_iff.mp hdrop c List.mem_cons_self
              obtain rfl := beq_iff_eq.mp hc
              rfl
          | cons d dropped =>
              rw [hdrop] at htail
              obtain rfl := (List.cons.inj htail).1
              rfl
  · rw [place, place, findPath, parts_remotePath hparts, parts_foldl_remotePush _ hparts]

theorem makeDirs_ok {files : LocalFiles} {directories : List Text}
    (hcreate : ∀ files names, pull.createDirs files names = .ok ())
    (h : ∀ path ∈ directories, ∃ names, destination pull path = .ok names) :
    makeDirs pull files directories = .ok () := by
  induction directories with
  | nil => rfl
  | cons path directories ih =>
      obtain ⟨⟨names, hnames⟩, hrest⟩ := List.forall_mem_cons.mp h
      rw [makeDirs, hnames]
      simp only [hcreate]
      exact ih hrest

end Finding

/-! There and back. -/

section Restoring

variable {pull : Pull} {push : Push} {tree : LocalTree pull.platform} {paths : List Text}
  {files : List (List Text)}

theorem findPath_injective {file file' : List Text} (h : IsFile tree.readDir file)
    (h' : IsFile tree.readDir file')
    (heq : findPath pull.remote file = findPath pull.remote file') : file = file' := by
  have hfile := destination_findPath (plain_of_isFile h)
  rw [heq, destination_findPath (plain_of_isFile h')] at hfile
  exact (Except.ok.inj hfile).symm

theorem apart_of_files (hnodup : paths.Nodup) (hpaths : ∀ path ∈ paths, ∃ file,
    IsFile tree.readDir file ∧ path = findPath pull.remote file) : Apart pull paths := by
  refine ⟨hnodup, fun path hpath other hother names hnames hnames' => ?_⟩
  obtain ⟨file, hfile, rfl⟩ := hpaths path hpath
  obtain ⟨file', hfile', rfl⟩ := hpaths other hother
  rw [destination_findPath (plain_of_isFile hfile)] at hnames
  rw [destination_findPath (plain_of_isFile hfile')] at hnames'
  rw [Except.ok.inj hnames, Except.ok.inj hnames']

theorem perm_of_files (hfiles : files.Nodup)
    (hmem : ∀ file, file ∈ files ↔ IsFile tree.readDir file) (hpaths : paths.Nodup)
    (hfound : ∀ path, path ∈ paths ↔ ∃ file, IsFile tree.readDir file ∧
      path = findPath pull.remote file) : paths.Perm (files.map (findPath pull.remote)) := by
  have hnodup : (files.map (findPath pull.remote)).Nodup := by
    refine hfiles.map_on fun file hfile file' hfile' heq => ?_
    exact findPath_injective ((hmem file).mp hfile) ((hmem file').mp hfile') heq
  refine (List.perm_ext_iff_of_nodup hpaths hnodup).mpr fun path => ?_
  rw [hfound, List.mem_map]
  constructor
  · rintro ⟨file, hfile, rfl⟩
    exact ⟨file, (hmem file).mpr hfile, rfl⟩
  · rintro ⟨file, hfile, rfl⟩
    exact ⟨file, (hmem file).mp hfile, rfl⟩

theorem ne_nil_of_isFile {file : List Text} (h : IsFile tree.readDir file) : file ≠ [] := by
  obtain ⟨dir, name, -, -, rfl⟩ := h
  simp

end Restoring

/-! The two files that were pushed are pulled. -/

def smallPaths : List Text := [['/', 'd', '/', 'f'], ['/', 'd', '/', 'a', '/', 'g']]

def smallPull : Pull where
  platform := .unix
  remote := ['/', 'd']
  server
    | [], _ => .ok (listing [['/', 'd'], ['/', 'd', '/', 'a']], [], some 0)
    | _, _ => .ok (listing smallPaths, [], some 0)
  device := none
  runAs := .root
  createDirs _ _ := .ok ()
  jobs := 2

theorem isFile_smallDir {file : List Text} :
    IsFile smallDir file ↔ file = [['f']] ∨ file = [['a'], ['g']] := by
  constructor
  · rintro ⟨dir, name, hdir, ⟨entries, hread, hentry⟩, rfl⟩
    rcases List.mem_pair.mp (smallTree.finite dir hdir) with rfl | rfl
    · obtain rfl := Except.ok.inj hread
      simpa using hentry
    · obtain rfl := Except.ok.inj hread
      simpa using hentry
  · rintro (rfl | rfl)
    · exact ⟨[], ['f'], .refl, ⟨_, rfl, by simp⟩, rfl⟩
    · exact ⟨[['a']], ['g'], .single ⟨['a'], ⟨_, rfl, List.mem_cons_self⟩, rfl⟩,
        ⟨_, rfl, List.mem_singleton_self _⟩, rfl⟩

theorem mem_smallPaths (path : Text) : path ∈ smallPaths ↔
    ∃ file, IsFile smallTree.readDir file ∧ path = findPath smallPull.remote file := by
  change _ ↔ ∃ file, IsFile smallDir file ∧ path = findPath ['/', 'd'] file
  simp only [isFile_smallDir, smallPaths, List.mem_cons, List.not_mem_nil, or_false]
  constructor
  · rintro (rfl | rfl)
    · exact ⟨_, .inl rfl, rfl⟩
    · exact ⟨_, .inr rfl, rfl⟩
  · rintro ⟨file, rfl | rfl, rfl⟩
    · exact .inl rfl
    · exact .inr rfl

theorem pullFile_single {remote : Files} {path : Text} {names : List Text} {chunk : Bytes}
    (before : LocalFiles) (hnames : destination smallPull path = .ok names)
    (hcontent : remote (place path) = some chunk)
    (hsized : 1 ≤ chunk.length ∧ chunk.length ≤ fileBufferSize) :
    ∃ size after, size = chunk.length ∧ PullFile smallPull remote path before (.ok size) after := by
  obtain ⟨s, a, t, hreach, hstep, hrunning, hsucceeded⟩ :=
    PullTransfer.exists_succeeded ⟨⟨[chunk], List.forall_mem_singleton.mpr hsized⟩, false, none⟩
      rfl rfl
  have hwritten := (PullTransfer.faithful_of_succeeded hreach hstep hrunning hsucceeded).written
  refine ⟨_, _, ?_, .received hnames hcontent (by simp) hreach hstep hrunning hsucceeded⟩
  simp [hwritten]

theorem exists_pulled {remote : Files} (hfirst : remote (true, [['d'], ['f']]) = some [1])
    (hsecond : remote (true, [['d'], ['a'], ['g']]) = some [2, 3]) :
    ∃ t : State Text LocalFiles String,
      (system (pullLoad smallPull remote smallPaths) fun _ => none).Reachable t ∧
        t.outcome = some (.done 2 3) := by
  have hroom : 0 < transferJobs 2 := by decide
  have hroom' : 1 < transferJobs 2 := by decide
  have hone : 0 + 1 < u64Bound := by decide
  have hboth : 0 + 1 + 2 < u64Bound := by decide
  obtain ⟨size, first, rfl, hpulled⟩ := @pullFile_single remote ['/', 'd', '/', 'f'] [['f']] [1]
    (fun _ => none) (by rfl) hfirst (by decide)
  obtain ⟨size, second, rfl, hpulled'⟩ := @pullFile_single remote ['/', 'd', '/', 'a', '/', 'g']
    [['a'], ['g']] [2, 3] first (by rfl) hsecond (by decide)
  exact ⟨_, ⟨.initial smallPaths fun _ => none, rfl,
    System.Leads.head (.prepare rfl rfl rfl (by rfl)) <|
    System.Leads.head (.start rfl rfl hroom) <|
    System.Leads.head (.prepare rfl rfl rfl (by rfl)) <|
    System.Leads.head (.start rfl rfl hroom') <|
    System.Leads.head (.act (.refl _) hpulled) <| System.Leads.head (.act (.refl _) hpulled') <|
    System.Leads.head (.join rfl (.inr ⟨rfl, rfl⟩) (.refl _) hone) <|
    System.Leads.head (.join rfl (.inr ⟨rfl, rfl⟩) (.refl _) hboth) <|
    .single (.complete rfl rfl rfl rfl rfl)⟩, rfl⟩

/-- What was pushed comes back. When a push of a directory has returned its count and the device
then reports the directories and files that were pushed, in any order, a pull of the same remote
path fetches them all and touches nothing else, and when it returns its count, that is the count
of the push, and every file stands with the same names and the same bytes as in the tree that was
pushed. -/
theorem pull_restores {pull : Pull} {push : Push} {tree : LocalTree pull.platform} {fuel : Nat}
    (hfuel : tree.dirs.length < fuel) {pending : List PendingFile} {made : List ExecRequest}
    (hstart : RecursivePush.start push tree fuel = some (.ok pending, made)) {files : Files}
    {s : State PendingFile Files String}
    (hpush : (system (pushLoad push pending) files).Reachable s) {count total : Nat}
    (hpushed : s.outcome = some (.done count total)) (hremote : pull.remote = push.remote)
    {directories paths : List Text} (hfinds : Finds pull directories paths)
    (hdirectories : ∀ path ∈ directories, ∃ dir, IsDir tree.readDir dir ∧
      path = findPath pull.remote dir)
    (hnodup : paths.Nodup) (hpaths : ∀ path, path ∈ paths ↔ ∃ file,
      IsFile tree.readDir file ∧ path = findPath pull.remote file)
    (hcreate : ∀ files names, pull.createDirs files names = .ok ()) (before : LocalFiles) :
    start pull before = .ok paths ∧
      ∀ t, (system (pullLoad pull s.world paths) before).Reachable t →
        (∀ names, ¬ IsFile tree.readDir names → t.world names = before names) ∧
        ∀ count' total', t.outcome = some (.done count' total') →
          count' = count ∧ total' = total ∧ ∀ file, IsFile tree.readDir file →
            ∃ bytes, push.content file = some bytes ∧ t.world file = some bytes := by
  obtain ⟨⟨found, htargets⟩, -⟩ := start_ok hfuel hstart
  have hapart := apart_of_files hnodup fun path => (hpaths path).mp
  have hstands {file : List Text} (hfile : IsFile tree.readDir file) :
      ∃ bytes, push.content file = some bytes ∧
        s.world (place (findPath pull.remote file)) = some bytes := by
    obtain ⟨bytes, hcontent, hplace⟩ :=
      stands_of_done htargets hpush hpushed file ((htargets.mem_iff file).mpr hfile)
    rw [place_findPath (plain_of_isFile hfile) (ne_nil_of_isFile hfile), hremote]
    exact ⟨bytes, hcontent, hplace⟩
  refine ⟨?_, fun t ht => ⟨fun names hnames => ?_, fun count' total' hdone => ?_⟩⟩
  · obtain ⟨⟨_, hdirs⟩, ⟨_, hfiles⟩, hprintable⟩ := hfinds
    obtain ⟨hprintable, hprintable'⟩ := List.forall_mem_append.mp hprintable
    have hmade : makeDirs pull before directories = .ok () := by
      refine makeDirs_ok hcreate fun path hpath => ?_
      obtain ⟨dir, hdir, rfl⟩ := hdirectories path hpath
      exact ⟨dir, destination_findPath (plain_of_isDir hdir)⟩
    rw [start, remoteFind_eq hdirs hprintable]
    simp only [hmade]
    exact remoteFind_eq hfiles hprintable'
  · refine unchanged ht fun path hpath heq => ?_
    obtain ⟨file, hfile, rfl⟩ := (hpaths path).mp hpath
    rw [destination_findPath (plain_of_isFile hfile)] at heq
    exact hnames (Except.ok.inj heq ▸ hfile)
  · obtain ⟨rfl, rfl⟩ := total_of_done htargets hpush hpushed
    obtain ⟨rfl, rfl⟩ := total_of_received hapart ht hdone
    have hperm := perm_of_files htargets.nodup htargets.mem_iff hnodup hpaths
    refine ⟨by simpa using hperm.length_eq, ?_, fun file hfile => ?_⟩
    · rw [(hperm.map _).sum_eq, List.map_map]
      refine congrArg List.sum (List.map_congr_left fun file hfile => ?_)
      obtain ⟨bytes, hcontent, hplace⟩ := hstands ((htargets.mem_iff file).mp hfile)
      simp [hcontent, hplace]
    · obtain ⟨bytes, hcontent, hplace⟩ := hstands hfile
      have hmem := (hpaths _).mpr ⟨file, hfile, rfl⟩
      have hjoined := (joined_of_done (inv_of_reachable ht) hdone).1
      obtain ⟨⟨path, size⟩, hpath, heq⟩ := List.mem_map.mp (hjoined.mem_iff.mpr hmem)
      obtain ⟨names, bytes', hnames, hreceived, -, hworld⟩ :=
        received_of_done hapart ht (.inr hpath)
      simp only at heq
      rw [heq, destination_findPath (plain_of_isFile hfile)] at hnames
      obtain rfl := Except.ok.inj hnames
      rw [heq, hplace] at hreceived
      obtain rfl := Option.some.inj hreceived
      exact ⟨bytes, hcontent, hworld⟩

theorem pull_restores_small : ∃ (s : State PendingFile Files String)
    (t : State Text LocalFiles String),
    (system (pushLoad smallPush smallPending) fun _ => none).Reachable s ∧
      (system (pullLoad smallPull s.world smallPaths) fun _ => none).Reachable t ∧
      t.world [['a'], ['g']] = some [2, 3] := by
  obtain ⟨made, hstart⟩ := start_smallPush
  obtain ⟨s, h, hpushed⟩ := exists_pushed
  have hfinds : Finds smallPull [['/', 'd'], ['/', 'd', '/', 'a']] smallPaths :=
    ⟨⟨[], rfl⟩, ⟨[], rfl⟩, by decide⟩
  have hdirectories : ∀ path ∈ ([['/', 'd'], ['/', 'd', '/', 'a']] : List Text),
      ∃ dir, IsDir smallTree.readDir dir ∧ path = findPath smallPull.remote dir := by
    intro path hpath
    rcases List.mem_pair.mp hpath with rfl | rfl
    · exact ⟨[], .refl, rfl⟩
    · exact ⟨[['a']], .single ⟨['a'], ⟨_, rfl, List.mem_cons_self⟩, rfl⟩, rfl⟩
  obtain ⟨-, hpull⟩ := @pull_restores smallPull smallPush smallTree 3 (by decide) _ _ hstart _ s h
    2 3 hpushed rfl _ _ hfinds hdirectories (by decide) mem_smallPaths (fun _ _ => rfl)
    (fun _ => none)
  obtain ⟨⟨files, htargets⟩, -⟩ :=
    start_ok (show smallTree.dirs.length < 3 by decide) hstart
  have hstands {file : List Text} (hfile : IsFile smallTree.readDir file) :=
    stands_of_done htargets h hpushed file ((htargets.mem_iff file).mpr hfile)
  obtain ⟨first, hfirst, hplace⟩ := hstands (isFile_smallDir.mpr (.inl rfl))
  obtain ⟨second, hsecond, hplace'⟩ := hstands (isFile_smallDir.mpr (.inr rfl))
  obtain ⟨t, ht, hdone⟩ := exists_pulled (hplace.trans hfirst.symm) (hplace'.trans hsecond.symm)
  obtain ⟨-, hrestored⟩ := hpull t ht
  obtain ⟨-, -, hall⟩ := hrestored 2 3 hdone
  obtain ⟨bytes, hcontent, hworld⟩ := hall [['a'], ['g']] (isFile_smallDir.mpr (.inr rfl))
  exact ⟨s, t, h, ht, hworld.trans hcontent.symm⟩

end SideWire.RecursivePull
