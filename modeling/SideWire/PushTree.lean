import Mathlib.Data.List.Perm.Subperm
import SideWire.Base.Exploration
import SideWire.TransferPaths

/-!
How a recursive push finds what there is to push: the walk of `push_path` over a local directory,
which it makes before it asks anything of the device.
-/

namespace SideWire.PushTree

open Relation
open SideWire.Exploration
open SideWire.PairingStore (Text)
open SideWire.TransferPaths

inductive FileType
  | file
  | dir
  | symlink
  | other
  deriving DecidableEq

/-- An entry with a name that is valid Unicode: `to_string_lossy` then leaves it as it is. -/
structure DirEntry where
  name : Text
  fileType : FileType
  deriving DecidableEq

/-- What `read_dir` returns for a directory, which is told by the names that lead to it from the
pushed one. An entry may fail to be read, in `next_entry` or in `file_type`. -/
abbrev ReadDir := List Text → Except String (List (Except String DirEntry))

def Lists (readDir : ReadDir) (dir : List Text) (entry : DirEntry) : Prop :=
  ∃ entries, readDir dir = .ok entries ∧ .ok entry ∈ entries

/-- The directories right under another. -/
def Under (readDir : ReadDir) (dir below : List Text) : Prop :=
  ∃ name, Lists readDir dir ⟨name, .dir⟩ ∧ below = dir ++ [name]

def IsDir (readDir : ReadDir) : List Text → Prop := ReflTransGen (Under readDir) []

def IsFile (readDir : ReadDir) (file : List Text) : Prop :=
  ∃ dir name, IsDir readDir dir ∧ Lists readDir dir ⟨name, .file⟩ ∧ file = dir ++ [name]

/-- A file system below a directory: the names in a directory differ and are no paths, and it
has finitely many directories. -/
structure LocalTree (platform : Platform) where
  readDir : ReadDir
  plain : ∀ dir entry, Lists readDir dir entry → IsPlain platform entry.name
  distinct : ∀ dir entries, readDir dir = .ok entries → entries.Pairwise fun first second =>
    ∀ entry other, first = .ok entry → second = .ok other → entry.name ≠ other.name
  dirs : List (List Text)
  finite : ∀ dir, IsDir readDir dir → dir ∈ dirs

structure Walk where
  stack : List (List Text)
  remoteDirs : List Text
  pendingFiles : List (List Text × Text)

/-- A path by the names that lead to it from another. -/
def joined (platform : Platform) (path : Text) (names : List Text) : Text :=
  names.foldl (push platform) path

section Code

variable (platform : Platform) (root remote : Text)

/-- The inner loop on one entry. -/
def scanEntry (directory : List Text) (entry : DirEntry) (walk : Walk) : Except String Walk :=
  let path := directory ++ [entry.name]
  match remoteJoin platform remote (joined platform [] path) with
  | .error message => .error message
  | .ok remotePath =>
      match entry.fileType with
      | .symlink =>
          let text := String.ofList (joined platform root path)
          .error s!"recursive push does not follow symlink {text}"
      | .dir => .ok { walk with
          remoteDirs := walk.remoteDirs ++ [remotePath], stack := path :: walk.stack }
      | .file => .ok { walk with pendingFiles := walk.pendingFiles ++ [(path, remotePath)] }
      | .other => .ok walk

def scan (directory : List Text) : List (Except String DirEntry) → Walk → Except String Walk
  | [], walk => .ok walk
  | .error message :: _, _ => .error message
  | .ok entry :: rest, walk =>
      match scanEntry platform root remote directory entry walk with
      | .error message => .error message
      | .ok walk => scan directory rest walk

/-- The outer loop, while the fuel lasts. -/
def walkTree (readDir : ReadDir) : Nat → Walk → Option (Except String Walk)
  | 0, _ => none
  | fuel + 1, walk =>
      match walk.stack with
      | [] => some (.ok walk)
      | directory :: stack =>
          match readDir directory with
          | .error message => some (.error message)
          | .ok entries =>
              match scan platform root remote directory entries { walk with stack := stack } with
              | .error message => some (.error message)
              | .ok walk => walkTree readDir fuel walk

end Code

def Walk.initial (remote : Text) : Walk := ⟨[[]], [remote], []⟩

/-! The entries of a directory. -/

/-- Where the names of a directory lead that stand for something of the given type. -/
def found (fileType : FileType) (directory : List Text) (entries : List (Except String DirEntry)) :
    List (List Text) :=
  entries.filterMap fun
    | .ok entry => if entry.fileType = fileType then some (directory ++ [entry.name]) else none
    | .error _ => none

/-- An entry that is readable and no symlink. -/
def Clear (entry : Except String DirEntry) : Prop :=
  ∃ known, entry = .ok known ∧ known.fileType ≠ .symlink

/-- Where the code puts what the names lead to. -/
def remotePath (remote : Text) (names : List Text) : Text :=
  names.foldl remotePush (if remote = ['/'] then ['/'] else remote.rdropWhile (· == '/'))

section Entries

variable {platform : Platform} {root remote : Text} {directory : List Text}
  {entries : List (Except String DirEntry)} {walk : Walk}

theorem remoteJoin_joined {names : List Text} (h : ∀ name ∈ names, IsPlain platform name) :
    remoteJoin platform remote (joined platform [] names) = .ok (remotePath remote names) := by
  have hnames := ((hasNames_nil platform).foldl_push h).found
  rw [List.nil_append] at hnames
  rw [remoteJoin, joined, hnames]
  exact remoteJoinLoop_normal _ _ names

theorem mem_found {fileType : FileType} {path : List Text} :
    path ∈ found fileType directory entries ↔
      ∃ name, .ok ⟨name, fileType⟩ ∈ entries ∧ path = directory ++ [name] := by
  simp only [found, List.mem_filterMap]
  constructor
  · rintro ⟨entry, hentry, hpath⟩
    cases entry with
    | error message => simp at hpath
    | ok entry =>
        obtain ⟨name, kind⟩ := entry
        simp only [Option.ite_none_right_eq_some, Option.some.injEq] at hpath
        obtain ⟨rfl, rfl⟩ := hpath
        exact ⟨name, hentry, rfl⟩
  · rintro ⟨name, hname, rfl⟩
    exact ⟨_, hname, by simp⟩

theorem found_append {fileType : FileType} (entries rest : List (Except String DirEntry)) :
    found fileType directory (entries ++ rest) =
      found fileType directory entries ++ found fileType directory rest :=
  List.filterMap_append

theorem nodup_found {fileType : FileType} (h : entries.Pairwise fun first second =>
    ∀ entry other, first = .ok entry → second = .ok other → entry.name ≠ other.name) :
    (found fileType directory entries).Nodup := by
  refine List.pairwise_filterMap.mpr (h.imp ?_)
  intro first second hdiffer path hpath path' hpath' heq
  cases first with
  | error message => simp at hpath
  | ok entry =>
      cases second with
      | error message => simp at hpath'
      | ok other =>
          simp only [Option.ite_none_right_eq_some, Option.some.injEq] at hpath hpath'
          rw [← hpath.2, ← hpath'.2] at heq
          exact hdiffer entry other rfl rfl (List.singleton_inj.mp (List.append_cancel_left heq))

theorem scanEntry_eq {entry : DirEntry}
    (hplain : ∀ name ∈ directory ++ [entry.name], IsPlain platform name)
    (hlink : entry.fileType ≠ .symlink) :
    scanEntry platform root remote directory entry walk = .ok
      ⟨(found .dir directory [.ok entry]).reverse ++ walk.stack,
        walk.remoteDirs ++ (found .dir directory [.ok entry]).map (remotePath remote),
        walk.pendingFiles ++
          (found .file directory [.ok entry]).map fun file => (file, remotePath remote file)⟩ := by
  rw [scanEntry]
  simp only [remoteJoin_joined hplain]
  obtain ⟨name, kind⟩ := entry
  cases kind with
  | symlink => exact absurd rfl hlink
  | _ => simp [found]

theorem scan_eq (hdirectory : ∀ name ∈ directory, IsPlain platform name)
    (hplain : ∀ entry, .ok entry ∈ entries → IsPlain platform entry.name)
    (hclear : ∀ entry ∈ entries, Clear entry) :
    scan platform root remote directory entries walk = .ok
      ⟨(found .dir directory entries).reverse ++ walk.stack,
        walk.remoteDirs ++ (found .dir directory entries).map (remotePath remote),
        walk.pendingFiles ++
          (found .file directory entries).map fun file => (file, remotePath remote file)⟩ := by
  induction entries generalizing walk with
  | nil => simp [scan, found]
  | cons entry rest ih =>
      obtain ⟨⟨known, rfl, hlink⟩, hrest⟩ := List.forall_mem_cons.mp hclear
      have hnames : ∀ name ∈ directory ++ [known.name], IsPlain platform name :=
        List.forall_mem_append.mpr ⟨hdirectory,
          List.forall_mem_singleton.mpr (hplain known List.mem_cons_self)⟩
      have hsplit (kind : FileType) : found kind directory (.ok known :: rest) =
          found kind directory [.ok known] ++ found kind directory rest :=
        found_append [.ok known] rest
      rw [scan, scanEntry_eq hnames hlink]
      simp only
      rw [ih (fun entry hentry => hplain entry (List.mem_cons_of_mem _ hentry)) hrest]
      simp [hsplit]

theorem scan_fails (hentry : ∃ entry ∈ entries, ¬ Clear entry) :
    ∃ message, scan platform root remote directory entries walk = .error message := by
  induction entries generalizing walk with
  | nil => simp at hentry
  | cons entry rest ih =>
      cases entry with
      | error message => exact ⟨message, rfl⟩
      | ok known =>
          rw [scan]
          cases hscan : scanEntry platform root remote directory known walk with
          | error message => exact ⟨message, rfl⟩
          | ok walk' =>
              obtain ⟨entry, hmem, hentry⟩ := hentry
              rcases List.mem_cons.mp hmem with rfl | hmem
              · have hlink : known.fileType = .symlink := by
                  by_contra hlink
                  exact hentry ⟨known, rfl, hlink⟩
                rw [scanEntry, hlink] at hscan
                revert hscan
                cases remoteJoin platform remote
                  (joined platform [] (directory ++ [known.name])) <;> simp
              · exact ih ⟨entry, hmem, hentry⟩

end Entries

/-! The walk. -/

/-- The walk does not get through the directory. -/
def Blocked (readDir : ReadDir) (dir : List Text) : Prop :=
  (∃ message, readDir dir = .error message) ∨
    ∃ entries, readDir dir = .ok entries ∧ ∃ entry ∈ entries, ¬ Clear entry

/-- The walk has met the directories `below` beside the pushed one and has been through those in
`opened`, where it found the `files`. -/
structure Walking {platform : Platform} (tree : LocalTree platform) (remote : Text) (walk : Walk)
    (below opened files : List (List Text)) : Prop where
  exploring : Exploring (Under tree.readDir) [] ([] :: below) opened walk.stack
  remoteDirs : walk.remoteDirs = remote :: below.map (remotePath remote)
  pendingFiles : walk.pendingFiles = files.map fun file => (file, remotePath remote file)
  nodup : files.Nodup
  mem_files : ∀ file, file ∈ files ↔ ∃ dir ∈ opened, ∃ name,
    Lists tree.readDir dir ⟨name, .file⟩ ∧ file = dir ++ [name]
  clear : ∀ dir ∈ opened, ¬ Blocked tree.readDir dir

section Walking

variable {platform : Platform} {tree : LocalTree platform} {root remote : Text} {walk : Walk}
  {below opened files : List (List Text)}

theorem rooted (readDir : ReadDir) : Rooted (Under readDir) [] where
  unique := by
    rintro a b c ⟨name, -, rfl⟩ ⟨name', -, heq⟩
    exact (List.append_inj' heq rfl).1
  top := by
    rintro a ⟨name, -, heq⟩
    exact absurd heq.symm (by simp)

theorem plain_of_isDir {dir : List Text} (h : IsDir tree.readDir dir) :
    ∀ name ∈ dir, IsPlain platform name := by
  induction h with
  | refl => simp
  | tail _ hunder ih =>
      obtain ⟨name, hlists, rfl⟩ := hunder
      exact List.forall_mem_append.mpr
        ⟨ih, List.forall_mem_singleton.mpr (tree.plain _ _ hlists)⟩

theorem plain_of_isFile {file : List Text} (h : IsFile tree.readDir file) :
    ∀ name ∈ file, IsPlain platform name := by
  obtain ⟨dir, name, hdir, hlists, rfl⟩ := h
  exact List.forall_mem_append.mpr
    ⟨plain_of_isDir hdir, List.forall_mem_singleton.mpr (tree.plain _ _ hlists)⟩

theorem walking_initial : Walking tree remote (.initial remote) [] [] [] where
  exploring := exploring_root
  remoteDirs := rfl
  pendingFiles := rfl
  nodup := List.nodup_nil
  mem_files := by simp
  clear := nofun

theorem Walking.opens {directory : List Text} {stack : List (List Text)}
    {entries : List (Except String DirEntry)} (h : Walking tree remote walk below opened files)
    (hstack : walk.stack = directory :: stack) (hread : tree.readDir directory = .ok entries)
    (hclear : ∀ entry ∈ entries, Clear entry) :
    Walking tree remote
      ⟨(found .dir directory entries).reverse ++ stack,
        walk.remoteDirs ++ (found .dir directory entries).map (remotePath remote),
        walk.pendingFiles ++
          (found .file directory entries).map fun file => (file, remotePath remote file)⟩
      (below ++ found .dir directory entries) (opened ++ [directory])
      (files ++ found .file directory entries) := by
  have hexploring := h.exploring
  rw [hstack] at hexploring
  have hlists {entry : DirEntry} : .ok entry ∈ entries ↔ Lists tree.readDir directory entry :=
    ⟨fun hentry => ⟨entries, hread, hentry⟩, fun ⟨entries', hread', hentry⟩ => by
      obtain rfl := Except.ok.inj (hread.symm.trans hread')
      exact hentry⟩
  refine ⟨?_, ?_, ?_, ?_, fun file => ?_, ?_⟩
  · have hchildren (c : List Text) : c ∈ found .dir directory entries ↔
        Under tree.readDir directory c := by
      simp only [mem_found, Under, hlists]
    exact hexploring.expand (rooted _) (nodup_found (tree.distinct _ _ hread)) hchildren
      ((List.reverse_perm _).append_right _)
  · rw [h.remoteDirs, List.map_append, List.cons_append]
  · rw [h.pendingFiles, List.map_append]
  · refine List.Nodup.append h.nodup (nodup_found (tree.distinct _ _ hread)) ?_
    intro file hfile hnew
    obtain ⟨dir, hdir, name, -, rfl⟩ := (h.mem_files file).mp hfile
    obtain ⟨name', -, heq⟩ := mem_found.mp hnew
    exact hexploring.not_opened ((List.append_inj' heq rfl).1 ▸ hdir)
  · rw [List.mem_append, h.mem_files, mem_found]
    simp only [hlists, List.mem_append, List.mem_singleton]
    constructor
    · rintro (⟨dir, hdir, hname⟩ | hname)
      · exact ⟨dir, .inl hdir, hname⟩
      · exact ⟨directory, .inr rfl, hname⟩
    · rintro ⟨dir, hdir | rfl, hname⟩
      · exact .inl ⟨dir, hdir, hname⟩
      · exact .inr hname
  · refine List.forall_mem_append.mpr ⟨h.clear, List.forall_mem_singleton.mpr ?_⟩
    rintro (⟨message, herror⟩ | ⟨entries', hread', entry, hentry, hnot⟩)
    · exact absurd (hread.symm.trans herror) (by simp)
    · obtain rfl := Except.ok.inj (hread.symm.trans hread')
      exact hnot (hclear entry hentry)

/-- With fuel for every directory that is left, the walk comes to its end. -/
theorem Walking.ends {fuel : Nat} (h : Walking tree remote walk below opened files)
    (hfuel : tree.dirs.length < fuel + opened.length) :
    (∃ walk' below opened files,
        walkTree platform root remote tree.readDir fuel walk = some (.ok walk') ∧
        walk'.stack = [] ∧ Walking tree remote walk' below opened files) ∨
      (∃ message,
        walkTree platform root remote tree.readDir fuel walk = some (.error message)) ∧
        ∃ dir, IsDir tree.readDir dir ∧ Blocked tree.readDir dir := by
  induction fuel generalizing walk below opened files with
  | zero =>
      -- more directories would have been opened than there are
      have hsub : opened ⊆ tree.dirs := fun dir hdir => tree.finite dir
        (h.exploring.reached dir (h.exploring.split.mem_iff.mpr (List.mem_append_left _ hdir)))
      have hnodup := (h.exploring.split.nodup_iff.mp h.exploring.nodup).of_append_left
      have hle := (List.subperm_of_subset hnodup hsub).length_le
      omega
  | succ fuel ih =>
      cases hstack : walk.stack with
      | nil =>
          refine .inl ⟨walk, below, opened, files, ?_, hstack, h⟩
          rw [walkTree, hstack]
      | cons directory stack =>
          have hexploring := h.exploring
          rw [hstack] at hexploring
          have hdir : IsDir tree.readDir directory :=
            hexploring.reached directory hexploring.node_mem
          rw [walkTree, hstack]
          simp only
          cases hread : tree.readDir directory with
          | error message =>
              exact .inr ⟨⟨message, rfl⟩, directory, hdir, .inl ⟨message, hread⟩⟩
          | ok entries =>
              by_cases hclear : ∀ entry ∈ entries, Clear entry
              · have hplain : ∀ entry, .ok entry ∈ entries → IsPlain platform entry.name :=
                  fun entry hentry => tree.plain directory entry ⟨entries, hread, hentry⟩
                simp only [scan_eq (plain_of_isDir hdir) hplain hclear]
                refine ih (h.opens hstack hread hclear) ?_
                rw [List.length_append, List.length_singleton]
                omega
              · push Not at hclear
                have hfails : ∃ message, scan platform root remote directory entries
                    { walk with stack := stack } = .error message := scan_fails hclear
                obtain ⟨message, hscan⟩ := hfails
                simp only [hscan]
                exact .inr ⟨⟨message, rfl⟩, directory, hdir, .inr ⟨entries, hread, hclear⟩⟩

theorem parts_name {name : Text} (h : IsPlain platform name) : parts name = [name] := by
  obtain ⟨hnil, hdot, -, hsep, -⟩ := isPlain_iff.mp h
  exact parts_eq_singleton (not_isSep_of_forall hsep) hnil hdot

theorem parts_remotePush {output name : Text} (hname : parts name = [name]) :
    parts (remotePush output name) = parts output ++ [name] := by
  have happend {front : Text} : parts (front ++ '/' :: name) = parts front ++ [name] := by
    rw [parts_append, hname]
  rw [remotePush]
  split_ifs with hlast
  · obtain ⟨front, rfl⟩ := List.getLast?_eq_some_iff.mp hlast
    have hfront : parts (front ++ ['/']) = parts front := by
      rw [parts_append]
      exact List.append_nil _
    rw [List.append_assoc, hfront]
    exact happend
  · rw [List.append_assoc]
    exact happend

theorem parts_foldl_remotePush {names : List Text} (base : Text)
    (hnames : ∀ name ∈ names, parts name = [name]) :
    parts (names.foldl remotePush base) = parts base ++ names := by
  induction names generalizing base with
  | nil => simp
  | cons name names ih =>
      obtain ⟨hname, hnames⟩ := List.forall_mem_cons.mp hnames
      rw [List.foldl_cons, ih _ hnames, parts_remotePush hname, List.append_assoc,
        List.singleton_append]

theorem parts_remotePath {names : List Text} (hnames : ∀ name ∈ names, parts name = [name]) :
    parts (remotePath remote names) = parts remote ++ names := by
  rw [remotePath, parts_foldl_remotePush _ hnames]
  split_ifs with hroot
  · rw [hroot]
  · rw [parts_rdropWhile]

/-- Different names lead to different places on the device. -/
theorem names_of_parts {names names' : List Text} (hnames : ∀ name ∈ names, IsPlain platform name)
    (hnames' : ∀ name ∈ names', IsPlain platform name)
    (h : parts (remotePath remote names) = parts (remotePath remote names')) : names = names' := by
  rw [parts_remotePath fun name hname => parts_name (hnames name hname),
    parts_remotePath fun name hname => parts_name (hnames' name hname)] at h
  exact List.append_cancel_left h

end Walking

/-- What a walk that gets through has found: the directories `below` the pushed one, each behind
the one it stands in, and the `files`. -/
structure Found {platform : Platform} (tree : LocalTree platform) (remote : Text) (walk : Walk)
    (below files : List (List Text)) : Prop where
  walk : walk = ⟨[], remote :: below.map (remotePath remote),
    files.map fun file => (file, remotePath remote file)⟩
  clear : ∀ dir, IsDir tree.readDir dir → ¬ Blocked tree.readDir dir
  nodup_dirs : ([] :: below).Nodup
  mem_dirs : ∀ dir, dir ∈ [] :: below ↔ IsDir tree.readDir dir
  parent : ∀ front dir back, below = front ++ dir :: back → dir.dropLast ∈ [] :: front
  nodup_files : files.Nodup
  mem_files : ∀ file, file ∈ files ↔ IsFile tree.readDir file

section Ends

variable {platform : Platform} {tree : LocalTree platform} {root remote : Text} {walk : Walk}
  {below opened files : List (List Text)} {fuel : Nat}

theorem Walking.found (h : Walking tree remote walk below opened files) (hstack : walk.stack = []) :
    Found tree remote walk below files := by
  have hexploring := h.exploring
  rw [hstack] at hexploring
  have hopened (dir : List Text) : dir ∈ opened ↔ IsDir tree.readDir dir := by
    rw [← hexploring.opened_perm.mem_iff]
    exact hexploring.complete dir
  refine ⟨?_, fun dir hdir => h.clear dir ((hopened dir).mpr hdir), hexploring.nodup,
    hexploring.complete, ?_, h.nodup, fun file => ?_⟩
  · obtain ⟨stack, remoteDirs, pendingFiles⟩ := walk
    obtain rfl : stack = [] := hstack
    rw [← h.pendingFiles, ← h.remoteDirs]
  · rintro front dir back rfl
    rcases hexploring.parent ([] :: front) dir back rfl with rfl | ⟨a, ha, -, name, -, rfl⟩
    · exact absurd hexploring.nodup (by simp)
    · simpa using ha
  · rw [h.mem_files]
    simp only [hopened, IsFile]
    exact ⟨fun ⟨dir, hdir, name, hname⟩ => ⟨dir, name, hdir, hname⟩,
      fun ⟨dir, name, hdir, hname⟩ => ⟨dir, hdir, name, hname⟩⟩

theorem walkTree_ends (root remote : Text) (hfuel : tree.dirs.length < fuel) :
    (∃ walk below files,
        walkTree platform root remote tree.readDir fuel (.initial remote) = some (.ok walk) ∧
        Found tree remote walk below files) ∨
      (∃ message, walkTree platform root remote tree.readDir fuel (.initial remote) =
        some (.error message)) ∧ ∃ dir, IsDir tree.readDir dir ∧ Blocked tree.readDir dir := by
  have hinitial : Walking tree remote (.initial remote) [] [] [] := walking_initial
  refine (@Walking.ends _ _ root _ _ _ _ _ fuel hinitial hfuel).imp_left ?_
  rintro ⟨walk, below, opened, files, hwalk, hstack, h⟩
  exact ⟨walk, below, files, hwalk, h.found hstack⟩

theorem Found.nodup_remote (h : Found tree remote walk below files) :
    (below.map (remotePath remote)).Nodup ∧ (files.map (remotePath remote)).Nodup := by
  constructor
  · refine List.Nodup.map_on ?_ (List.nodup_cons.mp h.nodup_dirs).2
    intro dir hdir dir' hdir' heq
    have hplain {dir : List Text} (hdir : dir ∈ below) :=
      plain_of_isDir ((h.mem_dirs dir).mp (List.mem_cons_of_mem _ hdir))
    exact names_of_parts (hplain hdir) (hplain hdir') (congrArg parts heq)
  · refine List.Nodup.map_on ?_ h.nodup_files
    intro file hfile file' hfile' heq
    exact names_of_parts (plain_of_isFile ((h.mem_files file).mp hfile))
      (plain_of_isFile ((h.mem_files file').mp hfile')) (congrArg parts heq)

end Ends

/-- The walk finds what there is: whatever the tree and in whatever order its directories are
listed, every directory is asked for once, behind the one it stands in, and every file is to be
sent once, to a place of its own on the device, unless something is a symlink or cannot be read,
and then nothing is sent at all. -/
theorem walkTree_exact {platform : Platform} (tree : LocalTree platform) (root remote : Text)
    {fuel : Nat} (hfuel : tree.dirs.length < fuel) :
    ((∀ dir, IsDir tree.readDir dir → ¬ Blocked tree.readDir dir) ∧
      ∃ below files : List (List Text),
        walkTree platform root remote tree.readDir fuel (.initial remote) = some (.ok
          ⟨[], remote :: below.map (remotePath remote),
            files.map fun file => (file, remotePath remote file)⟩) ∧
        ([] :: below).Nodup ∧ (∀ dir, dir ∈ [] :: below ↔ IsDir tree.readDir dir) ∧
        (∀ front dir back, below = front ++ dir :: back → dir.dropLast ∈ [] :: front) ∧
        files.Nodup ∧ (∀ file, file ∈ files ↔ IsFile tree.readDir file) ∧
        (below.map (remotePath remote)).Nodup ∧ (files.map (remotePath remote)).Nodup) ∨
      (∃ dir, IsDir tree.readDir dir ∧ Blocked tree.readDir dir) ∧ ∃ message,
        walkTree platform root remote tree.readDir fuel (.initial remote) =
          some (.error message) := by
  rcases walkTree_ends root remote hfuel with
    ⟨walk, below, files, hwalk, h⟩ | ⟨hmessage, hblocked⟩
  · rw [h.walk] at hwalk
    exact .inl ⟨h.clear, below, files, hwalk, h.nodup_dirs, h.mem_dirs, h.parent, h.nodup_files,
      h.mem_files, h.nodup_remote⟩
  · exact .inr ⟨hblocked, hmessage⟩

/-! A directory with a file and a directory, which has a file of its own. -/

def smallDir : ReadDir
  | [] => .ok [.ok ⟨['a'], .dir⟩, .ok ⟨['f'], .file⟩]
  | [['a']] => .ok [.ok ⟨['g'], .file⟩]
  | _ => .error "no such directory"

theorem lists_smallDir {dir : List Text} {entry : DirEntry} (h : Lists smallDir dir entry) :
    dir = [] ∧ entry = ⟨['a'], .dir⟩ ∨ entry.fileType = .file ∧ entry.name ∈ [['f'], ['g']] := by
  obtain ⟨entries, hread, hentry⟩ := h
  unfold smallDir at hread
  split at hread
  · obtain rfl := Except.ok.inj hread
    rcases List.mem_cons.mp hentry with heq | hentry
    · exact .inl ⟨rfl, Except.ok.inj heq⟩
    · obtain rfl := Except.ok.inj (List.mem_singleton.mp hentry)
      exact .inr ⟨rfl, by simp⟩
  · obtain rfl := Except.ok.inj hread
    obtain rfl := Except.ok.inj (List.mem_singleton.mp hentry)
    exact .inr ⟨rfl, by simp⟩
  · cases hread

def smallTree : LocalTree .unix where
  readDir := smallDir
  plain dir entry h := by
    rw [IsPlain]
    rcases lists_smallDir h with ⟨-, rfl⟩ | ⟨-, hname⟩
    · decide
    · rcases List.mem_cons.mp hname with hname | hname
      · rw [hname]
        decide
      · rw [List.mem_singleton.mp hname]
        decide
  distinct dir entries hread := by
    unfold smallDir at hread
    split at hread
    · obtain rfl := Except.ok.inj hread
      simp only [List.pairwise_cons, List.mem_singleton, forall_eq, List.Pairwise.nil, and_true,
        List.not_mem_nil, IsEmpty.forall_iff, implies_true]
      rintro _ _ h h'
      rw [← Except.ok.inj h, ← Except.ok.inj h']
      decide
    · obtain rfl := Except.ok.inj hread
      exact List.pairwise_singleton _ _
    · cases hread
  dirs := [[], [['a']]]
  finite dir h := by
    induction h with
    | refl => simp
    | tail _ hunder _ =>
        obtain ⟨name, hlists, rfl⟩ := hunder
        rcases lists_smallDir hlists with ⟨rfl, heq⟩ | ⟨hkind, -⟩
        · rw [(DirEntry.mk.inj heq).1]
          simp
        · cases hkind

theorem walkTree_exact_small :
    ∃ below files : List (List Text),
      walkTree .unix ['h'] ['/', 'd'] smallDir 3 (.initial ['/', 'd']) = some (.ok
        ⟨[], ['/', 'd'] :: below.map (remotePath ['/', 'd']),
          files.map fun file => (file, remotePath ['/', 'd'] file)⟩) ∧
      [['a'], ['g']] ∈ files := by
  rcases walkTree_exact smallTree ['h'] ['/', 'd'] (show smallTree.dirs.length < 3 by decide) with
    ⟨-, below, files, hwalk, -, -, -, -, hfiles, -⟩ | ⟨-, message, herror⟩
  · refine ⟨below, files, hwalk, (hfiles _).mpr ⟨[['a']], ['g'], ?_, ?_, rfl⟩⟩
    · exact .single ⟨['a'], ⟨_, rfl, List.mem_cons_self⟩, rfl⟩
    · exact ⟨_, rfl, List.mem_singleton_self _⟩
  · have hwalk : walkTree .unix ['h'] ['/', 'd'] smallDir 3 (.initial ['/', 'd']) = some (.ok
        ⟨[], [['/', 'd'], ['/', 'd', '/', 'a']], [([['f']], ['/', 'd', '/', 'f']),
          ([['a'], ['g']], ['/', 'd', '/', 'a', '/', 'g'])]⟩) := by rfl
    exact absurd (hwalk.symm.trans herror) (by simp)

end SideWire.PushTree
