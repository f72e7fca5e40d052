import SideWire.Base.TimedCache
import SideWire.ConsoleOutput
import SideWire.PtyCompletion

/-!
`completion_entries`: the directories that completions list, with the cache that all of them
share.
-/

namespace SideWire.CompletionCache

open SideWire.TransitionSystem
open SideWire.TaskPool
open SideWire.ByteString
open SideWire.TimedCache
open SideWire.PtyCompletion (Path CachedDirEntry)
open SideWire.ConsoleOutput (fromUtf8Lossy)

def directoryCacheTtl : Nat := 750
def directoryCacheLimit : Nat := 64

inductive FileType
  | directory
  | symlink
  | other
  deriving DecidableEq

structure DirEntry where
  fileName : Bytes
  fileType : FileType
  deriving DecidableEq

/-- The file system over time, in milliseconds: what directories hold, and whether the metadata
of an entry, those of a symlink itself and not of what it leads to, are of a directory. -/
structure FileSystem where
  readDir : Nat → Path → DirEntry → Prop
  metadata : Nat → Path → Bytes → Option Bool

/-- The second part of `is_dir` is asked for symlinks only. -/
def isDir (metadata : Option Bool) (entry : DirEntry) : Bool :=
  decide (entry.fileType = .directory) ||
    (decide (entry.fileType = .symlink) && metadata.getD false)

/-- What is cached of an entry: its name as far as it is text, and whether it is a directory. -/
def Describes (metadata : Option Bool) (entry : DirEntry) (cached : CachedDirEntry) : Prop :=
  cached.name.flatMap String.utf8EncodeChar = (fromUtf8Lossy entry.fileName).bytes ∧
    cached.isDir = isDir metadata entry

def directories (fs : FileSystem) : Source Path DirEntry CachedDirEntry where
  present := fs.readDir
  describes time path entry := Describes (fs.metadata time path entry.fileName) entry

theorem directoryCacheLimit_pos : 0 < directoryCacheLimit := by decide

/-- The callers of `completion_entries` and their cache. -/
def system (fs : FileSystem) :
    System (State Path DirEntry CachedDirEntry directoryCacheLimit) Action :=
  TimedCache.system directoryCacheLimit_pos directoryCacheTtl (directories fs)

end SideWire.CompletionCache
