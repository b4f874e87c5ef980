import DocAnnotator.Describe.Service
import DocAnnotator.Files.Store

/-! ## Workspaces

    A run reads and writes the files of a store through a disk, which is a parameter: what it lets a
    run read and write, and how far a write gets, is its own affair.

    - `Disk`: what becomes of reads and writes.
    - `Workspace.read`, `Workspace.write`: a file's bytes, and new bytes for it.
-/

namespace DocAnnotator

/-- What becomes of a write. -/
inductive WriteEnd where
  | complete
  /-- The file cannot be opened, and stays as it is. -/
  | refused (message : Text)
  /-- The write breaks off. The old bytes are gone, and some of the new ones are there. -/
  | broken (count : Nat) (message : Text)

/-- A disk, by what it does with reads and writes. -/
structure Disk where
  /-- The error with which a path cannot be read. -/
  denies : FilePath → Option Text
  writes : FilePath → Bytes → WriteEnd

/-- The disk that reads and writes everything. -/
def Disk.faultless : Disk := ⟨fun _ => none, fun _ _ => .complete⟩

/-- The working directory and the outside world. -/
structure Workspace where
  store : Store
  session : Session
  disk : Disk

namespace Workspace

/-- The bytes of a file. -/
def read (w : Workspace) (path : FilePath) : Except Error Bytes :=
  match w.disk.denies path with
  | some message => .error (.diskFault message)
  | none => w.store.read path

/-- What is found at a path. A file that cannot be read is as good as a directory. -/
def look (w : Workspace) (path : FilePath) : FileState :=
  match w.store.look path with
  | .regular content => if (w.disk.denies path).isSome then .directory else .regular content
  | state => state

/-- Writes new bytes to a file: what is reported, and what is there then. -/
def write (w : Workspace) (path : FilePath) (content : Bytes) : Except Error Bool × Workspace :=
  match w.disk.writes path content with
  | .complete => (.ok true, { w with store := w.store.write path content })
  | .refused message => (.error (.diskFault message), w)
  | .broken count message =>
    (.error (.diskFault message), { w with store := w.store.write path (content.take count) })

end Workspace

end DocAnnotator
