import DocAnnotator.Config.Resolve
import DocAnnotator.Files.Path

/-! ## A store of files

    The files that a run can reach. Directories are those that are listed as such, those that a
    listed path goes through, the working directory, those above it, and the root.
-/

namespace DocAnnotator

/-- Files and directories by their places. -/
abbrev Store := List (List Text × FileState)

namespace Store

/-- The component that leads to the directory above. -/
def up : Text := ['.', '.']

/-- The component that stands for the root at the head of an absolute place. -/
def rootPart : Text := ['/']

/-- Directories that are always there: the working directory, those above it, and the root. -/
def isFixedDirectory (parts : List Text) : Bool := parts.all (· == up) || parts == [rootPart]

/-- Is there a directory here? -/
def isDirectory (store : Store) (parts : List Text) : Bool :=
  isFixedDirectory parts || store.any fun (path, state) =>
    (path = parts && state = .directory) ||
      (parts.isPrefixOf path && path.length > parts.length && state != .absent)

/-- What is listed at a place. -/
def stateAt (store : Store) (parts : List Text) : FileState :=
  match store.lookup parts with
  | some (.regular content) => .regular content
  | _ => if store.isDirectory parts then .directory else .absent

/-- The place above a directory. The root is its own. -/
def parent (here : List Text) : List Text :=
  if here.all (· == up) then here ++ [up]
  else if here = [rootPart] then here
  else here.dropLast

/-- The place where a path starts: the working directory, or the root. -/
def origin (path : FilePath) : List Text := if path.root.isEmpty then [] else [rootPart]

/-- The place of a path by its components alone, whatever the store holds. -/
def place (path : FilePath) : List Text :=
  path.parts.foldl (fun here part => if part = up then parent here else here ++ [part])
    (origin path)

/-- Where a walk along a path ends. -/
inductive Location where
  | found (parts : List Text)
  | missing
  | throughFile

/-- Walks the components that are to come from the directory `here`. -/
def walk (store : Store) (here : List Text) : List Text → Location
  | [] => .found here
  | part :: rest =>
    if part = up then store.walk (parent here) rest
    else
      let next := here ++ [part]
      if rest.isEmpty then .found next
      else match store.stateAt next with
        | .directory => store.walk next rest
        | .regular _ => .throughFile
        | .absent => .missing

/-- Where a path leads, from the working directory or from the root. -/
def locate (store : Store) (path : FilePath) : Location :=
  store.walk (origin path) path.parts

/-- What is found at a path. -/
def look (store : Store) (path : FilePath) : FileState :=
  match store.locate path with
  | .found parts => store.stateAt parts
  | _ => .absent

/-- The bytes of a file. -/
def read (store : Store) (path : FilePath) : Except Error Bytes :=
  match store.locate path with
  | .throughFile => .error (.notDirectory path.text)
  | .missing => .error (.noSuchFile path.text)
  | .found parts =>
    match store.stateAt parts with
    | .regular content => .ok content
    | .directory => .error (.isDirectory path.text)
    | .absent => .error (.noSuchFile path.text)

/-- Gives a path a state, in place where it is listed. -/
def put (parts : List Text) (state : FileState) : Store → Store
  | [] => [(parts, state)]
  | (path, old) :: rest =>
    if path = parts then (path, state) :: rest else (path, old) :: put parts state rest

/-- The store with new bytes in a file. -/
def write (store : Store) (path : FilePath) (content : Bytes) : Store :=
  match store.locate path with
  | .found parts => store.put parts (.regular content)
  | _ => store

end Store

end DocAnnotator
