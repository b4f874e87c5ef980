import DocAnnotator.Script.Identifier

/-! ## File paths

    A path in normal form: no empty and no single-dot components. The path without components is
    a single dot.
-/

namespace DocAnnotator

/-- A path by its components, absolute or relative. -/
structure FilePath where
  /-- The slashes at the start: none, one, or exactly two. -/
  root : Text
  parts : List Text
  deriving DecidableEq

namespace FilePath

/-- The path that a text denotes. Exactly two slashes at the start are kept, more count as one. -/
def ofText (path : Text) : FilePath :=
  let slashes := (path.takeWhile (· == '/')).length
  let root := if slashes = 0 then [] else if slashes = 2 then ['/', '/'] else ['/']
  ⟨root, Identifier.components path⟩

/-- The normal form of a path. -/
def text (path : FilePath) : Text :=
  if path.root.isEmpty && path.parts.isEmpty then ['.']
  else path.root ++ List.intercalate ['/'] path.parts

end FilePath

end DocAnnotator
