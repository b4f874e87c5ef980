import DocAnnotator.Annotate
import DocAnnotator.Plugin.Pattern

/-! ## The build hook

    A hook that a bundler calls for every module it loads. It picks modules by suffix and by path,
    and hands the bundler the annotated text of those that change.
-/

namespace DocAnnotator

/-- What a path is filtered by. -/
inductive Filter where
  /-- A text that occurs in the path. -/
  | text (part : Text)
  /-- A pattern that matches somewhere in the path. -/
  | pattern (pattern : Pattern)
  /-- A pattern of another notation, told by the paths that it is found in. -/
  | compiled (isFound : Text → Bool)

/-- Does a path pass a filter? -/
def Filter.accepts (path : Text) : Filter → Bool
  | .text part => Text.occursIn part path
  | .pattern p => p.search path
  | .compiled isFound => isFound path

/-- When the bundler runs the hook. -/
inductive Phase where
  | serve
  | build
  | both
  deriving DecidableEq

namespace Phase

/-- The phase of a name. -/
def ofName (name : Text) : Except Error Phase :=
  if name = "serve".toList then .ok .serve
  else if name = "build".toList then .ok .build
  else if name = "both".toList then .ok .both
  else .error (.unknownPhase name)

/-- The phase as the bundler wants it: none stands for both. -/
def restriction : Phase → Option Text
  | .serve => some "serve".toList
  | .build => some "build".toList
  | .both => none

end Phase

/-- The build hook. -/
structure Hook where
  included : List Filter
  excluded : List Filter
  extensions : List Text
  phase : Phase
  options : Options

namespace Hook

/-- The name that the hook goes by. -/
def name : Text := "jsdoc-builder".toList

/-- The hook runs before those of the bundler. -/
def enforce : Text := "pre".toList

/-- The suffixes that are annotated by default. -/
def defaultExtensions : List Text :=
  [".js".toList, ".jsx".toList, ".ts".toList, ".tsx".toList, ".vue".toList]

/-- Installed packages are left alone by default. -/
def defaultExclude : List Filter := [.text "node_modules".toList]

/-- Is the module annotated? Virtual modules, whose identifiers start with NUL, are not. -/
def shouldProcess (hook : Hook) (id : Text) : Bool :=
  match id with
  | [] => false
  | c :: _ =>
    if c.toNat = 0 then false
    else
      let path := Identifier.normalize id
      (hook.extensions.map Text.lower).contains (Text.lower (Identifier.suffix path)) &&
        !hook.excluded.any (Filter.accepts path) &&
        (hook.included.isEmpty || hook.included.any (Filter.accepts path))

/-- The new text of a module, if it changes. A query in the identifier does not count. -/
def transform (grammar : Grammar) (hook : Hook) (code id : Text) (session : Session) :
    Except Error (Option Text) × Session :=
  let id := Identifier.stripQuery id
  if hook.shouldProcess id then
    let (result, session) := annotate grammar hook.options id code session
    (result.map fun text => if text = code then none else some text, session)
  else (.ok none, session)

end Hook

end DocAnnotator
