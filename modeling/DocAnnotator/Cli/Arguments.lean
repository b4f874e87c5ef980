import DocAnnotator.Text.Basic

/-! ## Command line arguments

    Arguments name files to annotate and may name a configuration file, turn descriptions off, or
    ask for the version or for help. `parse?` says what they ask for, and fails where they cannot be
    understood.
-/

namespace DocAnnotator.Cli

/-- A run that the arguments ask for. -/
structure Arguments where
  files : List Text
  config : Option Text
  noAi : Bool

/-- Options that end a run before it starts. -/
inductive Notice where
  | help
  | version
  deriving DecidableEq

/-- What the arguments ask for. -/
inductive Command where
  | tell (notice : Notice)
  | annotate (arguments : Arguments)

/-- What the arguments read so far have said. -/
structure Reading where
  arguments : Arguments := ⟨[], none, false⟩
  /-- The first notice that was asked for. -/
  notice : Option Notice := none

namespace Reading

/-- Asks for a notice; one that was asked for before comes first. -/
def tell (r : Reading) (notice : Notice) : Reading :=
  { r with notice := some (r.notice.getD notice) }

/-- Turns descriptions off. -/
def noAi (r : Reading) : Reading := { r with arguments.noAi := true }

/-- Names the configuration file; the last one counts. -/
def config (r : Reading) (path : Text) : Reading := { r with arguments.config := some path }

/-- Names files to annotate. -/
def files (r : Reading) (paths : List Text) : Reading :=
  { r with arguments.files := r.arguments.files ++ paths }

end Reading

/-- How far an option goes: it stands alone, or takes the next argument as its value. -/
inductive Extent where
  | complete (reading : Reading)
  | wantsConfig (reading : Reading)

/-- Reads a long option, with the value after its equals sign if there is one. An option that takes
    no value refuses one. -/
def longOption? (r : Reading) (name : Text) (value : Option Text) : Option Extent :=
  if name = "--config".toList then
    match value with
    | some path => some (.complete (r.config path))
    | none => some (.wantsConfig r)
  else if value.isSome then none
  else if name = "--no-ai".toList then some (.complete r.noAi)
  else if name = "--version".toList then some (.complete (r.tell .version))
  else if name = "--help".toList then some (.complete (r.tell .help))
  else none

/-- Reads the letters of a cluster of short options. The configuration's letter takes what is left
    of the cluster as its value, or else the next argument. -/
def shortOptions? (r : Reading) : Text → Option Extent
  | [] => some (.complete r)
  | 'v' :: rest => shortOptions? (r.tell .version) rest
  | 'c' :: [] => some (.wantsConfig r)
  | 'c' :: path => some (.complete (r.config path))
  | _ => none

/-- Reads an argument that starts with a hyphen and goes on. -/
def option? (r : Reading) (argument : Text) : Option Extent :=
  match argument with
  | '-' :: '-' :: _ =>
    let name := argument.takeWhile (· != '=')
    longOption? r name ((argument.drop name.length).tail?)
  | _ => shortOptions? r argument.tail

/-- Is the argument an option? A single hyphen is a file. -/
def isOption (argument : Text) : Bool := argument.head? == some '-' && argument.length > 1

/-- Reads arguments. After a double hyphen all are files. -/
def read? (r : Reading) : List Text → Option Reading
  | [] => some r
  | argument :: rest =>
    if argument = "--".toList then some (r.files rest)
    else if isOption argument then
      match option? r argument with
      | none => none
      | some (.complete r) => read? r rest
      | some (.wantsConfig r) =>
        match rest with
        | [] => none
        | path :: rest => read? (r.config path) rest
    else read? (r.files [argument]) rest

/-- What the arguments ask for. A notice needs no files, a run does. -/
def parse? (arguments : List Text) : Option Command := do
  let r ← read? {} arguments
  match r.notice with
  | some notice => some (.tell notice)
  | none => if r.arguments.files.isEmpty then none else some (.annotate r.arguments)

end DocAnnotator.Cli
