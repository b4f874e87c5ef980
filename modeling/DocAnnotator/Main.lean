import DocAnnotator.Cli.Run
import DocAnnotator.Grammar.Script

/-! ## The program

    The files that the command line names are read into a workspace, the run takes place there, and
    what it has changed is written back. The program has no network of its own: every request for a
    description fails, and the fallback takes its place.
-/

namespace DocAnnotator.Program

/-- How the program is used. -/
def usage : String :=
  "Usage: jsdoc-builder [-c PATH | --config PATH] [--no-ai] [-v | --version] [--help] FILES..."

/-- The environment variables that a run looks at. -/
def keyVariables : List Text := Provider.openai.keyVariables ++ Provider.gemini.keyVariables

/-- The environment of the process. -/
def environment : IO Config.Environment :=
  keyVariables.filterMapM fun name => do
    let value ← IO.getEnv (String.ofList name)
    return value.map fun v => (name, v.toList)

/-- The host of the program: requests cannot be sent, and lines are printed without the program's
    own style tags. -/
def host : IO Cli.Host := do
  let console (text : Text) : Option (List Text) :=
    some [(((String.ofList text).replace "[green]" "").replace "[/green]" "").toList]
  return ⟨fun _ => .refused, console, ← environment⟩

/-- What is found at a path. -/
def fileState (path : FilePath) : IO FileState := do
  try
    let content ← IO.FS.readBinFile (String.ofList path.text)
    return .regular content.toList
  catch
    | .noFileOrDirectory .. => return .absent
    | _ => return .directory

/-- The paths that a run may read: the configuration file and the files to annotate. -/
def pathsOf (arguments : List Text) : List FilePath :=
  match Cli.parse? arguments with
  | some (.annotate a) => a.configPath :: a.files.map FilePath.ofText
  | _ => []

/-- A path and the directories that it goes through, from its start on. -/
def waypoints (path : FilePath) : List FilePath :=
  (List.range (path.parts.length + 1)).map fun n => ⟨path.root, path.parts.take n⟩

/-- A store with what is found on the way along some paths. -/
def load (paths : List FilePath) : IO Store :=
  (paths.flatMap waypoints).foldlM
    (fun store path => return store.put (Store.place path) (← fileState path)) []

/-- Writes the files that differ between two stores. -/
def save (paths : List FilePath) (before after : Store) : IO Unit :=
  paths.forM fun path =>
    match after.look path with
    | .regular content =>
      if before.look path = .regular content then pure ()
      else IO.FS.writeBinFile (String.ofList path.text) ⟨content.toArray⟩
    | _ => pure ()

/-- Prints how a run has ended and gives its exit code. -/
def tell : Cli.Outcome → IO UInt32
  | .usage => do
    IO.eprintln usage
    return 2
  | .help => do
    IO.println usage
    return 0
  | .report r => do
    r.output.forM fun line => IO.println (String.ofList line)
    r.errors.forM fun line => IO.eprintln (String.ofList line)
    return r.exitCode.toUInt32

end DocAnnotator.Program

open DocAnnotator in
/-- Runs the program. -/
def main (args : List String) : IO UInt32 := do
  let arguments := args.map String.toList
  let paths := Program.pathsOf arguments
  let store ← Program.load paths
  let w : Workspace := ⟨store, ⟨[], [], []⟩, .faultless⟩
  let (outcome, w) := Cli.run Grammar.parse (← Program.host) arguments w
  Program.save paths store w.store
  w.session.warnings.forM fun warning => IO.eprintln (String.ofList warning.message)
  Program.tell outcome
