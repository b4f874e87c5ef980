import DocAnnotator.Cli.Arguments
import DocAnnotator.Files.Annotate

/-! ## Runs of the command line

    `run` carries out what the arguments ask for over a workspace, and reports what is printed. The
    console that it prints on is a parameter, like the client and the environment.
-/

namespace DocAnnotator.Cli

/-- The version of this program. -/
def version : Text := "0.1.0".toList

/-- The configuration file that is read where none is named. -/
def defaultConfigName : Text := "jsdoc-builder.config.json".toList

/-- A console, by the lines that a text makes on it. A text may hold style tags in square brackets;
    some texts cannot be printed, and make none. -/
abbrev Console := Text → Option (List Text)

/-- What the program runs on. -/
structure Host where
  client : Client
  console : Console
  environment : Config.Environment

/-- What a run prints and the code it ends with. -/
structure Report where
  exitCode : Nat
  output : List Text
  errors : List Text

/-- How a run ends. -/
inductive Outcome where
  /-- The arguments could not be understood. -/
  | usage
  /-- Help was asked for. -/
  | help
  /-- There is something to report. -/
  | report (report : Report)

/-- The line that answers the question for the version. -/
def versionLine : Text := "jsdoc-builder version ".toList ++ version

/-- The text about a file that did not fail. -/
def outputText (path : FilePath) (changed : Bool) : Text :=
  (if changed then "[green]✓[/green] Updated ".toList else "No changes needed for ".toList) ++
    path.text

/-- The line about a file that failed. -/
def errorLine (path : FilePath) (error : Error) : Text :=
  "Error: ".toList ++ path.text ++ ": ".toList ++ error.message

/-- Goes on with a report: one entry for each file, and a code other than zero if one of them
    failed. A path that cannot be printed ends the report. -/
def Report.extend (console : Console) (report : Report) : List (FilePath × FileResult) → Report
  | [] => report
  | (path, .error e) :: rest =>
    Report.extend console
      { report with exitCode := 1, errors := report.errors ++ [errorLine path e] } rest
  | (path, .ok changed) :: rest =>
    match console (outputText path changed) with
    | some lines => Report.extend console { report with output := report.output ++ lines } rest
    | none => { report with exitCode := 1 }

/-- The report on files. -/
def Report.ofResults (console : Console) (results : List (FilePath × FileResult)) : Report :=
  Report.extend console ⟨0, [], []⟩ results

/-- The path of the configuration file. -/
def Arguments.configPath (arguments : Arguments) : FilePath :=
  FilePath.ofText (arguments.config.getD defaultConfigName)

/-- The options of a run, with the configuration file as the workspace has it. -/
def Arguments.options (arguments : Arguments) (host : Host) (w : Workspace) : Options :=
  { sources := ⟨w.look arguments.configPath, [], arguments.noAi, host.environment⟩
    oracle := .none
    client := host.client }

/-- Annotates the files that the arguments name. -/
def annotate (grammar : Grammar) (host : Host) (arguments : Arguments) (w : Workspace) :
    Report × Workspace :=
  let paths := arguments.files.map FilePath.ofText
  let (results, w) := annotateFiles grammar (arguments.options host w) w paths
  (Report.ofResults host.console (paths.zip results), w)

/-- Runs the command line. -/
def run (grammar : Grammar) (host : Host) (arguments : List Text) (w : Workspace) :
    Outcome × Workspace :=
  match parse? arguments with
  | none => (.usage, w)
  | some (.tell .help) => (.help, w)
  | some (.tell .version) => (.report ⟨0, [versionLine], []⟩, w)
  | some (.annotate arguments) =>
    let (report, w) := annotate grammar host arguments w
    (.report report, w)

end DocAnnotator.Cli
