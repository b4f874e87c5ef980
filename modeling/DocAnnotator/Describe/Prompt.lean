import DocAnnotator.Comment.Lines
import DocAnnotator.Text.Blank

/-! ## Prompts and descriptions

    - `prompt`: what a service is asked about a target.
    - `clean`: a description on one line.
    - `fallback`: the description of a target that no service described.
-/

namespace DocAnnotator.Describe

/-- The description without a service. -/
def fallback (name : Text) : Text := name ++ " function".toList

/-- A run of blanks, given in reverse: with a line end in it, one space stands for it. -/
def flushRun (run : Text) : Text :=
  if run.any fun c => c = '\n' || c = '\r' then [' '] else run.reverse

/-- Text with every run of blanks that holds a line end turned into one space. `run` are the blanks
    just read, in reverse. -/
def collapse (run : Text) : Text → Text
  | [] => flushRun run
  | c :: s => if Text.isBlank c then collapse (c :: run) s else flushRun run ++ c :: collapse [] s

/-- A description trimmed and on one line. -/
def clean (text : Text) : Text := collapse [] (Text.trim text)

/-- A raw description trimmed and on one line. Nothing but blanks is dropped. -/
def cleanRaw (said : RawText) : RawText := { said with text := clean said.text }

/-- The parameters of a target in one line. -/
def parameterList (parameters : List Parameter) : Text :=
  match parameters with
  | [] => "none".toList
  | _ => List.intercalate ", ".toList
      (parameters.map fun p => p.name ++ ": ".toList ++ Comment.orElse p.type TypeUnion.any)

/-- The prompt for a target. -/
def prompt (template : RawText) (target : Target) : RawText :=
  { template with
    text := Template.render
      [("functionName".toList, target.name),
        ("paramsCount".toList, Text.ofNat target.parameters.length),
        ("parameters".toList, parameterList target.parameters),
        ("returnType".toList, Comment.orElse target.returnType TypeUnion.void),
        ("code".toList, target.snippet)] template.text }

end DocAnnotator.Describe
