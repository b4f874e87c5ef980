import DocAnnotator.Target.Basic
import DocAnnotator.Template
import DocAnnotator.Text.Raw
import DocAnnotator.TypeUnion

/-! ## Lines of a comment

    The lines that say something about a target, by three line templates: one description line,
    one line per parameter, and one line for the result.
-/

namespace DocAnnotator

/-- The line templates. -/
structure LineTemplates where
  description : RawText
  parameter : RawText
  returns : RawText
  deriving DecidableEq

namespace Comment

/-- A text, or a fallback where it is missing or empty. -/
def orElse (text : Option Text) (fallback : Text) : Text :=
  match text with
  | some (c :: s) => c :: s
  | _ => fallback

/-- The placeholders that every line knows. -/
def baseVariables (target : Target) (description : Text) : Template.Variables :=
  let returnType := orElse target.returnType TypeUnion.void
  [("functionName".toList, target.name), ("description".toList, description),
    ("returnType".toList, returnType),
    ("paramsCount".toList, Text.ofNat target.parameters.length),
    ("name".toList, target.name), ("type".toList, returnType)]

/-- On a parameter's line, `name` and `type` are those of the parameter. -/
def parameterVariables (base : Template.Variables) (parameter : Parameter) : Template.Variables :=
  ("name".toList, parameter.name) :: ("type".toList, orElse parameter.type TypeUnion.any) :: base

/-- The name of the description in a template. -/
def descriptionName : Text := "description".toList

/-- One line. It holds halves of surrogate pairs where its template does, or where the template has a
    place for a description that does. -/
def line (values : Template.Variables) (template description : RawText) : RawText :=
  ⟨Template.render values template.text,
    template.torn || description.torn && Template.mentions descriptionName template.text⟩

/-- The lines for a target. A result line for `void` is left out unless asked for. -/
def lines (templates : LineTemplates) (includeReturnsWhenVoid : Bool) (target : Target)
    (description : RawText) : List RawText :=
  let base := baseVariables target description.text
  let returnType := orElse target.returnType TypeUnion.void
  line base templates.description description ::
    target.parameters.map (fun p =>
        line (parameterVariables base p) templates.parameter description)
      ++ (if returnType != TypeUnion.void || includeReturnsWhenVoid
        then [line base templates.returns description] else [])

end Comment

end DocAnnotator
