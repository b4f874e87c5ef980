import DocAnnotator.Target.Basic
import DocAnnotator.Text.Blank

/-! ## Signatures

    The parameters, the return annotation and the `async` mark of a function node.
-/

namespace DocAnnotator.Node

/-- Does a function carry the `async` keyword? -/
def isAsync (function : Node) : Bool := function.children.any (·.kind == "async")

/-- The type in an annotation: without its colon and without blanks around it. -/
def annotationText (source : Bytes) (node : Node) : Option Text :=
  let text := Text.trim (node.text source)
  let type := match text with
    | ':' :: type => Text.trim type
    | type => type
  if type.isEmpty then none else some type

/-- The annotated return type of a function. -/
def declaredReturn (source : Bytes) (function : Node) : Option Text :=
  (function.child? "return_type").bind (annotationText source)

/-- A parameter split into its binding pattern, its declared type and its default value. -/
structure ParameterParts where
  pattern : Option Node
  type : Option Text
  default : Option Node

/-- The parts of one child of a parameter list. Typed parameters hold all three in fields, a plain
    pattern with a default value is an assignment, and anything else is a pattern itself. -/
def parameterParts (source : Bytes) (child : Node) : ParameterParts :=
  if child.kind == "required_parameter" || child.kind == "optional_parameter" then
    ⟨child.child? "pattern", (child.child? "type").bind (annotationText source),
      child.child? "value"⟩
  else if child.kind == "assignment_pattern" then
    ⟨child.child? "left", none, child.child? "right"⟩
  else ⟨some child, none, none⟩

/-- The parameter at a position, counted from one. A pattern that is not a plain identifier has no
    name of its own and is called by its position. -/
def parameterAt (source : Bytes) (position : Nat) (child : Node) : Option Parameter :=
  let parts := parameterParts source child
  parts.pattern.map fun pattern =>
    let rest := pattern.kind == "rest_pattern"
    let bound := if rest then pattern.contents.headD pattern else pattern
    let name := if bound.kind == "identifier" then bound.text source
      else "param".toList ++ Text.ofNat position
    ⟨name, parts.type, rest, some child, parts.default⟩

/-- The parameters of a list of children, numbered on from `position`; a child without a pattern
    takes no number. -/
def parametersFrom (source : Bytes) (position : Nat) : List Node → List Parameter
  | [] => []
  | child :: rest =>
    match parameterAt source position child with
    | some parameter => parameter :: parametersFrom source (position + 1) rest
    | none => parametersFrom source position rest

/-- The parameters of a function. An arrow function may have a single bare one. -/
def parameters (source : Bytes) (function : Node) : List Parameter :=
  match function.child? "parameter" with
  | some single => [⟨single.text source, none, false, some single, none⟩]
  | none =>
    match function.child? "parameters" with
    | some list => parametersFrom source 1 list.contents
    | none => []

end DocAnnotator.Node
