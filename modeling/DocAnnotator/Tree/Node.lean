import DocAnnotator.Text.Utf8

/-! ## Syntax trees

    A node of a parsed script: its kind, the bytes it spans, whether the grammar names it, the
    field of its parent that it fills, and its children in source order.
-/

namespace DocAnnotator

/-- A node of a syntax tree. Tokens that the grammar does not name are nodes too, and their kind
    is their text. -/
structure Node where
  kind : String
  start : Nat
  stop : Nat
  named : Bool
  field : Option String
  children : List Node

namespace Node

/-- The first child that fills a field. -/
def child? (node : Node) (field : String) : Option Node :=
  node.children.find? (·.field == some field)

/-- Is the node a comment? -/
def isComment (node : Node) : Bool := node.kind == "comment"

/-- Named, and no comment: a child that carries meaning. -/
def isContent (node : Node) : Bool := node.named && !node.isComment

/-- The children that carry meaning. -/
def contents (node : Node) : List Node := node.children.filter isContent

/-- The source text of a node. -/
def text (source : Bytes) (node : Node) : Text := Utf8.textOf source node.start node.stop

/-- Declarations of functions. -/
def isFunctionDeclaration (node : Node) : Bool :=
  node.kind == "function_declaration" || node.kind == "generator_function_declaration"

/-- Expressions whose value is a function. -/
def isFunctionValue (node : Node) : Bool :=
  node.kind == "arrow_function" || node.kind == "function_expression" ||
    node.kind == "function" || node.kind == "generator_function"

/-- Nodes with return statements, or members, of their own. -/
def isFunctionLike (node : Node) : Bool :=
  node.isFunctionDeclaration || node.isFunctionValue || node.kind == "method_definition" ||
    node.kind == "class_declaration" || node.kind == "class"

end Node

end DocAnnotator
