import DocAnnotator.Tree.Node

/-! ## Functions to document

    A target is a function that will get a comment: what the comment says about it, and the anchor
    node in front of which the comment goes.
-/

namespace DocAnnotator

/-- A parameter as it appears in the comment. -/
structure Parameter where
  name : Text
  /-- The declared or inferred type; none until one is known. -/
  type : Option Text
  rest : Bool
  /-- The parameter in the syntax tree. -/
  node : Option Node
  /-- Its default value in the syntax tree. -/
  default : Option Node

/-- What tells anchors apart: kind and span. -/
structure AnchorKey where
  kind : String
  start : Nat
  stop : Nat
  deriving DecidableEq

/-- A function to document. -/
structure Target where
  key : AnchorKey
  name : Text
  parameters : List Parameter
  /-- The declared return type, or the inferred one once it is known. -/
  returnType : Option Text
  /-- The source text of the anchor. -/
  snippet : Text
  /-- The byte offset of the anchor. -/
  anchorOffset : Nat
  isAsync : Bool
  /-- Was the return type declared? -/
  returnDeclared : Bool
  /-- The function in the syntax tree. -/
  function : Option Node

end DocAnnotator
