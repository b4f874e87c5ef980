import DocAnnotator.Infer.Expression

/-! ## Returned values

    `Node.returnsOf` lists the return statements that belong to a function body itself, in document
    order; functions and classes inside the body keep theirs.
-/

namespace DocAnnotator.Node

/-- The value of a return statement; none for a bare one. -/
def returnedValue (statement : Node) : Option Node := statement.contents.head?

mutual
/-- The returned values at or below a node. -/
def returnsAt : Node → List (Option Node)
  | ⟨kind, start, stop, named, field, children⟩ =>
    let node : Node := ⟨kind, start, stop, named, field, children⟩
    if node.isFunctionLike then []
    else if kind == "return_statement" then [node.returnedValue]
    else returnsOf children

/-- The returned values at or below some nodes. -/
def returnsOf : List Node → List (Option Node)
  | [] => []
  | node :: rest => returnsAt node ++ returnsOf rest
end

/-- The type that a function returns by the shape of its body. -/
def returnTypeIn (source : Bytes) (env : TypeEnv) (function : Node) : Text :=
  match function.child? "body" with
  | none => TypeUnion.void
  | some body =>
    if body.kind != "statement_block" then body.typeIn source env
    else
      let returned := (returnsOf body.children).map fun value =>
        (value.map (typeIn source env)).getD TypeUnion.void
      match returned.filter (· != TypeUnion.void) with
      | [] => TypeUnion.void
      | types => TypeUnion.join types

end DocAnnotator.Node
