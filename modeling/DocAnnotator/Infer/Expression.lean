import DocAnnotator.Tree.Node
import DocAnnotator.Text.Blank
import DocAnnotator.TypeUnion

/-! ## Types of expressions

    `Node.typeIn` reads a type off the shape of an expression: literals, operators, casts and
    parameters that it mentions. What it cannot tell is `any`.
-/

namespace DocAnnotator

/-- The types of the parameters so far, by name; a later entry hides an earlier one. -/
abbrev TypeEnv := List (Text × Text)

namespace TypeEnv

/-- Gives a name a type. -/
def bind (env : TypeEnv) (name type : Text) : TypeEnv := (name, type) :: env

/-- The type of a name; `any` where it has none. -/
def typeOf (env : TypeEnv) (name : Text) : Text := (env.lookup name).getD TypeUnion.any

end TypeEnv

namespace Node

/-- The type of a literal, by its kind. -/
def literalType? (kind : String) : Option Text :=
  match kind with
  | "number" => some "number".toList
  | "string" | "template_string" => some "string".toList
  | "true" | "false" => some "boolean".toList
  | "null" => some "null".toList
  | "array" => some "any[]".toList
  | "object" => some "object".toList
  | "arrow_function" | "function_expression" | "function" | "generator_function" =>
    some "Function".toList
  | _ => none

/-- How an operator with two operands makes a type. -/
inductive Operation where
  | plus
  | arithmetic
  | comparison
  | logical
  | other

/-- The operation that an operator stands for. -/
def operation (operator : Option String) : Operation :=
  match operator with
  | some "+" => .plus
  | some "-" | some "*" | some "/" | some "%" | some "**" | some "<<" | some ">>" | some ">>>"
  | some "&" | some "|" | some "^" => .arithmetic
  | some "<" | some "<=" | some ">" | some ">=" | some "==" | some "===" | some "!="
  | some "!==" | some "instanceof" | some "in" => .comparison
  | some "&&" | some "||" | some "??" => .logical
  | _ => .other

/-- The operator of an expression: the kind of the token in that field. -/
def operator? (node : Node) : Option String := (node.child? "operator").map (·.kind)

/-- One type for two alternatives. -/
def commonType (first second : Text) : Text :=
  if first = second then first else TypeUnion.join [first, second]

/-- The type of a sum. -/
def sumType (left right : Text) : Text :=
  let string := "string".toList
  let number := "number".toList
  if left = string || right = string then string
  else if left = number && right = number then number
  else TypeUnion.any

/-- The type of an operation on two operands of known types. -/
def binaryType (operator : Option String) (left right : Text) : Text :=
  match operation operator with
  | .plus => sumType left right
  | .arithmetic => "number".toList
  | .comparison => "boolean".toList
  | .logical => commonType left right
  | .other => TypeUnion.any

/-- The type of an operation on one operand. -/
def unaryType (operator : Option String) : Text :=
  match operator with
  | some "!" => "boolean".toList
  | some "+" | some "-" => "number".toList
  | _ => TypeUnion.any

/-- The type between the angle brackets of a cast. -/
def castType (source : Bytes) (node : Node) : Text :=
  match node.contents with
  | brackets :: _ =>
    if brackets.kind == "type_arguments" then
      let type := Text.trim (((Text.trim (brackets.text source)).drop 1).dropLast)
      if type.isEmpty then TypeUnion.any else type
    else TypeUnion.any
  | [] => TypeUnion.any

/-- Does a child fill the field? -/
def hasField (field : String) (node : Node) : Bool := node.field == some field

mutual
/-- The type of an expression, given the types of the parameters. -/
def typeIn (source : Bytes) (env : TypeEnv) : Node → Text
  | ⟨kind, start, stop, named, field, children⟩ =>
    let node : Node := ⟨kind, start, stop, named, field, children⟩
    match literalType? kind with
    | some type => type
    | none =>
      match kind with
      | "parenthesized_expression" =>
        (firstTypeIn source env isContent children).getD TypeUnion.any
      | "identifier" => env.typeOf (node.text source)
      | "as_expression" =>
        match node.contents with
        | _ :: second :: more => ((second :: more).getLastD second).text source
        | _ => (firstTypeIn source env isContent children).getD TypeUnion.any
      | "type_assertion" => castType source node
      | "unary_expression" => unaryType node.operator?
      | "binary_expression" =>
        match firstTypeIn source env (hasField "left") children,
            firstTypeIn source env (hasField "right") children with
        | some left, some right => binaryType node.operator? left right
        | _, _ => TypeUnion.any
      | "assignment_expression" | "augmented_assignment_expression" =>
        (firstTypeIn source env (hasField "right") children).getD TypeUnion.any
      | "await_expression" => "Promise<any>".toList
      | "ternary_expression" =>
        match firstTypeIn source env (hasField "consequence") children,
            firstTypeIn source env (hasField "alternative") children with
        | some first, some second => commonType first second
        | _, _ => TypeUnion.any
      | _ => TypeUnion.any

/-- The type of the first of some nodes that is chosen. -/
def firstTypeIn (source : Bytes) (env : TypeEnv) (chosen : Node → Bool) :
    List Node → Option Text
  | [] => none
  | node :: rest =>
    if chosen node then some (typeIn source env node) else firstTypeIn source env chosen rest
end

end Node

end DocAnnotator
