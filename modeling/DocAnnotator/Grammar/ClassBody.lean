import DocAnnotator.Grammar.Binding

/-! ## Functions and classes

    The parts of functions and classes that declarations and expressions share.
-/

namespace DocAnnotator.Grammar

/-- A method from its name on: signature and body, or in the typed languages a signature alone. -/
def methodTail (g : Rules) (lead : Forest) : Rule Forest := do
  let sig ← signature g
  Rule.orElse
    (do
      let body ← block g
      pure (wrap "method_definition" (lead ++ sig ++ label "body" body)))
    (typed g do
      let stop ← Rule.optional (op ";")
      pure (wrap "method_signature" (lead ++ sig) ++ stop))

/-- Is the word before the cursor a modifier: does the name of a member come next? -/
def beforeMember (c : Cursor) : Bool :=
  match c.next.rest with
  | [] => false
  | d :: _ => !"(=;:?!\x7d,<".toList.contains d

/-- A word in front of a member. -/
def memberModifier : Rule Forest := do
  let modifier ← keywords ["static", "public", "private", "protected", "readonly", "abstract",
    "override", "declare", "async", "accessor", "get", "set"]
  Rule.check beforeMember
  pure modifier

/-- A block that runs when the class is made. -/
def staticBlock (g : Rules) : Rule Forest := do
  let s ← keyword "static"
  let body ← block g
  pure (wrap "class_static_block" (s ++ label "body" body))

/-- The type of members that are looked up by a key. -/
def indexSignature (g : Rules) : Rule Forest := do
  let key ← group "index" '[' ']'
  let type ← declaredType g
  let stop ← Rule.orElse (op ",") (semicolon g.language)
  pure (wrap "index_signature" (key ++ type) ++ stop)

/-- A field: a name, a type and a value. -/
def fieldTail (g : Rules) (lead : Forest) : Rule Forest := do
  let mark ← Rule.optional (typed g (ops ["?", "!"]))
  let type ← Rule.optional (typed g (declaredType g))
  let value ← Rule.optional do
    let eq ← op "="
    let v ← g.assignment { inStatement := true }
    pure (eq ++ label "value" v)
  let stop ← semicolon g.language
  let kind := if g.language.types then "public_field_definition" else "field_definition"
  pure (wrap kind (lead ++ mark ++ label "type" type ++ value) ++ stop)

/-- A member that has a name. -/
def namedMember (g : Rules) : Rule Forest := do
  let modifiers ← Rule.many memberModifier
  let star ← Rule.optional (op "*")
  let name ← propertyName g
  let lead := modifiers ++ star ++ label "name" name
  Rule.orElse
    (do
      let mark ← Rule.optional (typed g (op "?"))
      methodTail g (lead ++ mark))
    (fieldTail g lead)

/-- A member of a class. -/
def classMember (g : Rules) : Rule Forest :=
  Rule.orElse (op ";") (Rule.orElse (staticBlock g) do
    let decorators ← Rule.many (decorator g)
    let member ← Rule.orElse (namedMember g) (typed g do
      let modifiers ← Rule.many memberModifier
      let signature ← indexSignature g
      pure (modifiers ++ signature))
    pure (decorators ++ member))

/-- The members of a class in braces. -/
def classBody (g : Rules) : Rule Forest := do
  let left ← op "\x7b"
  let members ← Rule.many (classMember g)
  let right ← op "\x7d"
  pure (wrap "class_body" (left ++ members ++ right))

/-- What a class extends and implements. -/
def heritage (g : Rules) : Rule Forest := do
  let base ← Rule.optional do
    let e ← keyword "extends"
    let b ← g.unary {}
    let arguments ← Rule.optional (typed g (typeArguments g))
    pure (e ++ b ++ arguments)
  let interfaces ← Rule.optional (typed g do
    let i ← keyword "implements"
    let types ← separated (op ",") g.type
    pure (i ++ types))
  pure (base ++ interfaces)

/-- A class from the keyword on. `kind` is given by whether it has a name. -/
def classTail (g : Rules) (kind : Bool → String) : Rule Forest := do
  let c ← keyword "class"
  let name ← Rule.optional do
    let word ← anyWord
    if ["extends", "implements"].map String.toList |>.contains word then Rule.fail
    identifier
  let types ← Rule.optional (typed g (typeParameters g))
  let above ← heritage g
  let body ← classBody g
  pure (wrap (kind (!name.isEmpty))
    (c ++ label "name" name ++ types ++ above ++ label "body" body))

/-- The keyword of a function, with its marks: the nodes, and whether it is a generator. -/
def functionHead : Rule (Forest × Bool) := do
  let isAsync ← Rule.optional do
    let a ← keyword "async"
    Rule.check (!·.newlineBefore)
    pure a
  let f ← keyword "function"
  let star ← Rule.optional (op "*")
  pure (isAsync ++ f ++ star, !star.isEmpty)

/-- A function that is a value. -/
def functionExpression (g : Rules) : Rule Forest := do
  let (head, isGenerator) ← functionHead
  let name ← Rule.optional identifier
  let sig ← signature g
  let body ← block g
  let kind := if isGenerator then "generator_function" else "function_expression"
  pure (wrap kind (head ++ label "name" name ++ sig ++ label "body" body))

/-- A function that is declared. In the typed languages it may be a signature without a body. -/
def functionDeclaration (g : Rules) : Rule Forest := do
  let (head, isGenerator) ← functionHead
  let name ← identifier
  let sig ← signature g
  let lead := head ++ label "name" name ++ sig
  let kind := if isGenerator then "generator_function_declaration" else "function_declaration"
  Rule.orElse
    (do
      let body ← block g
      pure (wrap kind (lead ++ label "body" body)))
    (typed g do
      let stop ← semicolon g.language
      pure (wrap "function_signature" (lead ++ stop)))

end DocAnnotator.Grammar
