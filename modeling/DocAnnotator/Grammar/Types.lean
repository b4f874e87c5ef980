import DocAnnotator.Grammar.Token

/-! ## Types

    Annotations matter for the text they span, so that a type is one node without the nodes inside
    it. Bracketed parts are read as groups, save type arguments, whose brackets are operators
    elsewhere.
-/

namespace DocAnnotator.Grammar

/-- One node for all that was read, without the nodes inside. -/
def flat (kind : String) (forest : Forest) : Forest :=
  (wrap kind forest).map fun node => if node.kind == kind then { node with children := [] } else node

/-- A separated list with at least one item. -/
def separated (separator : Rule Forest) (item : Rule Forest) : Rule Forest := do
  let first ← item
  let more ← Rule.many do
    let s ← separator
    let i ← item
    pure (s ++ i)
  pure (first ++ more)

/-- Type arguments in angle brackets. -/
def typeArguments (g : Rules) : Rule Forest := do
  let left ← raw "<"
  let items ← separated (op ",") g.type
  let comma ← Rule.optional (op ",")
  let right ← raw ">"
  pure (wrap "type_arguments" (left ++ items ++ comma ++ right))

/-- One type parameter, with its bound and its default. -/
def typeParameter (g : Rules) : Rule Forest := do
  let modifiers ← Rule.many do
    let word ← anyWord
    let modifier ← keywords ["const", "in", "out"]
    if word = "out".toList then
      Rule.check fun c => (word? c.next.rest).isSome
    pure modifier
  let name ← identifier
  let bound ← Rule.optional do
    let e ← keyword "extends"
    let t ← g.type
    pure (e ++ t)
  let default ← Rule.optional do
    let e ← op "="
    let t ← g.type
    pure (e ++ t)
  pure (flat "type_parameter" (modifiers ++ name ++ bound ++ default))

/-- Type parameters in angle brackets. -/
def typeParameters (g : Rules) : Rule Forest := do
  let left ← raw "<"
  let items ← separated (op ",") (typeParameter g)
  let comma ← Rule.optional (op ",")
  let right ← raw ">"
  pure (wrap "type_parameters" (left ++ items ++ comma ++ right))

/-- A template whose inside is not looked at. -/
def templateGroup : Rule Forest := group "template_literal_type" '\x60' '\x60'

/-- The names after dots in a type. -/
def dotted : Rule Forest :=
  Rule.many do
    let dot ← op "."
    let name ← Rule.orElse memberName privateName
    pure (dot ++ name)

/-- A type without operators around it. -/
def primaryType (g : Rules) : Rule Forest := do
  let c ← Rule.peek
  match c.rest with
  | '(' :: _ => group "parenthesized_type" '(' ')'
  | '[' :: _ => group "tuple_type" '[' ']'
  | '\x7b' :: _ => group "object_type" '\x7b' '\x7d'
  | '\x60' :: _ => templateGroup
  | '"' :: _ => string
  | '\x27' :: _ => string
  | '-' :: _ => do
    let minus ← op "-"
    let n ← number
    pure (flat "literal_type" (minus ++ n))
  | s =>
    if (numberText? s).isSome then number
    else do
      let word ← anyWord
      if word = "import".toList then
        let i ← keyword "import"
        let source ← group "arguments" '(' ')'
        let names ← dotted
        let arguments ← Rule.optional (typeArguments g)
        pure (flat "generic_type" (i ++ source ++ names ++ arguments))
      else if word = "typeof".toList then
        let t ← keyword "typeof"
        let source ← Rule.orElse
          (do
            let i ← keyword "import"
            let source ← group "arguments" '(' ')'
            pure (i ++ source))
          memberName
        let names ← dotted
        let arguments ← Rule.optional (typeArguments g)
        pure (flat "type_query" (t ++ source ++ names ++ arguments))
      else
        let name ← memberName
        let names ← dotted
        let arguments ← Rule.optional do
          Rule.check (!·.newlineBefore)
          typeArguments g
        pure (flat "type_identifier" (name ++ names ++ arguments))

/-- A type with the brackets of arrays and look-ups after it. -/
def postfixType (g : Rules) : Rule Forest := do
  let first ← primaryType g
  Rule.grow (fun t => do
    Rule.check (!·.newlineBefore)
    let brackets ← group "brackets" '[' ']'
    pure (flat "array_type" (t ++ brackets))) first

/-- A keyword in front of a type is an operator where a type follows it on the same line. -/
def isTypeOperator (word : Text) (c : Cursor) : Bool :=
  let after := (c.next.past word)
  !after.newlineBefore &&
    match after.next.rest with
    | [] => false
    | d :: _ => isNameStart d || "([\x7b\x60\"\x27".toList.contains d

/-- A type with its operators in front. -/
def unaryType (g : Rules) : Rule Forest := do
  let operators ← Rule.many do
    let word ← anyWord
    if ["keyof", "unique", "readonly", "infer"].map String.toList |>.contains word then
      Rule.check (isTypeOperator word)
      keywords ["keyof", "unique", "readonly", "infer"]
    else Rule.fail
  let operand ← postfixType g
  let bound ← Rule.optional do
    if endsIn "infer" operators then
      let e ← keyword "extends"
      let t ← postfixType g
      pure (e ++ t)
    else Rule.fail
  pure (if operators.isEmpty then operand else flat "type_operator" (operators ++ operand ++ bound))

/-- Members of a union or an intersection; the operator may also stand in front. -/
def joinedType (operator : String) (kind : String) (member : Rule Forest) : Rule Forest := do
  let lead ← Rule.optional (op operator)
  let first ← member
  let more ← Rule.many do
    let bar ← op operator
    let next ← member
    pure (bar ++ next)
  pure (if lead.isEmpty && more.isEmpty then first else flat kind (lead ++ first ++ more))

/-- A return type: a type, or what a function says about an argument. -/
def returnedType (g : Rules) : Rule Forest :=
  Rule.orElse
    (do
      let a ← keyword "asserts"
      Rule.check fun c => !c.newlineBefore && (word? c.next.rest).isSome
      let name ← memberName
      let condition ← Rule.optional do
        let is ← keyword "is"
        let t ← g.type
        pure (is ++ t)
      pure (flat "asserts" (a ++ name ++ condition)))
    (Rule.orElse
      (do
        let name ← memberName
        Rule.check (!·.newlineBefore)
        let is ← keyword "is"
        let t ← g.type
        pure (flat "type_predicate" (name ++ is ++ t)))
      g.type)

/-- Can the inside of parentheses that starts here be a list of parameters? It starts with its end,
    a pattern, a decorator, dots, or a name with a sign or another name after it. -/
def opensParameters (c : Cursor) : Bool :=
  let inside := c.next
  match word? inside.rest with
  | some w =>
    match (inside.past w).next.rest with
    | c :: rest => ":,?=)".toList.contains c || (word? (c :: rest)).isSome
    | [] => false
  | none => ")[\x7b@.".toList.contains (inside.rest.head?.getD ' ')

/-- A function type: parameters as a group, then an arrow and a return type. -/
def functionType (g : Rules) : Rule Forest := do
  let parameters ← Rule.optional (typeParameters g)
  Rule.check fun c =>
    let here := c.next
    here.rest.head? == some '(' && opensParameters (here.past ['('])
  let list ← group "formal_parameters" '(' ')'
  let arrow ← op "=>"
  let result ← returnedType g
  pure (flat "function_type" (parameters ++ list ++ arrow ++ result))

/-- The type of a constructor. -/
def constructorType (g : Rules) : Rule Forest := do
  let modifier ← Rule.optional (keyword "abstract")
  let new ← keyword "new"
  let rest ← functionType g
  pure (flat "constructor_type" (modifier ++ new ++ rest))

/-- A member of a union or an intersection. -/
def memberType (g : Rules) : Rule Forest :=
  Rule.orElse (functionType g) (Rule.orElse (constructorType g) (unaryType g))

/-- A union of members, and a condition on it where one follows. -/
def conditionalTypeOf (g : Rules) (member : Rule Forest) : Rule Forest := do
  let first ← joinedType "|" "union_type" (joinedType "&" "intersection_type" member)
  Rule.orElse
    (do
      let e ← keyword "extends"
      let bound ← joinedType "|" "union_type" (joinedType "&" "intersection_type" member)
      let q ← op "?"
      let yes ← g.type
      let colon ← op ":"
      let no ← g.type
      pure (flat "conditional_type" (first ++ e ++ bound ++ q ++ yes ++ colon ++ no)))
    (pure first)

/-- A type. -/
def conditionalType (g : Rules) : Rule Forest := conditionalTypeOf g (memberType g)

/-- A colon and a type. -/
def declaredType (g : Rules) : Rule Forest := do
  let colon ← op ":"
  let t ← g.type
  pure (wrap "type_annotation" (colon ++ t))

/-- A colon and a return type. -/
def declaredResult (g : Rules) : Rule Forest := do
  let colon ← op ":"
  let t ← returnedType g
  pure (wrap "type_annotation" (colon ++ t))

/-- A colon and a return type in front of an arrow. A function type may have taken that arrow for
    its own; then function types count only in parentheses. -/
def arrowResult (g : Rules) : Rule Forest :=
  Rule.orElse
    (do
      let result ← declaredResult g
      Rule.check fun c => punctuation? c.next.rest == some ['=', '>']
      pure result)
    (do
      let colon ← op ":"
      let t ← conditionalTypeOf g (unaryType g)
      pure (wrap "type_annotation" (colon ++ t)))

/-- A rule of the typed languages only. -/
def typed (g : Rules) (rule : Rule Forest) : Rule Forest :=
  if g.language.types then rule else Rule.fail

end DocAnnotator.Grammar
