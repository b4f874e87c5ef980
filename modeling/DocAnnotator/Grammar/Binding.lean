import DocAnnotator.Grammar.Types

/-! ## Bindings and parameters

    What a declaration or a parameter binds: a name, or a pattern of names. Parameters of the typed
    languages are nodes of their own around a pattern, a type and a default value.
-/

namespace DocAnnotator.Grammar

/-- An expression in square brackets as the name of a member. -/
def computedName (g : Rules) : Rule Forest := do
  let left ← op "["
  let e ← g.expression {}
  let right ← op "]"
  pure (wrap "computed_property_name" (left ++ e ++ right))

/-- The name of a member: a word, a literal, a private name or an expression in brackets. -/
def propertyName (g : Rules) : Rule Forest :=
  Rule.orElse memberName (Rule.orElse string (Rule.orElse number
    (Rule.orElse privateName (computedName g))))

/-- A binding, and the value it takes where there is none. -/
def bindingWithDefault (g : Rules) : Rule Forest := do
  let left ← g.binding
  Rule.orElse
    (do
      let eq ← op "="
      let right ← g.assignment {}
      pure (wrap "assignment_pattern" (label "left" left ++ eq ++ label "right" right)))
    (pure left)

/-- Three dots and a binding for all that is left. -/
def restBinding (g : Rules) : Rule Forest := do
  let dots ← op "..."
  let b ← g.binding
  pure (wrap "rest_pattern" (dots ++ b))

/-- A member of an object pattern. -/
def objectPatternItem (g : Rules) : Rule Forest :=
  Rule.orElse (restBinding g) (Rule.orElse
    (do
      let key ← propertyName g
      let colon ← op ":"
      let value ← bindingWithDefault g
      pure (wrap "pair_pattern" (label "key" key ++ colon ++ label "value" value)))
    (do
      let name ← named "shorthand_property_identifier_pattern" word?
      Rule.orElse
        (do
          let eq ← op "="
          let value ← g.assignment {}
          pure (wrap "object_assignment_pattern" (label "left" name ++ eq ++ label "right" value)))
        (pure name)))

/-- Names by the members of an object. -/
def objectPattern (g : Rules) : Rule Forest := do
  let left ← op "\x7b"
  let items ← Rule.many (Rule.orElse (op ",") (objectPatternItem g))
  let right ← op "\x7d"
  pure (wrap "object_pattern" (left ++ items ++ right))

/-- Names by the items of an array. -/
def arrayPattern (g : Rules) : Rule Forest := do
  let left ← op "["
  let items ← Rule.many
    (Rule.orElse (op ",") (Rule.orElse (restBinding g) (bindingWithDefault g)))
  let right ← op "]"
  pure (wrap "array_pattern" (left ++ items ++ right))

/-- A name or a pattern. -/
def binding (g : Rules) : Rule Forest :=
  Rule.orElse identifier (Rule.orElse (objectPattern g) (arrayPattern g))

/-- A decorator: an at sign and what it names. -/
def decorator (g : Rules) : Rule Forest := do
  let at_ ← op "@"
  let e ← g.unary {}
  pure (wrap "decorator" (at_ ++ e))

/-- Words in front of a parameter that make it a member of the object as well. -/
def parameterModifier : Rule Forest := do
  let modifier ← keywords ["public", "private", "protected", "readonly", "override"]
  Rule.check fun c =>
    match c.next.rest with
    | d :: _ => isNameStart d || d == '\x7b' || d == '['
    | [] => false
  pure modifier

/-- A parameter of the typed languages. -/
def typedParameter (g : Rules) : Rule Forest := do
  let decorators ← Rule.many (decorator g)
  let modifiers ← Rule.many parameterModifier
  let pattern ← Rule.orElse (restBinding g) (Rule.orElse
    (named "this" fun s => (word? s).filter (· == "this".toList)) g.binding)
  let mark ← Rule.optional (op "?")
  let type ← Rule.optional (declaredType g)
  let value ← Rule.optional do
    let eq ← op "="
    let v ← g.assignment {}
    pure (eq ++ label "value" v)
  let kind := if mark.isEmpty then "required_parameter" else "optional_parameter"
  pure (wrap kind
    (decorators ++ modifiers ++ label "pattern" pattern ++ mark ++ label "type" type ++ value))

/-- A parameter. -/
def parameter (g : Rules) : Rule Forest :=
  if g.language.types then typedParameter g
  else Rule.orElse (restBinding g) (bindingWithDefault g)

/-- Parameters in parentheses. -/
def formalParameters (g : Rules) : Rule Forest := do
  let left ← op "("
  let items ← Rule.many (Rule.orElse (op ",") (parameter g))
  let right ← op ")"
  pure (wrap "formal_parameters" (left ++ items ++ right))

/-- Statements in braces. -/
def block (g : Rules) : Rule Forest := do
  let left ← op "\x7b"
  let statements ← Rule.many g.statement
  let right ← op "\x7d"
  pure (wrap "statement_block" (left ++ statements ++ right))

/-- Type parameters, parameters and return type of a function. -/
def signature (g : Rules) : Rule Forest := do
  let types ← Rule.optional (typed g (typeParameters g))
  let parameters ← formalParameters g
  let result ← Rule.optional (typed g (declaredResult g))
  pure (label "type_parameters" types ++ label "parameters" parameters ++
    label "return_type" result)

end DocAnnotator.Grammar
