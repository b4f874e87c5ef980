import DocAnnotator.Grammar.Binding

/-! ## Elements

    Elements in angle brackets, with attributes, text and embedded expressions. Between the tags
    only braces and angle brackets mean anything.
-/

namespace DocAnnotator.Grammar

/-- The name of a tag or an attribute, with dots, colons and hyphens. -/
def elementName : Rule Forest :=
  named "identifier" fun s =>
    (word? s).map fun _ => s.takeWhile fun c => isNamePart c || c == '-' || c == '.' || c == ':'

/-- An expression in braces; it may be missing, and it may be spread. -/
def embedded (g : Rules) : Rule Forest := do
  let left ← op "\x7b"
  let dots ← Rule.optional (op "...")
  let e ← Rule.optional (g.expression {})
  let right ← op "\x7d"
  pure (wrap "jsx_expression" (left ++ dots ++ e ++ right))

/-- A quoted text without escapes. -/
def attributeText : Rule Forest :=
  named "string" fun s =>
    match s with
    | q :: rest =>
      if q = '"' || q = '\x27' then
        let inside := rest.takeWhile (· != q)
        if inside.length < rest.length then some (q :: inside ++ [q]) else none
      else none
    | [] => none

/-- An attribute. -/
def elementAttribute (g : Rules) : Rule Forest :=
  Rule.orElse (embedded g) do
    let name ← elementName
    let value ← Rule.optional do
      let eq ← op "="
      let v ← Rule.orElse attributeText (Rule.orElse (embedded g) g.element)
      pure (eq ++ v)
    pure (wrap "jsx_attribute" (name ++ value))

/-- Text between tags. -/
def elementText : Rule Forest := fun c =>
  let text := c.rest.takeWhile fun ch => ch != '\x7b' && ch != '<' && ch != '\x7d' && ch != '>'
  if text.isEmpty then none
  else
    let after := c.past text
    some ([leaf "jsx_text" c.offset after.offset], after)

/-- A closing tag. -/
def closingTag : Rule Forest := do
  let left ← raw "<"
  let slash ← raw "/"
  let name ← Rule.optional elementName
  let right ← raw ">"
  pure (wrap "jsx_closing_element" (left ++ slash ++ name ++ right))

/-- What stands between two tags. -/
def elementChild (g : Rules) : Rule Forest :=
  Rule.orElse elementText (Rule.orElse (embedded g) do
    let isClosing ← Rule.looksLike closingTag
    if isClosing then Rule.fail else g.element)

/-- An element: an empty tag, or an opening tag, children and a closing tag. -/
def element (g : Rules) : Rule Forest := do
  let left ← raw "<"
  let name ← Rule.optional elementName
  let arguments ← Rule.optional (typed g (typeArguments g))
  let attributes ← Rule.many (elementAttribute g)
  Rule.orElse
    (do
      let slash ← raw "/"
      let right ← raw ">"
      pure (wrap "jsx_self_closing_element" (left ++ name ++ arguments ++ attributes ++ slash ++ right)))
    (do
      let right ← raw ">"
      let tag := wrap "jsx_opening_element" (left ++ name ++ arguments ++ attributes ++ right)
      let children ← Rule.many (elementChild g)
      let close ← closingTag
      pure (wrap "jsx_element" (tag ++ children ++ close)))

end DocAnnotator.Grammar
