import DocAnnotator.Grammar.ClassBody

/-! ## Expressions

    From the tightest to the loosest: operands, members and calls, operators in front, operators
    between two operands by binding strength, the conditional operator, assignments and commas.
    Casts bind looser than every operator between two operands.
-/

namespace DocAnnotator.Grammar

/-! ### Literals and groups -/

/-- The text of a template up to the next embedded expression or its end. -/
def templateChars : Text → Text
  | [] => []
  | '\\' :: c :: s => '\\' :: c :: templateChars s
  | '$' :: '\x7b' :: _ => []
  | c :: s => if c = '\x60' then [] else c :: templateChars s

/-- A piece of a template: text, or an expression in braces after a dollar sign. -/
def templatePiece (g : Rules) : Rule Forest := fun c =>
  let text := templateChars c.rest
  if !text.isEmpty then
    let after := c.past text
    some ([leaf "string_fragment" c.offset after.offset], after)
  else match c.rest with
    | '$' :: '\x7b' :: _ => substitution c
    | _ => none
where
  substitution : Rule Forest := do
    let left ← raw "$\x7b"
    let e ← g.expression {}
    let right ← op "\x7d"
    pure (wrap "template_substitution" (left ++ e ++ right))

/-- The closing mark of a template, right here. -/
def templateEnd : Rule Forest := fun c =>
  match c.rest with
  | '\x60' :: _ => some ([mark ['\x60'] c.offset (c.offset + 1)], c.past ['\x60'])
  | _ => none

/-- A template literal. -/
def template (g : Rules) : Rule Forest := do
  let left ← raw "\x60"
  let pieces ← Rule.many (templatePiece g)
  let right ← templateEnd
  pure (wrap "template_string" (left ++ pieces ++ right))

/-- An expression in parentheses. -/
def parenthesized (g : Rules) : Rule Forest := do
  let left ← op "("
  let e ← g.expression {}
  let type ← Rule.optional (typed g (declaredType g))
  let right ← op ")"
  pure (wrap "parenthesized_expression" (left ++ e ++ type ++ right))

/-- Three dots and an expression. -/
def spread (g : Rules) : Rule Forest := do
  let dots ← op "..."
  let e ← g.assignment {}
  pure (wrap "spread_element" (dots ++ e))

/-- Items of a call or an array. -/
def items (g : Rules) : Rule Forest :=
  Rule.many (Rule.orElse (op ",") (Rule.orElse (spread g) (g.assignment {})))

/-- An array. -/
def array (g : Rules) : Rule Forest := do
  let left ← op "["
  let inside ← items g
  let right ← op "]"
  pure (wrap "array" (left ++ inside ++ right))

/-- Arguments of a call. -/
def arguments (g : Rules) : Rule Forest := do
  let left ← op "("
  let inside ← items g
  let right ← op ")"
  pure (wrap "arguments" (left ++ inside ++ right))

/-- A method of an object. -/
def objectMethod (g : Rules) : Rule Forest := do
  let modifiers ← Rule.many do
    let modifier ← keywords ["async", "get", "set"]
    Rule.check beforeMember
    pure modifier
  let star ← Rule.optional (op "*")
  let name ← propertyName g
  methodTail g (modifiers ++ star ++ label "name" name)

/-- A member of an object. -/
def objectMember (g : Rules) : Rule Forest :=
  Rule.orElse (spread g) (Rule.orElse
    (do
      let key ← propertyName g
      let colon ← op ":"
      let value ← g.assignment {}
      pure (wrap "pair" (label "key" key ++ colon ++ label "value" value)))
    (Rule.orElse
      (do
        let method ← objectMethod g
        if endsIn "method_definition" method then pure method else Rule.fail)
      (do
        let name ← named "shorthand_property_identifier" word?
        Rule.orElse
          (do
            let eq ← op "="
            let value ← g.assignment {}
            pure (wrap "object_assignment_pattern" (label "left" name ++ eq ++ label "right" value)))
          (pure name))))

/-- An object. -/
def object (g : Rules) : Rule Forest := do
  let left ← op "\x7b"
  let members ← Rule.many (Rule.orElse (op ",") (objectMember g))
  let right ← op "\x7d"
  pure (wrap "object" (left ++ members ++ right))

/-! ### Operands -/

/-- A keyword that is an operand of its own kind. -/
def operandWord (word : String) : Rule Forest :=
  named word fun s => (word? s).filter (· == word.toList)

/-- A class that is a value, with its decorators. -/
def classExpression (g : Rules) : Rule Forest := do
  let decorators ← Rule.many (decorator g)
  let c ← classTail g fun _ => "class"
  pure (if decorators.isEmpty then c else wrap "class" (decorators ++ c))

/-- The keyword `import` with what belongs to it. -/
def importOperand : Rule Forest := do
  let i ← operandWord "import"
  Rule.orElse
    (do
      let dot ← op "."
      let name ← memberName
      pure (wrap "meta_property" (i ++ dot ++ name)))
    (pure i)

/-- An operand without members, calls and operators. -/
def primary (g : Rules) : Rule Forest := do
  let c ← Rule.peek
  match c.rest with
  | '(' :: _ => parenthesized g
  | '[' :: _ => array g
  | '\x7b' :: _ => object g
  | '"' :: _ => string
  | '\x27' :: _ => string
  | '\x60' :: _ => template g
  | '/' :: _ => regex
  | '#' :: _ => privateName
  | '@' :: _ => classExpression g
  | '<' :: _ => if g.language.elements then g.element else Rule.fail
  | s =>
    if (numberText? s).isSome then number
    else do
      let word ← anyWord
      let is (w : String) : Bool := word == w.toList
      if is "function" then functionExpression g
      else if is "async" then Rule.orElse (functionExpression g) identifier
      else if is "class" then classExpression g
      else if is "import" then importOperand
      else if is "this" then operandWord "this"
      else if is "super" then operandWord "super"
      else if is "null" then operandWord "null"
      else if is "true" then operandWord "true"
      else if is "false" then operandWord "false"
      else identifier

/-! ### Members and calls -/

/-- What may follow type arguments that belong to no call. -/
def endsInstantiation (c : Cursor) : Bool :=
  match c.next.rest with
  | [] => true
  | d :: _ => ")],;:\x7d=.".toList.contains d || c.newlineBefore

/-- The name after a dot. -/
def memberAccess (target : Forest) : Rule Forest := do
  let dot ← ops [".", "?."]
  let name ← Rule.orElse memberName privateName
  pure (wrap "member_expression" (label "object" target ++ dot ++ label "property" name))

/-- An index in square brackets. -/
def subscript (g : Rules) (target : Forest) : Rule Forest := do
  let chain ← Rule.optional (op "?.")
  let left ← op "["
  let e ← g.expression {}
  let right ← op "]"
  pure (wrap "subscript_expression" (label "object" target ++ chain ++ left ++ label "index" e ++ right))

/-- A call. -/
def call (g : Rules) (target : Forest) : Rule Forest := do
  let chain ← Rule.optional (op "?.")
  let types ← Rule.optional (typed g (typeArguments g))
  let list ← Rule.orElse (arguments g) (template g)
  pure (wrap "call_expression" (label "function" target ++ chain ++ types ++ label "arguments" list))

/-- Type arguments without a call. -/
def instantiation (g : Rules) (target : Forest) : Rule Forest :=
  typed g do
    let types ← typeArguments g
    Rule.check endsInstantiation
    pure (wrap "instantiation_expression" (target ++ types))

/-- The mark that a value is there. -/
def nonNull (g : Rules) (target : Forest) : Rule Forest :=
  typed g do
    Rule.check (!·.newlineBefore)
    let bang ← op "!"
    pure (wrap "non_null_expression" (target ++ bang))

/-- Members without calls, for the target of `new`. -/
def memberStep (g : Rules) (target : Forest) : Rule Forest :=
  Rule.orElse (memberAccess target) (Rule.orElse (subscript g target) (nonNull g target))

/-- One more member, call or mark. -/
def chainStep (g : Rules) (target : Forest) : Rule Forest :=
  Rule.orElse (memberAccess target) (Rule.orElse (subscript g target) (Rule.orElse (call g target)
    (Rule.orElse (instantiation g target) (nonNull g target))))

/-- The target of a `new`: a chain of members, or another `new`. -/
def newTail (g : Rules) (nested : Rule Forest) : Rule Forest := do
  let n ← keyword "new"
  Rule.orElse
    (do
      let dot ← op "."
      let name ← memberName
      pure (wrap "meta_property" (n ++ dot ++ name)))
    (do
      let first ← Rule.orElse nested (primary g)
      let target ← Rule.grow (memberStep g) first
      let types ← Rule.optional (typed g (typeArguments g))
      let list ← Rule.optional (arguments g)
      pure (wrap "new_expression"
        (n ++ label "constructor" target ++ types ++ label "arguments" list)))

/-- Objects that are made, nested to a depth. -/
def newFuel (g : Rules) (fuel : Nat) (c : Cursor) : Option (Forest × Cursor) :=
  match fuel with
  | 0 => none
  | fuel + 1 => newTail g (newFuel g fuel) c

/-- An operand with its members and calls. -/
def chain (g : Rules) : Rule Forest := do
  let c ← Rule.peek
  let first ← Rule.orElse (newFuel g c.left) (primary g)
  Rule.grow (chainStep g) first

/-! ### Operators -/

/-- An operand with the operators that count it up or down behind it. -/
def update (g : Rules) : Rule Forest := do
  let e ← chain g
  Rule.orElse
    (do
      Rule.check (!·.newlineBefore)
      let o ← ops ["++", "--"]
      pure (wrap "update_expression" (label "argument" e ++ label "operator" o)))
    (pure e)

/-- A cast: a keyword and a type. A constant assertion has no type. -/
def castStep (g : Rules) (ctx : Context) (target : Forest) : Rule Forest :=
  typed g do
    Rule.check fun c => !(ctx.inStatement && c.newlineBefore)
    let word ← anyWord
    if word = "as".toList then
      let a ← keyword "as"
      let t ← Rule.orElse (keyword "const") g.type
      pure (wrap "as_expression" (target ++ a ++ t))
    else
      let s ← keyword "satisfies"
      let t ← g.type
      pure (wrap "satisfies_expression" (target ++ s ++ t))

/-- A cast in angle brackets in front of an operand. -/
def assertion (g : Rules) (ctx : Context) : Rule Forest :=
  if g.language.types && !g.language.elements then do
    let types ← typeArguments g
    let e ← g.unary ctx
    pure (wrap "type_assertion" (types ++ e))
  else Rule.fail

/-- An operand with the operators in front of it. -/
def unary (g : Rules) (ctx : Context) : Rule Forest := do
  let c ← Rule.peek
  let next := (punctuation? c.rest).getD []
  if ["!", "~", "+", "-"].map String.toList |>.contains next then
    let o ← ops ["!", "~", "+", "-"]
    let e ← g.unary ctx
    pure (wrap "unary_expression" (label "operator" o ++ label "argument" e))
  else if ["++", "--"].map String.toList |>.contains next then
    let o ← ops ["++", "--"]
    let e ← g.unary ctx
    pure (wrap "update_expression" (label "operator" o ++ label "argument" e))
  else
    match word? c.rest with
    | some word =>
      if ["typeof", "void", "delete"].map String.toList |>.contains word then
        let o ← keywords ["typeof", "void", "delete"]
        let e ← g.unary ctx
        pure (wrap "unary_expression" (label "operator" o ++ label "argument" e))
      else if word = "await".toList then
        Rule.orElse
          (do
            let a ← keyword "await"
            let operand ← g.unary ctx
            let e ← Rule.grow (castStep g ctx) operand
            pure (wrap "await_expression" (a ++ e)))
          (update g)
      else update g
    | none => Rule.orElse (assertion g ctx) (update g)

/-- The binding strength of an operator between two operands. -/
def strength? (ctx : Context) (operator : Text) : Option Nat :=
  match String.ofList operator with
  | "??" => some 1
  | "||" => some 2
  | "&&" => some 3
  | "|" => some 4
  | "^" => some 5
  | "&" => some 6
  | "==" | "!=" | "===" | "!==" => some 7
  | "<" | ">" | "<=" | ">=" | "instanceof" => some 8
  | "in" => if ctx.noIn then none else some 8
  | "<<" | ">>" | ">>>" => some 9
  | "+" | "-" => some 10
  | "*" | "/" | "%" => some 11
  | "**" => some 12
  | _ => none

/-- The operator between two operands that comes next. -/
def nextOperator : Rule Text := fun c =>
  let s := c.next.rest
  let text := match word? s with
    | some w => if w = "in".toList || w = "instanceof".toList then w else []
    | none => (punctuation? s).getD []
  some (text, c)

/-- An operator between two operands. -/
def operator (text : Text) : Rule Forest :=
  tokenOf (fun s => if text.isPrefixOf s then some text else none) mark

/-- Operands with operators that bind at least as strongly as `least` between them. Casts are taken
    where `casts` says so. -/
def binaryFuel (g : Rules) (ctx : Context) : Nat → Nat → Bool → Rule Forest
  | 0, _, _ => Rule.fail
  | fuel + 1, least, casts => do
    let first ← unary g ctx
    Rule.grow (fun left =>
      Rule.orElse (if casts then castStep g ctx left else Rule.fail) do
        let text ← nextOperator
        match strength? ctx text with
        | none => Rule.fail
        | some strength =>
          if strength < least then Rule.fail
          else
            let o ← operator text
            let isPower := strength == 12
            let right ← binaryFuel g ctx fuel (if isPower then 12 else strength + 1) isPower
            pure (wrap "binary_expression"
              (label "left" left ++ label "operator" o ++ label "right" right))) first

/-- Operands with operators between them. -/
def binary (g : Rules) (ctx : Context) : Rule Forest := fun c =>
  binaryFuel g ctx (c.left + 1) 0 true c

/-- A choice between two values. -/
def conditional (g : Rules) (ctx : Context) : Rule Forest := do
  let condition ← binary g ctx
  let choice (inner : Context) : Rule Forest := do
    let q ← op "?"
    let yes ← g.assignment inner
    let colon ← op ":"
    let no ← g.assignment ctx
    pure (wrap "ternary_expression" (label "condition" condition ++ q ++
      label "consequence" yes ++ colon ++ label "alternative" no))
  Rule.orElse (choice {}) (Rule.orElse (choice { noReturnType := true }) (pure condition))

/-! ### Arrow functions -/

/-- The arrow and the body of a function. -/
def arrowTail (g : Rules) (ctx : Context) (lead : Forest) : Rule Forest := do
  Rule.check (!·.newlineBefore)
  let arrow ← op "=>"
  let isBlock ← nextIs '\x7b'
  let body ← if isBlock then block g else g.assignment ctx
  pure (wrap "arrow_function" (lead ++ arrow ++ label "body" body))

/-- The parameters and the return type in front of an arrow. -/
def arrowSignature (g : Rules) (ctx : Context) : Rule Forest := do
  let types ← Rule.optional (typed g (typeParameters g))
  let parameters ← formalParameters g
  let result ← Rule.optional
    (if ctx.noReturnType then Rule.fail else typed g (arrowResult g))
  pure (label "type_parameters" types ++ label "parameters" parameters ++
    label "return_type" result)

/-- An arrow function: a name or parameters in parentheses, after an optional `async`. -/
def arrow (g : Rules) (ctx : Context) : Rule Forest :=
  let simple (lead : Forest) : Rule Forest := do
    let name ← identifier
    arrowTail g ctx (lead ++ label "parameter" name)
  let full (lead : Forest) : Rule Forest := do
    let sig ← arrowSignature g ctx
    arrowTail g ctx (lead ++ sig)
  let marked (tail : Forest → Rule Forest) : Rule Forest := do
    let a ← keyword "async"
    Rule.check (!·.newlineBefore)
    tail a
  Rule.orElse (simple []) (Rule.orElse (full [])
    (Rule.orElse (marked simple) (marked full)))

/-- Is it an arrow function that is tried first here? -/
def opensArrow (language : Language) (c : Cursor) : Bool :=
  match c.next.rest with
  | d :: _ => d == '(' || (d == '<' && !language.elements) || d == '\\' || isNameStart d
  | [] => false

/-! ### Assignments and commas -/

/-- The signs that assign and compute at once. -/
def computingSigns : List String :=
  ["+=", "-=", "*=", "/=", "%=", "**=", "<<=", ">>=", ">>>=", "&=", "|=", "^=", "&&=", "||=",
    "??="]

/-- What a generator hands out. -/
def yieldExpression (g : Rules) (ctx : Context) : Rule Forest := do
  let y ← keyword "yield"
  let value ← Rule.optional do
    Rule.check (!·.endsStatement g.language false)
    let star ← Rule.optional (op "*")
    let e ← g.assignment ctx
    pure (star ++ e)
  pure (wrap "yield_expression" (y ++ value))

/-- An operand with its operators, and what is assigned to it. -/
def assigned (g : Rules) (ctx : Context) : Rule Forest := do
  let left ← conditional g ctx
  Rule.orElse
    (do
      let eq ← op "="
      let right ← g.assignment ctx
      pure (wrap "assignment_expression" (label "left" left ++ eq ++ label "right" right)))
    (Rule.orElse
      (do
        let sign ← ops computingSigns
        let right ← g.assignment ctx
        pure (wrap "augmented_assignment_expression"
          (label "left" left ++ label "operator" sign ++ label "right" right)))
      (pure left))

/-- An expression without commas. Where an angle bracket can open an element, that comes before the
    type parameters of an arrow function. -/
def assignment (g : Rules) (ctx : Context) : Rule Forest := do
  let c ← Rule.peek
  let word := (word? c.rest).getD []
  if word = "yield".toList then yieldExpression g ctx
  else
    Rule.orElse (if opensArrow g.language c then arrow g ctx else Rule.fail)
      (Rule.orElse (assigned g ctx)
        (if c.rest.head? == some '<' then typed g (arrow g ctx) else Rule.fail))

/-- An expression, with commas. -/
def expression (g : Rules) (ctx : Context) : Rule Forest := do
  let first ← g.assignment ctx
  let more ← Rule.many do
    let comma ← op ","
    let e ← g.assignment ctx
    pure (comma ++ e)
  pure (if more.isEmpty then first else wrap "sequence_expression" (first ++ more))

end DocAnnotator.Grammar
