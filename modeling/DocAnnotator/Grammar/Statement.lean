import DocAnnotator.Grammar.Expression

/-! ## Statements

    Statements and declarations. A statement takes its semicolon where one is written; otherwise it
    ends with its last token.
-/

namespace DocAnnotator.Grammar

/-- The context of an expression that a statement ends with. -/
def inStatement : Context := { inStatement := true }

/-! ### Declarations of variables -/

/-- One variable with its type and its value. -/
def declarator (g : Rules) (ctx : Context) : Rule Forest := do
  let name ← g.binding
  let mark ← Rule.optional (typed g (op "!"))
  let type ← Rule.optional (typed g (declaredType g))
  let value ← Rule.optional do
    let eq ← op "="
    let v ← g.assignment ctx
    pure (eq ++ label "value" v)
  pure (wrap "variable_declarator"
    (label "name" name ++ mark ++ label "type" type ++ value))

/-- The keyword of a declaration of variables. The word `let` is a name where no name follows. -/
def declarationWord (g : Rules) : Rule Forest :=
  Rule.orElse (keywords ["const", "var"]) do
    let l ← keyword "let"
    Rule.check fun c =>
      !c.endsStatement g.language false &&
        match c.next.rest with
        | d :: _ =>
          d == '[' || d == '\x7b' || d == '\\' ||
            (isNameStart d && !Cursor.startsWord "in".toList c.next.rest &&
              !Cursor.startsWord "instanceof".toList c.next.rest)
        | [] => false
    pure l

/-- A declaration of variables without its end. -/
def declarators (g : Rules) (ctx : Context) : Rule (Forest × String) := do
  let word ← declarationWord g
  let list ← separated (op ",") (declarator g ctx)
  let kind := if endsIn "var" word then "variable_declaration" else "lexical_declaration"
  pure (word ++ list, kind)

/-- A declaration of variables. -/
def variableDeclaration (g : Rules) : Rule Forest := do
  let (list, kind) ← declarators g inStatement
  let stop ← semicolon g.language
  pure (wrap kind (list ++ stop))

/-- Variables that are disposed of at the end of their block, in the languages without types. -/
def usingDeclaration (g : Rules) : Rule Forest :=
  if g.language.types then Rule.fail
  else do
    let a ← Rule.optional do
      let a ← keyword "await"
      Rule.check (!·.newlineBefore)
      pure a
    let u ← keyword "using"
    Rule.check fun c => !c.newlineBefore && (word? c.next.rest).isSome
    let list ← separated (op ",") (declarator g inStatement)
    let stop ← semicolon g.language
    pure (wrap "using_declaration" (a ++ u ++ list ++ stop))

/-! ### Declarations of types -/

/-- A word that is a keyword only where a name follows it on the same line. -/
def softWord (word : String) : Rule Forest := do
  let w ← keyword word
  Rule.check fun c =>
    !c.newlineBefore && ((word? c.next.rest).map (!reservedWords.contains ·)).getD false
  pure w

/-- An interface. -/
def interface (g : Rules) : Rule Forest := do
  let w ← softWord "interface"
  let name ← identifier
  let types ← Rule.optional (typeParameters g)
  let base ← Rule.optional do
    let e ← keyword "extends"
    let list ← separated (op ",") g.type
    pure (e ++ list)
  let body ← group "interface_body" '\x7b' '\x7d'
  pure (wrap "interface_declaration" (w ++ label "name" name ++ types ++ base ++ label "body" body))

/-- A name for a type. -/
def typeAlias (g : Rules) : Rule Forest := do
  let w ← softWord "type"
  let name ← identifier
  let types ← Rule.optional (typeParameters g)
  let eq ← op "="
  let t ← g.type
  let stop ← semicolon g.language
  pure (wrap "type_alias_declaration" (w ++ label "name" name ++ types ++ eq ++ t ++ stop))

/-- An enumeration. -/
def enumeration : Rule Forest := do
  let c ← Rule.optional (keyword "const")
  let e ← keyword "enum"
  let name ← identifier
  let body ← group "enum_body" '\x7b' '\x7d'
  pure (wrap "enum_declaration" (c ++ e ++ label "name" name ++ label "body" body))

/-- A class that is declared. -/
def classDeclaration (g : Rules) : Rule Forest := do
  let decorators ← Rule.many (decorator g)
  let modifier ← Rule.optional (typed g (keyword "abstract"))
  let kind := if modifier.isEmpty then "class_declaration" else "abstract_class_declaration"
  let c ← classTail g fun _ => kind
  pure (if decorators.isEmpty && modifier.isEmpty then c else wrap kind (decorators ++ modifier ++ c))

/-- A namespace or a module, by a name with dots or by a string. -/
def moduleDeclaration (g : Rules) : Rule Forest := do
  let w ← keywords ["namespace", "module"]
  Rule.check (!·.newlineBefore)
  let name ← Rule.orElse string (do
    let first ← identifier
    let more ← dotted
    pure (flat "nested_identifier" (first ++ more)))
  let body ← Rule.orElse (block g) (semicolon g.language)
  pure (wrap "internal_module" (w ++ label "name" name ++ label "body" body))

/-- A declaration that only says what exists elsewhere. -/
def ambient (g : Rules) (inner : Rule Forest) : Rule Forest := do
  let d ← keyword "declare"
  Rule.check fun c => !c.newlineBefore && (word? c.next.rest).isSome
  let body ← Rule.orElse inner do
    let w ← keyword "global"
    let b ← block g
    pure (w ++ b)
  pure (wrap "ambient_declaration" (d ++ body))

/-- A declaration. -/
def declaration (g : Rules) : Rule Forest :=
  let plain := Rule.orElse (functionDeclaration g) (Rule.orElse (typed g enumeration)
    (Rule.orElse (classDeclaration g) (Rule.orElse (variableDeclaration g) (usingDeclaration g))))
  let typeLevel := Rule.orElse (interface g) (Rule.orElse (typeAlias g) (moduleDeclaration g))
  Rule.orElse plain (typed g (Rule.orElse typeLevel (ambient g (Rule.orElse plain typeLevel))))

/-! ### Modules -/

/-- The source of a module, with the attributes of the import. -/
def moduleSource : Rule Forest := do
  let s ← string
  let attributes ← Rule.optional do
    let w ← keywords ["with", "assert"]
    let list ← group "import_attribute" '\x7b' '\x7d'
    pure (w ++ list)
  pure (s ++ attributes)

/-- A module source after the word `from`. -/
def fromClause : Rule Forest := do
  let f ← keyword "from"
  let source ← moduleSource
  pure (f ++ source)

/-- A part of an import clause: a name, a star or a group of names. -/
def importPart : Rule Forest := do
  let ends ← Rule.looksLike fromClause
  if ends then Rule.fail
  Rule.orElse (group "named_imports" '\x7b' '\x7d') (Rule.orElse (ops ["*", ","]) memberName)

/-- An import. -/
def importStatement (g : Rules) : Rule Forest := do
  let i ← keyword "import"
  let body ← Rule.orElse moduleSource (Rule.orElse
    (do
      let clause ← Rule.many importPart
      let source ← fromClause
      pure (wrap "import_clause" clause ++ source))
    (typed g do
      let marker ← Rule.optional (softWord "type")
      let name ← identifier
      let eq ← op "="
      let value ← g.assignment inStatement
      pure (marker ++ name ++ eq ++ value)))
  let stop ← semicolon g.language
  pure (wrap "import_statement" (i ++ body ++ stop))

/-- What `export default` is followed by: a declaration with a name, or a value. -/
def defaultExport (g : Rules) : Rule Forest :=
  Rule.orElse
    (do
      let d ← Rule.orElse (functionDeclaration g) (Rule.orElse
        (do
          let c ← classDeclaration g
          if (c.getLast?.bind (·.child? "name")).isSome || endsIn "abstract_class_declaration" c
          then pure c else Rule.fail)
        (typed g (interface g)))
      pure (label "declaration" d))
    (do
      let e ← g.expression inStatement
      let stop ← semicolon g.language
      pure (label "value" e ++ stop))

/-- What else can follow `export`: names, another module's names, or one value. -/
def exportClause (g : Rules) : Rule Forest :=
  let names : Rule Forest := do
    let marker ← Rule.optional (typed g (keyword "type"))
    let list ← group "export_clause" '\x7b' '\x7d'
    let source ← Rule.optional fromClause
    pure (marker ++ list ++ source)
  let all : Rule Forest := do
    let marker ← Rule.optional (typed g (keyword "type"))
    let star ← op "*"
    let name ← Rule.optional do
      let a ← keyword "as"
      let n ← Rule.orElse memberName string
      pure (a ++ n)
    let source ← fromClause
    pure (marker ++ star ++ name ++ source)
  let value : Rule Forest := do
    let eq ← op "="
    let e ← g.expression inStatement
    pure (eq ++ e)
  let space : Rule Forest := do
    let a ← keyword "as"
    let n ← keyword "namespace"
    let name ← identifier
    pure (a ++ n ++ name)
  Rule.orElse names (Rule.orElse all (typed g (Rule.orElse value space)))

/-- An export. -/
def exportStatement (g : Rules) : Rule Forest := do
  let decorators ← Rule.many (decorator g)
  let e ← keyword "export"
  let body ← Rule.orElse
    (do
      let d ← keyword "default"
      let rest ← defaultExport g
      pure (d ++ rest))
    (Rule.orElse
      (do
        let clause ← exportClause g
        let stop ← semicolon g.language
        pure (clause ++ stop))
      (Rule.orElse (typed g (importStatement g)) (do
        let d ← declaration g
        pure (label "declaration" d))))
  pure (wrap "export_statement" (decorators ++ e ++ body))

/-! ### Control flow -/

/-- A condition in parentheses. -/
def condition (g : Rules) : Rule Forest := do
  let left ← op "("
  let e ← g.expression {}
  let right ← op ")"
  pure (wrap "parenthesized_expression" (left ++ e ++ right))

/-- A branch. -/
def ifStatement (g : Rules) : Rule Forest := do
  let i ← keyword "if"
  let test ← condition g
  let yes ← g.statement
  let no ← Rule.optional do
    let e ← keyword "else"
    let s ← g.statement
    pure (wrap "else_clause" (e ++ s))
  pure (wrap "if_statement"
    (i ++ label "condition" test ++ label "consequence" yes ++ label "alternative" no))

/-- The head of a loop over the items or the keys of something. -/
def loopOver (g : Rules) : Rule Forest := do
  let left ← op "("
  let target ← Rule.orElse
    (do
      let word ← keywords ["const", "let", "var"]
      let name ← g.binding
      let value ← Rule.optional do
        let eq ← op "="
        let v ← g.assignment { noIn := true }
        pure (eq ++ v)
      pure (word ++ label "left" name ++ value))
    (do
      let e ← g.unary {}
      pure (label "left" e))
  let word ← keywords ["of", "in"]
  let source ← g.expression {}
  let right ← op ")"
  pure (left ++ target ++ label "operator" word ++ label "right" source ++ right)

/-- The head of a loop with a start, a test and a step. -/
def loopThrough (g : Rules) : Rule Forest := do
  let left ← op "("
  let start ← Rule.orElse
    (do
      let stop ← op ";"
      pure (wrap "empty_statement" stop))
    (Rule.orElse
      (do
        let (list, kind) ← declarators g { noIn := true }
        let stop ← op ";"
        pure (wrap kind (list ++ stop)))
      (do
        let e ← g.expression { noIn := true }
        let stop ← op ";"
        pure (e ++ stop)))
  let test ← Rule.orElse
    (do
      let stop ← op ";"
      pure (wrap "empty_statement" stop))
    (do
      let e ← g.expression {}
      let stop ← op ";"
      pure (e ++ stop))
  let step ← Rule.optional (g.expression {})
  let right ← op ")"
  pure (left ++ start ++ test ++ step ++ right)

/-- A `for` loop. -/
def forStatement (g : Rules) : Rule Forest := do
  let f ← keyword "for"
  let a ← Rule.optional (keyword "await")
  Rule.orElse
    (do
      let head ← loopOver g
      let body ← g.statement
      pure (wrap "for_in_statement" (f ++ a ++ head ++ label "body" body)))
    (do
      let head ← loopThrough g
      let body ← g.statement
      pure (wrap "for_statement" (f ++ a ++ head ++ label "body" body)))

/-- A loop with its test in front. -/
def whileStatement (g : Rules) : Rule Forest := do
  let w ← keyword "while"
  let test ← condition g
  let body ← g.statement
  pure (wrap "while_statement" (w ++ label "condition" test ++ label "body" body))

/-- A loop with its test at the end. -/
def doStatement (g : Rules) : Rule Forest := do
  let d ← keyword "do"
  let body ← g.statement
  let w ← keyword "while"
  let test ← condition g
  let stop ← Rule.optional (op ";")
  pure (wrap "do_statement" (d ++ label "body" body ++ w ++ label "condition" test ++ stop))

/-- A statement inside the scope of an object. -/
def withStatement (g : Rules) : Rule Forest := do
  let w ← keyword "with"
  let scope ← condition g
  let body ← g.statement
  pure (wrap "with_statement" (w ++ scope ++ label "body" body))

/-- A case of a `switch`. -/
def switchCase (g : Rules) : Rule Forest :=
  Rule.orElse
    (do
      let c ← keyword "case"
      let value ← g.expression {}
      let colon ← op ":"
      let body ← Rule.many g.statement
      pure (wrap "switch_case" (c ++ label "value" value ++ colon ++ body)))
    (do
      let d ← keyword "default"
      let colon ← op ":"
      let body ← Rule.many g.statement
      pure (wrap "switch_default" (d ++ colon ++ body)))

/-- A choice between cases. -/
def switchStatement (g : Rules) : Rule Forest := do
  let s ← keyword "switch"
  let value ← condition g
  let left ← op "\x7b"
  let cases ← Rule.many (switchCase g)
  let right ← op "\x7d"
  pure (wrap "switch_statement"
    (s ++ label "value" value ++ label "body" (wrap "switch_body" (left ++ cases ++ right))))

/-- A block with a handler, a last block or both. -/
def tryStatement (g : Rules) : Rule Forest := do
  let t ← keyword "try"
  let body ← block g
  let handler ← Rule.optional do
    let c ← keyword "catch"
    let parameter ← Rule.optional do
      let left ← op "("
      let name ← g.binding
      let type ← Rule.optional (typed g (declaredType g))
      let right ← op ")"
      pure (left ++ name ++ type ++ right)
    let b ← block g
    pure (wrap "catch_clause" (c ++ parameter ++ label "body" b))
  let last ← Rule.optional do
    let f ← keyword "finally"
    let b ← block g
    pure (wrap "finally_clause" (f ++ label "body" b))
  pure (wrap "try_statement" (t ++ label "body" body ++ handler ++ last))

/-- A `return`, with a value where the statement does not end. -/
def returnStatement (g : Rules) : Rule Forest := do
  let r ← keyword "return"
  let value ← Rule.optional do
    Rule.check (!·.endsStatement g.language true)
    g.expression inStatement
  let stop ← semicolon g.language
  pure (wrap "return_statement" (r ++ value ++ stop))

/-- A `throw`. -/
def throwStatement (g : Rules) : Rule Forest := do
  let t ← keyword "throw"
  let value ← g.expression inStatement
  let stop ← semicolon g.language
  pure (wrap "throw_statement" (t ++ value ++ stop))

/-- A jump, with a label where the statement does not end. -/
def jumpStatement (g : Rules) (word kind : String) : Rule Forest := do
  let j ← keyword word
  let target ← Rule.optional do
    Rule.check (!·.endsStatement g.language true)
    identifier
  let stop ← semicolon g.language
  pure (wrap kind (j ++ target ++ stop))

/-- A stop for a debugger. -/
def debuggerStatement (g : Rules) : Rule Forest := do
  let d ← keyword "debugger"
  let stop ← semicolon g.language
  pure (wrap "debugger_statement" (d ++ stop))

/-- A statement with a label. -/
def labeledStatement (g : Rules) : Rule Forest := do
  let name ← identifier
  let colon ← op ":"
  let body ← g.statement
  pure (wrap "labeled_statement" (label "label" name ++ colon ++ label "body" body))

/-- An expression as a statement. -/
def expressionStatement (g : Rules) : Rule Forest := do
  let e ← g.expression inStatement
  let stop ← semicolon g.language
  pure (wrap "expression_statement" (e ++ stop))

/-- A statement that its first word does not tell. -/
def otherStatement (g : Rules) : Rule Forest :=
  Rule.orElse (labeledStatement g) (Rule.orElse (exportStatement g)
    (Rule.orElse (declaration g) (Rule.orElse (importStatement g) (expressionStatement g))))

/-- A statement after its trivia. -/
def statementHere (g : Rules) : Rule Forest := do
  let c ← Rule.peek
  match c.rest with
  | '\x7b' :: _ => Rule.orElse (block g) (expressionStatement g)
  | ';' :: _ => do
    let stop ← op ";"
    pure (wrap "empty_statement" stop)
  | '\x7d' :: _ => Rule.fail
  | [] => Rule.fail
  | s =>
    match String.ofList ((word? s).getD []) with
    | "if" => ifStatement g
    | "for" => forStatement g
    | "while" => whileStatement g
    | "do" => doStatement g
    | "switch" => switchStatement g
    | "try" => tryStatement g
    | "return" => returnStatement g
    | "throw" => throwStatement g
    | "break" => jumpStatement g "break" "break_statement"
    | "continue" => jumpStatement g "continue" "continue_statement"
    | "debugger" => debuggerStatement g
    | "with" => withStatement g
    | "case" => Rule.fail
    | "else" => Rule.fail
    | _ => otherStatement g

/-- A statement. The comment marks of markup open a comment in front of it. -/
def statement (g : Rules) : Rule Forest := fun c =>
  let (comments, here) := c.trivia true
  (statementHere g here).map fun (forest, after) => (comments ++ forest, after)

end DocAnnotator.Grammar
