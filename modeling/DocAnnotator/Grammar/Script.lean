import DocAnnotator.Grammar.Element
import DocAnnotator.Grammar.Statement
import DocAnnotator.Script.Identifier

/-! ## Scripts

    The rules of the grammar tied together, and the syntax tree of a script. Nested rules use up
    fuel, and a script of `n` characters cannot nest deeper than a small multiple of `n`.
-/

namespace DocAnnotator.Grammar

/-- The language of a dialect. -/
def languageOf : Dialect → Language
  | .typescript => ⟨true, false⟩
  | .tsx => ⟨true, true⟩
  | _ => ⟨false, true⟩

/-- The rules, for nesting up to a depth. -/
def rules (language : Language) : Nat → Rules
  | 0 =>
    { language := language
      statement := Rule.fail
      expression := fun _ => Rule.fail
      assignment := fun _ => Rule.fail
      unary := fun _ => Rule.fail
      type := Rule.fail
      binding := Rule.fail
      element := Rule.fail }
  | depth + 1 =>
    { language := language
      statement := fun c => Grammar.statement (rules language depth) c
      expression := fun ctx c => Grammar.expression (rules language depth) ctx c
      assignment := fun ctx c => Grammar.assignment (rules language depth) ctx c
      unary := fun ctx c => Grammar.unary (rules language depth) ctx c
      type := fun c => Grammar.conditionalType (rules language depth) c
      binding := fun c => Grammar.binding (rules language depth) c
      element := fun c => Grammar.element (rules language depth) c }

/-- The line that names an interpreter, at the very start of a script. -/
def interpreterLine : Rule Forest := fun c =>
  let c := c.past (c.rest.takeWhile isSpace)
  match c.rest with
  | '#' :: '!' :: _ =>
    let after := c.past (c.rest.takeWhile (· != '\n'))
    some ([leaf "hash_bang_line" c.offset after.offset], after)
  | _ => none

/-- The statements of a script, and the comments after the last of them. -/
def program (g : Rules) : Rule Forest := do
  let line ← Rule.optional interpreterLine
  let statements ← Rule.many g.statement
  let trailing : Forest ← fun c => some (c.trivia true)
  pure (line ++ statements ++ trailing)

/-- The syntax tree of a script. It spans the script from its first token on. -/
def parse (dialect : Dialect) (script : Text) : Node :=
  let start := Cursor.ofText script
  let forest := match program (rules (languageOf dialect) (4 * script.length + 8)) start with
    | some (forest, _) => forest
    | none => []
  let total := byteLength script
  ⟨"program", (forest.head?.map (·.start)).getD total, total, true, none, forest⟩

end DocAnnotator.Grammar
