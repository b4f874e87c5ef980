import DocAnnotator.Grammar.Cursor

/-! ## Rules

    A rule reads something at a cursor and moves on, or fails and leaves the choice to another
    rule. Rules that read syntax give the nodes they read, with the comments between them, in source
    order.

    Rules that refer to each other are the fields of `Rules`; a rule takes them as an argument. The
    knot is tied once for the whole grammar, with a bound on the nesting.
-/

namespace DocAnnotator.Grammar

/-- A rule. -/
abbrev Rule (α : Type) := StateT Cursor Option α

namespace Rule

/-- The rule that never matches. -/
def fail {α : Type} : Rule α := fun _ => none

/-- Matches without moving where a test holds of the cursor. -/
def check (test : Cursor → Bool) : Rule Unit := fun c => if test c then some ((), c) else none

/-- The cursor at the next token. -/
def peek : Rule Cursor := fun c => some (c.next, c)

/-- Does a rule match here? Nothing is read. -/
def looksLike {α : Type} (rule : Rule α) : Rule Bool := fun c => some ((rule c).isSome, c)

/-- The first of two rules that matches. -/
def orElse {α : Type} (first second : Rule α) : Rule α := fun c =>
  match first c with
  | some result => some result
  | none => second c

/-- A rule that may be missing. -/
def optional (rule : Rule Forest) : Rule Forest := orElse rule (pure [])

/-- A rule as often as it matches and moves on, `fuel` times at most. -/
def manyFuel (rule : Rule Forest) : Nat → Rule Forest
  | 0 => pure []
  | fuel + 1 => fun c =>
    match rule c with
    | none => some ([], c)
    | some (forest, after) =>
      if after.offset ≤ c.offset then some (forest, after)
      else (manyFuel rule fuel after).map fun (more, last) => (forest ++ more, last)

/-- A rule as often as it matches and moves on. -/
def many (rule : Rule Forest) : Rule Forest := fun c => manyFuel rule (c.left + 1) c

/-- Grows a value step by step while a step matches, `fuel` times at most. -/
def growFuel (step : Forest → Rule Forest) : Nat → Forest → Rule Forest
  | 0, forest => pure forest
  | fuel + 1, forest => fun c =>
    match step forest c with
    | none => some (forest, c)
    | some (grown, after) =>
      if after.offset ≤ c.offset then some (grown, after) else growFuel step fuel grown after

/-- Grows a value step by step while a step matches. -/
def grow (step : Forest → Rule Forest) (forest : Forest) : Rule Forest := fun c =>
  growFuel step (c.left + 1) forest c

end Rule

/-- Is the node a comment of any kind? -/
def isTrivia (node : Node) : Bool := node.kind == "comment" || node.kind == "html_comment"

/-- One node around a forest. Comments in front of its first token stay outside. -/
def wrap (kind : String) (forest : Forest) : Forest :=
  let lead := forest.takeWhile isTrivia
  let inside := forest.drop lead.length
  match inside, inside.getLast? with
  | first :: _, some last => lead ++ [⟨kind, first.start, last.stop, true, none, inside⟩]
  | _, _ => forest

/-- Gives the last node of a forest a field. -/
def label (field : String) (forest : Forest) : Forest :=
  match forest.reverse with
  | [] => []
  | last :: before => ({ last with field := some field } :: before).reverse

/-- The last node of a forest has this kind. -/
def endsIn (kind : String) (forest : Forest) : Bool := (forest.getLast?.map (·.kind == kind)).getD false

/-- What an expression depends on besides its text. -/
structure Context where
  /-- The operator `in` is not part of the expression. -/
  noIn : Bool := false
  /-- A new line may end the statement that the expression stands in. -/
  inStatement : Bool := false
  /-- A colon after a parameter list is not a return type. -/
  noReturnType : Bool := false

/-- The rules that other rules refer to. -/
structure Rules where
  language : Language
  /-- One statement. -/
  statement : Rule Forest
  /-- An expression, with commas. -/
  expression : Context → Rule Forest
  /-- An expression without commas. -/
  assignment : Context → Rule Forest
  /-- An operand with the operators in front of it. -/
  unary : Context → Rule Forest
  /-- A type. -/
  type : Rule Forest
  /-- A binding: a name or a pattern of names. -/
  binding : Rule Forest
  /-- An element in angle brackets. -/
  element : Rule Forest

end DocAnnotator.Grammar
