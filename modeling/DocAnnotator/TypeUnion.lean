import DocAnnotator.Text.Blank

/-! ## Unions of type texts

    A type text is a union of members at the bars that stand outside all brackets.

    - `members`: the members of a type text.
    - `join`: one union of the distinct members of several type texts.
    - `promised`: the type of an asynchronous result.
-/

namespace DocAnnotator.TypeUnion

/-- The bracket depth after a character. The arrow of a function type closes no bracket. -/
def depthAfter (depth : Int) (previous : Option Char) (c : Char) : Int :=
  if c = '<' || c = '(' || c = '[' || c = '\x7b' then depth + 1
  else if c = '>' && previous == some '=' then depth
  else if c = '>' || c = ')' || c = ']' || c = '\x7d' then depth - 1
  else depth

/-- The pieces between the bars at depth zero, as they are written. -/
def pieces (depth : Int) (previous : Option Char) : Text → List Text
  | [] => [[]]
  | c :: s =>
    let depth := depthAfter depth previous c
    if c = '|' && depth = 0 then [] :: pieces depth (some c) s
    else match pieces depth (some c) s with
      | [] => [[c]]
      | piece :: more => (c :: piece) :: more

/-- The members of a type text, trimmed, without empty ones. -/
def members (type : Text) : List Text :=
  ((pieces 0 none type).map Text.trim).filter (!·.isEmpty)

/-- The type that says nothing. -/
def any : Text := "any".toList

/-- The type of a function that returns no value. -/
def void : Text := "void".toList

/-- The distinct members of several type texts, first seen first. -/
def distinctMembers (types : List Text) : List Text := (types.flatMap members).eraseDups

/-- One union of the distinct members; without any member it is `any`. -/
def join (types : List Text) : Text :=
  match distinctMembers types with
  | [] => any
  | all => List.intercalate " | ".toList all

/-- The type of an asynchronous result: a promise of the type, unless it reads as one already. -/
def promised (type : Text) : Text :=
  if "Promise<".toList.isPrefixOf type then type else "Promise<".toList ++ type ++ ">".toList

end DocAnnotator.TypeUnion
