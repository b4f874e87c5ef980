import DocAnnotator.Tree.Node

/-! ## Cursors and trivia

    A cursor is what is left of a script and how many bytes of it are behind. Between tokens there
    may be blanks and comments; comments are nodes of the tree.

    - `Cursor.trivia`: the comments before the next token.
    - `Cursor.endsStatement`: may a statement end here without a semicolon?
-/

namespace DocAnnotator.Grammar

/-- What is left of a script, and the byte offset where it starts. -/
structure Cursor where
  rest : Text
  offset : Nat
  /-- The number of characters that are left. -/
  left : Nat

/-- A list of nodes in source order. -/
abbrev Forest := List Node

/-- The kinds of language that a script can be in. -/
structure Language where
  /-- Type annotations are part of the language. -/
  types : Bool
  /-- Elements in angle brackets are part of the language. -/
  elements : Bool

/-- Line ends that can end a statement. -/
def isNewline (c : Char) : Bool := c == '\n' || c.toNat == 0x2028 || c.toNat == 0x2029

/-- Line ends that end a line comment. -/
def endsComment (c : Char) : Bool := isNewline c || c == '\r'

/-- Space characters of the category of separators. -/
def isSpaceSeparator (c : Char) : Bool :=
  let n := c.toNat
  n == 0x20 || n == 0xA0 || n == 0x1680 || (0x2000 ≤ n && n ≤ 0x200A) || n == 0x202F ||
    n == 0x205F || n == 0x3000

/-- Characters that only separate tokens. -/
def isSpace (c : Char) : Bool :=
  let n := c.toNat
  (0x09 ≤ n && n ≤ 0x0D) || isSpaceSeparator c || n == 0xFEFF || n == 0x2028 || n == 0x2029 ||
    n == 0x2060 || n == 0x200B

/-- Characters that a name can start with: all but blanks, digits, controls and punctuation. -/
def isNameStart (c : Char) : Bool :=
  !(c.toNat < 0x20 || isSpace c || c.isDigit ||
    ":;\x60\"\x27@#.,|^&<=>+-*/\\%?!~()[]\x7b\x7d".toList.contains c)

/-- Characters that a name can go on with. -/
def isNamePart (c : Char) : Bool := isNameStart c || c.isDigit

/-- The number of bytes of a text. -/
def byteLength (s : Text) : Nat := s.foldl (fun n c => n + c.utf8Size) 0

/-- A node for a token that the grammar names. -/
def leaf (kind : String) (start stop : Nat) : Node := ⟨kind, start, stop, true, none, []⟩

namespace Cursor

/-- The cursor at the start of a text. -/
def ofText (s : Text) : Cursor := ⟨s, 0, s.length⟩

/-- The cursor behind some text. -/
def past (c : Cursor) (s : Text) : Cursor :=
  ⟨c.rest.drop s.length, c.offset + byteLength s, c.left - s.length⟩

/-- The text of a block comment after its opener, with its closer; none where it is not closed. -/
def blockBody? : Text → Option Text
  | [] => none
  | '*' :: '/' :: _ => some ['*', '/']
  | c :: s => (blockBody? s).map (c :: ·)

/-- The comment that starts here: its kind and its text. `inMarkup` says whether the comment marks
    of markup open one too. -/
def comment? (inMarkup : Bool) (s : Text) : Option (String × Text) :=
  match s with
  | '/' :: '/' :: rest => some ("comment", '/' :: '/' :: rest.takeWhile (!endsComment ·))
  | '/' :: '*' :: rest => (blockBody? rest).map fun body => ("comment", '/' :: '*' :: body)
  | '<' :: '!' :: '-' :: '-' :: _ =>
    if inMarkup then some ("html_comment", s.takeWhile (!endsComment ·)) else none
  | '-' :: '-' :: '>' :: _ =>
    if inMarkup then some ("html_comment", s.takeWhile (!endsComment ·)) else none
  | _ => none

/-- Skips blanks and comments, `fuel` comments at most. -/
def triviaFuel (inMarkup : Bool) : Nat → Cursor → Forest × Cursor
  | 0, c => ([], c)
  | fuel + 1, c =>
    let c := c.past (c.rest.takeWhile isSpace)
    match comment? inMarkup c.rest with
    | some (kind, text) =>
      let after := c.past text
      let (more, last) := triviaFuel inMarkup fuel after
      (leaf kind c.offset after.offset :: more, last)
    | none => ([], c)

/-- The comments before the next token, and the cursor at that token. -/
def trivia (inMarkup : Bool) (c : Cursor) : Forest × Cursor :=
  triviaFuel inMarkup (c.left + 1) c

/-- The cursor at the next token. -/
def next (c : Cursor) : Cursor := (c.trivia false).2

/-- Is there a line end between here and the next token? -/
def newlineBefore (c : Cursor) : Bool :=
  let gap := c.rest.take (c.left - c.next.left)
  gap.any isNewline

/-- Does a keyword start here? -/
def startsWord (word s : Text) : Bool :=
  match Text.after? word s with
  | some (c :: _) => !isNamePart c
  | some [] => true
  | none => false

/-- A token that goes on with the expression before it, though it stands on a new line. -/
def continuesLine (language : Language) (afterType : Bool) (s : Text) : Bool :=
  match s with
  | '(' :: _ | '[' :: _ => !(language.types && afterType)
  | '.' :: c :: _ => language.types || !c.isDigit
  | '+' :: c :: _ => c != '+'
  | '-' :: c :: _ => c != '-'
  | '!' :: c :: _ => c == '='
  | c :: _ =>
    "\x60,.:;*%><=?^|&/+-".toList.contains c || startsWord "in".toList s ||
      startsWord "instanceof".toList s
  | [] => false

/-- May a statement end here without a semicolon: at the end, before a closing brace, or before a
    new line that does not go on with it? `afterType` says that no operator could follow. -/
def endsStatement (language : Language) (afterType : Bool) (c : Cursor) : Bool :=
  let next := c.next
  match next.rest with
  | [] => true
  | '\x7d' :: _ => true
  | s => c.newlineBefore && !continuesLine language afterType s

end Cursor

end DocAnnotator.Grammar
