import DocAnnotator.Text.Blank
import DocAnnotator.Text.Raw
import DocAnnotator.Text.Utf8

/-! ## Layout of a comment

    `layout` writes lines as a block comment for a place in a source: with the line ends of the
    source, at the indentation of the place, and followed by what puts the code after it back at
    its column. `layoutRaw` does so with lines that may hold halves of surrogate pairs.
-/

namespace DocAnnotator.Comment

/-- Does the source have a carriage return followed by a line feed? -/
def hasCrLf : Bytes → Bool
  | 0x0D :: 0x0A :: _ => true
  | _ :: rest => hasCrLf rest
  | [] => false

/-- The line end that a source uses. -/
def newlineOf (source : Bytes) : Text := if hasCrLf source then ['\r', '\n'] else ['\n']

/-- The text before an offset on its line. -/
def lineHead (source : Bytes) (offset : Nat) : Text :=
  Utf8.decodeLossy (((source.take offset).reverse.takeWhile (· != 0x0A)).reverse)

/-- The blanks at the start of a text. -/
def indentation (s : Text) : Text := s.takeWhile Text.isBlank

/-- Text with a backslash inside every block comment closer. -/
def escapeClosers : Text → Text
  | '*' :: '/' :: s => '*' :: '\\' :: '/' :: escapeClosers s
  | c :: s => c :: escapeClosers s
  | [] => []

/-- One physical line of the body. -/
def bodyLine (indent part : Text) : Text :=
  if part.isEmpty then indent ++ " *".toList
  else Text.trimEnd (indent ++ " * ".toList ++ part)

/-- The physical lines of one line: it may hold line breaks, and an empty one stays a line. -/
def bodyLines (indent line : Text) : List Text :=
  let parts := match Text.splitLines (escapeClosers line) with
    | [] => [[]]
    | parts => parts
  parts.map (bodyLine indent)

/-- The block comment that holds some lines, with every line after the first at an indentation. -/
def block (newline indent : Text) (lines : List Text) : Text :=
  List.intercalate newline
    ("/**".toList :: lines.flatMap (bodyLines indent) ++ [indent ++ " */".toList])

/-- The comment for an offset of a source. After code on the same line it stays inline and ends in
    a space; otherwise the code moves to the next line, at the same column. -/
def layout (lines : List Text) (source : Bytes) (offset : Nat) : Text :=
  let head := lineHead source offset
  let newline := newlineOf source
  let indent := indentation head
  let comment := block newline indent lines
  if (Text.trim head).isEmpty then comment ++ newline ++ indent else comment ++ [' ']

/-- The comment that raw lines make. -/
def layoutRaw (lines : List RawText) (source : Bytes) (offset : Nat) : RawText :=
  ⟨layout (lines.map (·.text)) source offset, lines.any (·.torn)⟩

end DocAnnotator.Comment
