import DocAnnotator.Text.Basic

/-! ## Blanks and line breaks

    - `isBlank`: the Unicode white space at which text is trimmed.
    - `trim`, `trimStart`, `trimEnd`: text without blanks at its ends.
    - `splitLines`: the lines of a text, at any of the eleven line separators.
-/

namespace DocAnnotator.Text

/-- Unicode white space, with the four information separators U+001C to U+001F. Neither the
    zero-width space nor the byte order mark is blank. -/
def isBlank (c : Char) : Bool :=
  let n := c.toNat
  (0x09 ≤ n && n ≤ 0x0D) || (0x1C ≤ n && n ≤ 0x20) || n == 0x85 || n == 0xA0 || n == 0x1680 ||
    (0x2000 ≤ n && n ≤ 0x200A) || n == 0x2028 || n == 0x2029 || n == 0x202F || n == 0x205F ||
    n == 0x3000

/-- Text without the blanks at its start. -/
def trimStart (s : Text) : Text := s.dropWhile isBlank

/-- Text without the blanks at its end. -/
def trimEnd (s : Text) : Text := (s.reverse.dropWhile isBlank).reverse

/-- Text without blanks at either end. -/
def trim (s : Text) : Text := trimEnd (trimStart s)

/-- The characters that end a line on their own. -/
def isLineBreak (c : Char) : Bool :=
  let n := c.toNat
  (0x0A ≤ n && n ≤ 0x0D) || (0x1C ≤ n && n ≤ 0x1E) || n == 0x85 || n == 0x2028 || n == 0x2029

/-- The lines of a text without their separators. A carriage return with its line feed is one
    separator, and a separator at the very end opens no further line. -/
def splitLines : Text → List Text
  | [] => []
  | '\r' :: '\n' :: s => [] :: splitLines s
  | c :: s =>
    if isLineBreak c then [] :: splitLines s
    else match splitLines s with
      | [] => [[c]]
      | line :: more => (c :: line) :: more

end DocAnnotator.Text
