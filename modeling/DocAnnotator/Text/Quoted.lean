import DocAnnotator.Text.Word

/-! ## Quoted text

    Text as messages show it: between single quotes, or between double quotes where it holds a
    single quote and no double quote. Backslashes, the quote itself and characters without a
    printed form are escaped.
-/

namespace DocAnnotator.Text

/-- The last `width` hexadecimal digits of `n`, in small letters. -/
def hex (width n : Nat) : Text :=
  let digits := Nat.toDigits 16 n
  List.replicate (width - digits.length) '0' ++ digits

/-- One character inside quotes. -/
def quoteChar (quote c : Char) : Text :=
  let n := c.toNat
  if c = quote || c = '\\' then ['\\', c]
  else if c = '\n' then ['\\', 'n']
  else if c = '\r' then ['\\', 'r']
  else if c = '\t' then ['\\', 't']
  else if isPrintable c then [c]
  else if n < 0x100 then '\\' :: 'x' :: hex 2 n
  else if n < 0x10000 then '\\' :: 'u' :: hex 4 n
  else '\\' :: 'U' :: hex 8 n

/-- The quote mark that a text is shown in. -/
def quoteMark (s : Text) : Char :=
  if s.contains '\x27' && !s.contains '"' then '"' else '\x27'

/-- A text between quotes. -/
def quoted (s : Text) : Text :=
  let quote := quoteMark s
  quote :: s.flatMap (quoteChar quote) ++ [quote]

end DocAnnotator.Text
