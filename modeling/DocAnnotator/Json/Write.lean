import DocAnnotator.Json.Basic
import DocAnnotator.Text.Quoted

/-! ## Writing JSON

    Values without blanks between their tokens. A decimal is written as its mantissa with its
    exponent, so that reading it back gives the same value. So does a text with halves of surrogate
    pairs: the character that stands for a half is written as an escape of one.
-/

namespace DocAnnotator.Json

/-- One character inside a written string. -/
def writeChar (torn : Bool) (c : Char) : Text :=
  if c = '"' then ['\\', '"']
  else if c = '\\' then ['\\', '\\']
  else if c.toNat < 0x20 then '\\' :: 'u' :: Text.hex 4 c.toNat
  else if torn && c = Point.half.toChar then '\\' :: 'u' :: Text.hex 4 0xD800
  else [c]

/-- A string in quotes. -/
def writeString (s : RawText) : Text := '"' :: s.text.flatMap (writeChar s.torn) ++ ['"']

/-- A number. -/
def writeNumber : Number → Text
  | .int n => Text.ofInt n
  | .decimal m e => Text.ofInt m ++ 'e' :: Text.ofInt e
  | .infinite true => "-Infinity".toList
  | .infinite false => "Infinity".toList
  | .nan => "NaN".toList

mutual
/-- A value. -/
def write : Json → Text
  | .null => "null".toList
  | .bool true => "true".toList
  | .bool false => "false".toList
  | .num n => writeNumber n
  | .str s => writeString s
  | .arr items => '[' :: writeItems items ++ [']']
  | .obj fields => '\x7b' :: writeFields fields ++ ['\x7d']

/-- Items with commas between them. -/
def writeItems : List Json → Text
  | [] => []
  | [item] => write item
  | item :: rest => write item ++ ',' :: writeItems rest

/-- Fields with commas between them. -/
def writeFields : List (Text × Json) → Text
  | [] => []
  | [(key, value)] => writeString key ++ ':' :: write value
  | (key, value) :: rest => writeString key ++ ':' :: write value ++ ',' :: writeFields rest
end

end DocAnnotator.Json
