import DocAnnotator.Json.Basic

/-! ## Reading JSON

    `Json.read` accepts a text that is one JSON value with blanks around it. Beyond the standard
    it accepts `NaN`, `Infinity` and `-Infinity`; of several fields with one key the last one
    counts. Blanks are the space, the tab and the two line ends only, a string holds no raw control
    character, and an integer has a bounded number of digits.

    A string can hold half of a surrogate pair, written as an escape or as it stands. The readers
    go over code points for that reason.

    The readers take a fuel argument that bounds the nesting and the number of items; `readPoints`
    starts them with more than any text of its length can use.
-/

namespace DocAnnotator.Json

/-- Why a text is not read. -/
inductive ReadFault where
  /-- It is no JSON value. -/
  | malformed
  /-- It holds an integer of more digits than are read. -/
  | integerTooLong (digits : Nat)
  deriving DecidableEq

/-- The greatest number of digits of an integer. -/
def maxDigits : Nat := 4300

/-- The blanks between tokens. -/
def isGap : Point → Bool
  | .char c => c == ' ' || c == '\t' || c == '\n' || c == '\r'
  | .half => false

/-- What follows the blanks at the start. -/
def skipGap (s : Points) : Points := s.dropWhile isGap

/-- What follows a word at the start. -/
def word? : Text → Points → Option Points
  | [], s => some s
  | c :: word, .char d :: s => if c = d then word? word s else none
  | _ :: _, _ => none

/-- The value of a hexadecimal digit. -/
def hexDigit? (c : Char) : Option Nat :=
  if '0' ≤ c && c ≤ '9' then some (c.toNat - 0x30)
  else if 'a' ≤ c && c ≤ 'f' then some (c.toNat - 0x61 + 10)
  else if 'A' ≤ c && c ≤ 'F' then some (c.toNat - 0x41 + 10)
  else none

/-- Four hexadecimal digits. -/
def hexUnit? : Points → Option (Nat × Points)
  | .char a :: .char b :: .char c :: .char d :: s => do
    let a ← hexDigit? a
    let b ← hexDigit? b
    let c ← hexDigit? c
    let d ← hexDigit? d
    some (((a * 16 + b) * 16 + c) * 16 + d, s)
  | _ => none

/-- The code point of a `\u` escape whose digits come next. Two escapes for the halves of a
    surrogate pair are one character. -/
def unicodeEscape? (s : Points) : Option (Point × Points) := do
  let (high, s) ← hexUnit? s
  if 0xD800 ≤ high && high ≤ 0xDFFF then
    match s with
    | .char '\\' :: .char 'u' :: t =>
      match hexUnit? t with
      | some (low, rest) =>
        if high < 0xDC00 && 0xDC00 ≤ low && low ≤ 0xDFFF then
          some (.char (Char.ofNat (0x10000 + (high - 0xD800) * 0x400 + (low - 0xDC00))), rest)
        else some (.half, s)
      | none => some (.half, s)
    | _ => some (.half, s)
  else some (.char (Char.ofNat high), s)

/-- The character that a one-letter escape stands for. -/
def simpleEscape? : Point → Option Char
  | .char '"' => some '"'
  | .char '\\' => some '\\'
  | .char '/' => some '/'
  | .char 'b' => some '\x08'
  | .char 'f' => some '\x0c'
  | .char 'n' => some '\n'
  | .char 'r' => some '\r'
  | .char 't' => some '\t'
  | _ => none

/-- The rest of a string after its opening quote. -/
def string? : Nat → Points → Option (Points × Points)
  | 0, _ => none
  | _ + 1, [] => none
  | _ + 1, .char '"' :: s => some ([], s)
  | fuel + 1, .char '\\' :: .char 'u' :: s => do
    let (p, s) ← unicodeEscape? s
    let (t, s) ← string? fuel s
    some (p :: t, s)
  | fuel + 1, .char '\\' :: e :: s => do
    let c ← simpleEscape? e
    let (t, s) ← string? fuel s
    some (.char c :: t, s)
  | fuel + 1, p :: s =>
    if p = .char '\\' || p.toChar.toNat < 0x20 then none
    else do
      let (t, s) ← string? fuel s
      some (p :: t, s)

/-- The digits at the start. -/
def digits (s : Points) : Text := (s.takeWhile Point.isDigit).map Point.toChar

/-- The number that a run of decimal digits denotes, read onto `acc`. -/
def digitsValue (acc : Nat) (digits : Text) : Nat :=
  digits.foldl (fun n c => n * 10 + (c.toNat - 0x30)) acc

/-- The exponent part of a number, if one stands here: its value and the rest. -/
def exponent? : Points → Option (Int × Points)
  | e :: s =>
    if e = .char 'e' || e = .char 'E' then
      let (negative, s) := match s with
        | .char '+' :: s => (false, s)
        | .char '-' :: s => (true, s)
        | s => (false, s)
      if (digits s).isEmpty then none
      else
        let n : Int := digitsValue 0 (digits s)
        some (if negative then -n else n, s.dropWhile Point.isDigit)
    else none
  | [] => none

/-- The fraction part of a number, if one stands here: its digits and the rest. -/
def fraction? : Points → Option (Text × Points)
  | .char '.' :: s =>
    if (digits s).isEmpty then none else some (digits s, s.dropWhile Point.isDigit)
  | _ => none

/-- The digits that an integer starts with: a zero stands alone. -/
def leadingDigits : Points → Text
  | .char '0' :: _ => ['0']
  | s => digits s

/-- An unsigned number: no leading zeros, then an optional fraction and exponent. -/
def magnitude (negative : Bool) (s : Points) : Except ReadFault (Number × Points) :=
  let digits := leadingDigits s
  if digits.isEmpty then .error .malformed
  else
    let s := s.drop digits.length
    let sign : Int := if negative then -1 else 1
    match fraction? s, exponent? s with
    | none, none =>
      if maxDigits < digits.length then .error (.integerTooLong digits.length)
      else .ok (.int (sign * digitsValue 0 digits), s)
    | none, some (e, s) => .ok (.decimal (sign * digitsValue 0 digits) e, s)
    | some (f, s), _ =>
      let m : Int := sign * digitsValue (digitsValue 0 digits) f
      match exponent? s with
      | none => .ok (.decimal m (-(f.length : Int)), s)
      | some (e, s) => .ok (.decimal m (e - f.length), s)

/-- A word or a number. -/
def scalar (s : Points) : Except ReadFault (Json × Points) :=
  let words : List (Text × Json) :=
    [("null".toList, .null), ("true".toList, .bool true), ("false".toList, .bool false),
      ("NaN".toList, .num .nan), ("Infinity".toList, .num (.infinite false)),
      ("-Infinity".toList, .num (.infinite true))]
  match words.findSome? fun (word, value) => (word? word s).map fun rest => (value, rest) with
  | some result => .ok result
  | none =>
    let number := match s with
      | .char '-' :: s => magnitude true s
      | s => magnitude false s
    number.map fun (n, rest) => (.num n, rest)

/-- A string after its opening quote. -/
def quotedString (s : Points) : Except ReadFault (RawText × Points) :=
  match string? (s.length + 1) s with
  | some (points, rest) => .ok (.ofPoints points, rest)
  | none => .error .malformed

mutual
/-- A value that starts here. -/
def value : Nat → Points → Except ReadFault (Json × Points)
  | 0, _ => .error .malformed
  | _ + 1, .char '"' :: s => (quotedString s).map fun (t, rest) => (.str t, rest)
  | fuel + 1, .char '[' :: s =>
    match skipGap s with
    | .char ']' :: rest => .ok (.arr [], rest)
    | s => (items fuel s).map fun (items, rest) => (.arr items, rest)
  | fuel + 1, .char '\x7b' :: s =>
    match skipGap s with
    | .char '\x7d' :: rest => .ok (.obj [], rest)
    | s => (members fuel [] s).map fun (fields, rest) => (.obj fields, rest)
  | _ + 1, s => scalar s

/-- The items of an array from a value on, up to and with the closing bracket. -/
def items : Nat → Points → Except ReadFault (List Json × Points)
  | 0, _ => .error .malformed
  | fuel + 1, s => do
    let (item, s) ← value fuel s
    match skipGap s with
    | .char ']' :: rest => .ok ([item], rest)
    | .char ',' :: rest =>
      let (more, rest) ← items fuel (skipGap rest)
      .ok (item :: more, rest)
    | _ => .error .malformed

/-- The members of an object from a key on, up to and with the closing brace. `seen` are the
    fields so far. -/
def members : Nat → Fields → Points → Except ReadFault (Fields × Points)
  | 0, _, _ => .error .malformed
  | fuel + 1, seen, .char '"' :: s => do
    let (key, s) ← quotedString s
    match skipGap s with
    | .char ':' :: s =>
      let (value, s) ← value fuel (skipGap s)
      let seen := seen.put key.text value
      match skipGap s with
      | .char '\x7d' :: rest => .ok (seen, rest)
      | .char ',' :: rest => members fuel seen (skipGap rest)
      | _ => .error .malformed
    | _ => .error .malformed
  | _ + 1, _, _ => .error .malformed
end

/-- The value that code points denote. -/
def readPoints (s : Points) : Except ReadFault Json := do
  let (value, rest) ← value (2 * s.length + 2) (skipGap s)
  if (skipGap rest).isEmpty then .ok value else .error .malformed

/-- The value that a whole text denotes. -/
def read (s : Text) : Except ReadFault Json := readPoints s.points

/-- The value that a whole text denotes, if it is read. -/
def read? (s : Text) : Option Json := (read s).toOption

end DocAnnotator.Json
