import DocAnnotator.Grammar.Rule

/-! ## Tokens

    Names, keywords, punctuation and literals. A token rule skips the trivia in front of the token
    and gives the comments in it together with the token's node.
-/

namespace DocAnnotator.Grammar

/-- A node for a token that the grammar does not name. -/
def mark (text : Text) (start stop : Nat) : Node :=
  ⟨String.ofList text, start, stop, false, none, []⟩

/-- The token that `read` finds after the trivia: `read` gives its text, and `build` its node. -/
def tokenOf (read : Text → Option Text) (build : Text → Nat → Nat → Node) : Rule Forest := fun c =>
  let (comments, c) := c.trivia false
  (read c.rest).map fun text =>
    let after := c.past text
    (comments ++ [build text c.offset after.offset], after)

/-- The length in characters of a Unicode escape in a name. -/
def nameEscape? : Text → Option Text
  | '\\' :: 'u' :: '\x7b' :: s =>
    let digits := s.takeWhile Char.isAlphanum
    match s.drop digits.length with
    | '\x7d' :: _ => some ('\\' :: 'u' :: '\x7b' :: digits ++ ['\x7d'])
    | _ => none
  | '\\' :: 'u' :: a :: b :: c :: d :: _ => some ['\\', 'u', a, b, c, d]
  | _ => none

/-- The characters of a name from here on. The first `inside` of them belong to an escape. -/
def nameRest (inside : Nat) : Text → Text
  | [] => []
  | c :: s =>
    match inside with
    | n + 1 => c :: nameRest n s
    | 0 =>
      match nameEscape? (c :: s) with
      | some escape => c :: nameRest (escape.length - 1) s
      | none => if isNamePart c then c :: nameRest 0 s else []

/-- The name or keyword that starts here. -/
def word? (s : Text) : Option Text :=
  match s with
  | c :: _ =>
    if isNameStart c || (nameEscape? s).isSome then some (nameRest 0 s) else none
  | [] => none

/-- Words that are never names. -/
def reservedWords : List Text :=
  ["break", "case", "catch", "class", "const", "continue", "debugger", "default", "delete", "do",
    "else", "enum", "export", "extends", "finally", "for", "function", "if", "import", "in",
    "instanceof", "new", "return", "super", "switch", "this", "throw", "try", "typeof", "var",
    "void", "while", "with", "null", "true", "false"].map String.toList

/-- The word that comes next, whatever it is. -/
def anyWord : Rule Text := fun c => (word? c.next.rest).map fun w => (w, c)

/-- A keyword. -/
def keyword (word : String) : Rule Forest :=
  tokenOf (fun s => if word? s = some word.toList then some word.toList else none) mark

/-- One of several keywords. -/
def keywords (words : List String) : Rule Forest :=
  tokenOf (fun s => (word? s).filter fun w => (words.map String.toList).contains w) mark

/-- The punctuation marks, longer ones before their beginnings. -/
def punctuation : List Text :=
  [">>>=", "...", "===", "!==", "**=", "<<=", ">>=", ">>>", "&&=", "||=", "??=", "=>", "==", "!=",
    "<=", ">=", "&&", "||", "??", "?.", "++", "--", "+=", "-=", "*=", "/=", "%=", "&=", "|=", "^=",
    "<<", ">>", "**", "\x7b", "\x7d", "(", ")", "[", "]", ";", ",", "<", ">", "+", "-", "*", "/",
    "%", "&", "|", "^", "!", "~", "?", ":", "=", ".", "@", "#"].map String.toList

/-- The longest punctuation mark that starts here. A question mark before a number is one of its
    own. -/
def punctuation? (s : Text) : Option Text :=
  match s with
  | '?' :: '.' :: c :: _ =>
    if c.isDigit then some ['?'] else some ['?', '.']
  | _ => punctuation.find? (·.isPrefixOf s)

/-- A punctuation mark that is not the beginning of a longer one. -/
def op (text : String) : Rule Forest :=
  tokenOf (fun s => (punctuation? s).filter (· == text.toList)) mark

/-- One of several punctuation marks. -/
def ops (texts : List String) : Rule Forest :=
  tokenOf (fun s => (punctuation? s).filter fun w => (texts.map String.toList).contains w) mark

/-- A punctuation mark, even where a longer one starts here. -/
def raw (text : String) : Rule Forest :=
  tokenOf (fun s => (Text.after? text.toList s).map fun _ => text.toList) mark

/-- The punctuation mark that comes next. -/
def nextMark : Rule Text := fun c => some ((punctuation? c.next.rest).getD [], c)

/-- Does this character come next? -/
def nextIs (ch : Char) : Rule Bool := fun c => some (c.next.rest.head? == some ch, c)

/-- A token with a kind of its own. -/
def named (kind : String) (read : Text → Option Text) : Rule Forest :=
  tokenOf read fun _ start stop => leaf kind start stop

/-- A name that is used or bound. -/
def identifier : Rule Forest :=
  tokenOf (fun s => (word? s).filter (!reservedWords.contains ·)) fun text start stop =>
    leaf (if text = "undefined".toList then "undefined" else "identifier") start stop

/-- Any word as the name of a member. -/
def memberName : Rule Forest := named "property_identifier" word?

/-- A private name. -/
def privateName : Rule Forest :=
  named "private_property_identifier" fun s =>
    match s with
    | '#' :: rest => (word? rest).map ('#' :: ·)
    | _ => none

/-- The text of a string after its opening quote, with its closing quote. -/
def stringBody? (quote : Char) : Text → Option Text
  | [] => none
  | '\\' :: c :: s => (stringBody? quote s).map fun t => '\\' :: c :: t
  | c :: s => if c = quote then some [c] else (stringBody? quote s).map (c :: ·)

/-- A string literal. -/
def stringText? : Text → Option Text
  | [] => none
  | c :: s => if c = '"' || c = '\x27' then (stringBody? c s).map (c :: ·) else none

/-- A string literal. -/
def string : Rule Forest := named "string" stringText?

/-- Digits and the letters that can follow them in a number, with separators. -/
def isNumberPart (c : Char) : Bool := c.isAlphanum || c == '_'

/-- Decimal digits with separators, then an exponent with its sign, then a suffix. -/
def decimalTail (s : Text) : Text :=
  let digits := s.takeWhile fun c => c.isDigit || c == '_'
  match s.drop digits.length with
  | e :: sign :: rest =>
    if (e = 'e' || e = 'E') && (sign = '+' || sign = '-') then
      digits ++ e :: sign :: rest.takeWhile isNumberPart
    else digits ++ (e :: sign :: rest).takeWhile isNumberPart
  | rest => digits ++ rest.takeWhile isNumberPart

/-- A number literal. -/
def numberText? (s : Text) : Option Text :=
  match s with
  | '0' :: c :: _ =>
    if c.isAlpha && c != 'e' && c != 'E' then some (s.takeWhile isNumberPart) else decimal
  | '.' :: c :: _ => if c.isDigit then some ('.' :: decimalTail (s.drop 1)) else none
  | c :: _ => if c.isDigit then decimal else none
  | [] => none
where
  decimal : Option Text :=
    let whole := s.takeWhile fun c => c.isDigit || c == '_'
    match s.drop whole.length with
    | '.' :: rest => some (whole ++ '.' :: decimalTail rest)
    | _ => some (decimalTail s)

/-- A number literal. -/
def number : Rule Forest := named "number" numberText?

/-- The text of a regular expression after its opening slash, with its closing slash. Inside a
    class a slash is a character. -/
def regexBody? (inClass : Bool) : Text → Option Text
  | [] => none
  | '\\' :: c :: s => (regexBody? inClass s).map fun t => '\\' :: c :: t
  | c :: s =>
    if isNewline c then none
    else if c = '/' && !inClass then some [c]
    else (regexBody? (if c = '[' then true else if c = ']' then false else inClass) s).map (c :: ·)

/-- A regular expression literal with its flags. -/
def regex : Rule Forest :=
  named "regex" fun s =>
    match s with
    | '/' :: rest => (regexBody? false rest).map fun body =>
        '/' :: body ++ (rest.drop body.length).takeWhile isNamePart
    | _ => none

/-- One step inside bracketed groups: the closers that are still to come after it, innermost first,
    and the number of characters it takes. Strings, templates and comments are groups too, closed by
    their own end; a star stands for the end of a block comment. -/
def groupStep (closers : List Char) (s : Text) : Option (List Char × Nat) :=
  match closers, s with
  | top :: outer, c :: rest =>
    let next := rest.head?
    if top = '\n' then some (if c = '\n' then outer else closers, 1)
    else if top = '*' then
      if c = '*' && next == some '/' then some (outer, 2) else some (closers, 1)
    else if top = '"' || top = '\x27' || top = '\x60' then
      if c = '\\' then some (closers, 2)
      else if top = '\x60' && c = '$' && next == some '\x7b' then some ('\x7d' :: closers, 2)
      else some (if c = top then outer else closers, 1)
    else if c = '/' && next == some '/' then some ('\n' :: closers, 2)
    else if c = '/' && next == some '*' then some ('*' :: closers, 2)
    else if c = top then some (outer, 1)
    else if c = '(' then some (')' :: closers, 1)
    else if c = '[' then some (']' :: closers, 1)
    else if c = '\x7b' then some ('\x7d' :: closers, 1)
    else if c = '"' || c = '\x27' || c = '\x60' then some (c :: closers, 1)
    else if c = ')' || c = ']' || c = '\x7d' then none
    else some (closers, 1)
  | _, _ => none

/-- The text of bracketed groups up to their last closer, `fuel` steps at most. -/
def groupBody? : Nat → List Char → Text → Option Text
  | 0, _, _ => none
  | fuel + 1, closers, s =>
    if closers.isEmpty then some []
    else do
      let (closers, n) ← groupStep closers s
      let more ← groupBody? fuel closers (s.drop n)
      some (s.take n ++ more)

/-- A bracketed group whose inside is not looked at. -/
def group (kind : String) (opener closer : Char) : Rule Forest :=
  named kind fun s =>
    match s with
    | c :: rest => if c = opener then (groupBody? (s.length + 1) [closer] rest).map (c :: ·) else none
    | [] => none

/-- A semicolon, or a place where a statement may end without one. -/
def semicolon (language : Language) : Rule Forest :=
  Rule.orElse (op ";") fun c => if c.endsStatement language true then some ([], c) else none

end DocAnnotator.Grammar
