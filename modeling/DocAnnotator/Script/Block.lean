import DocAnnotator.Script.Identifier
import DocAnnotator.Text.Blank

/-! ## The script of a source unit

    A plain unit is all script. A container unit holds its script between the first script tag and
    the first closing tag after it; both tags are read without regard to case.
-/

namespace DocAnnotator

/-- The script inside a source unit, with the text around it. Offsets count code points. -/
structure ScriptRange where
  script : Text
  start : Nat
  stop : Nat
  before : Text
  after : Text
  dialect : Dialect

namespace ScriptRange

/-- Is there text around the script? -/
def isContainer (range : ScriptRange) : Bool := !range.before.isEmpty || !range.after.isEmpty

/-- The text after an opening tag's name, where the name ends at a word boundary. -/
def openTag? (s : Text) : Option Text :=
  match Text.afterFolded? "<script".toList s with
  | some (c :: rest) => if Text.isWord c then none else some (c :: rest)
  | _ => none

/-- Does a closing tag start here? Blanks may stand before its bracket. -/
def startsCloseTag (s : Text) : Bool :=
  match Text.afterFolded? "</script".toList s with
  | some rest => (rest.dropWhile Text.isBlank).head? == some '>'
  | none => false

/-- The text before the first opening tag and the text after its name. -/
def findOpen? : Text → Option (Text × Text)
  | [] => none
  | c :: s =>
    match openTag? (c :: s) with
    | some rest => some ([], rest)
    | none => (findOpen? s).map fun (before, rest) => (c :: before, rest)

/-- The text before the first closing tag and the text from it on. -/
def findClose? : Text → Option (Text × Text)
  | [] => none
  | c :: s =>
    if startsCloseTag (c :: s) then some ([], c :: s)
    else (findClose? s).map fun (inside, rest) => (c :: inside, rest)

/-- The value of a `lang` attribute whose name starts here: an equals sign, an optional quote and
    a run of word characters and hyphens. -/
def langValue? (s : Text) : Option Text := do
  let s ← Text.afterFolded? "lang".toList s
  let s ← Text.after? ['='] (s.dropWhile Text.isBlank)
  let s := s.dropWhile Text.isBlank
  let s := match s with
    | c :: rest => if c = '"' || c = '\x27' then rest else s
    | [] => s
  let value := s.takeWhile fun c => Text.isWord c || c = '-'
  if value.isEmpty then none else some value

/-- The first `lang` attribute in the text of a tag. Its name begins at a word boundary;
    `previous` is the character before. -/
def findLang? (previous : Option Char) : Text → Option Text
  | [] => none
  | c :: s =>
    let value := if (previous.map Text.isWord).getD false then none else langValue? (c :: s)
    match value with
    | some value => some value
    | none => findLang? (some c) s

/-- The dialect that a language name stands for. An unknown language reads as JavaScript. -/
def languageDialect (language : Text) : Dialect :=
  if language = "jsx".toList then .jsx
  else if language = "ts".toList || language = "typescript".toList then .typescript
  else if language = "tsx".toList then .tsx
  else .javascript

/-- The dialect of a script block, by the attributes of its tag. -/
def blockDialect (attributes : Text) : Dialect :=
  match findLang? none attributes with
  | some language => languageDialect (Text.lower language)
  | none => .javascript

/-- The script block of a container. -/
def block? (text : Text) : Option ScriptRange := do
  let (_, rest) ← findOpen? text
  let attributes := rest.takeWhile (· != '>')
  let content ← Text.after? ['>'] (rest.drop attributes.length)
  let (script, after) ← findClose? content
  let start := text.length - content.length
  some
    { script := script
      start := start
      stop := start + script.length
      before := text.take start
      after := after
      dialect := blockDialect attributes }

/-- The script of a unit; none for a container without a script block. -/
def extract? (text : Text) (dialect : Dialect) : Option ScriptRange :=
  match dialect with
  | .vue => block? text
  | _ => some ⟨text, 0, text.length, [], [], dialect⟩

/-- The unit with a new script. In a container, a line feed that opened or closed the block stays
    there. -/
def reassemble (text : Text) (range : ScriptRange) (script : Text) : Text :=
  if script = range.script then text
  else if !range.isContainer then text.take range.start ++ script ++ text.drop range.stop
  else
    let script := if range.script.head? == some '\n' && script.head? != some '\n'
      then '\n' :: script else script
    let script := if range.script.getLast? == some '\n' && script.getLast? != some '\n'
      then script ++ ['\n'] else script
    range.before ++ script ++ range.after

end ScriptRange

end DocAnnotator
