import DocAnnotator.Text.Blank
import DocAnnotator.Text.Word

/-! ## Patterns

    Regular expressions over characters: literals, classes, groups, alternatives, repetition and
    the two anchors. `Pattern.parse?` reads the usual notation for these and refuses all other, such
    as counted repetition and boundaries of words. `Pattern.search` asks whether a pattern matches
    anywhere in a text.
-/

namespace DocAnnotator

/-- A regular expression. -/
inductive Pattern where
  /-- Matches the empty text. -/
  | empty
  /-- Matches one character of a class. -/
  | char (accepts : Char → Bool)
  /-- Matches at the start of the text. -/
  | start
  /-- Matches at the end of the text, or before a line feed at its very end. -/
  | stop
  | seq (first second : Pattern)
  | alt (first second : Pattern)
  /-- Any number of matches in a row. -/
  | star (inner : Pattern)

namespace Pattern

/-- A position in a text: is it the start, and what is to come? -/
structure Position where
  atStart : Bool
  rest : Text
  deriving DecidableEq

/-- Positions that repeated steps reach, `fuel` steps at most; `seen` were reached before. -/
def closure (step : Position → List Position) : Nat → List Position → List Position → List Position
  | 0, _, seen => seen
  | fuel + 1, frontier, seen =>
    let next := ((frontier.flatMap step).filter (!seen.contains ·)).eraseDups
    if next.isEmpty then seen else closure step fuel next (seen ++ next)

/-- The positions at which a match that begins here can end. -/
def ends : Pattern → Position → List Position
  | .empty, p => [p]
  | .char accepts, p =>
    match p.rest with
    | c :: rest => if accepts c then [⟨false, rest⟩] else []
    | [] => []
  | .start, p => if p.atStart then [p] else []
  | .stop, p => if p.rest.isEmpty || p.rest = ['\n'] then [p] else []
  | .seq a b, p => (a.ends p).flatMap b.ends
  | .alt a b, p => a.ends p ++ b.ends p
  | .star a, p => closure a.ends (p.rest.length + 1) [p] [p]

/-- Does the pattern match from this position or a later one? -/
def searchFrom (pattern : Pattern) (atStart : Bool) : Text → Bool
  | [] => !(pattern.ends ⟨atStart, []⟩).isEmpty
  | c :: s => !(pattern.ends ⟨atStart, c :: s⟩).isEmpty || searchFrom pattern false s

/-- Does the pattern match anywhere in the text? -/
def search (pattern : Pattern) (text : Text) : Bool := pattern.searchFrom true text

/-- The class of an escaped letter. Letters and digits without a class have another meaning after a
    backslash, or none; other characters stand for themselves. -/
def escape? : Char → Option (Char → Bool)
  | 'd' => some Text.isDecimal
  | 'D' => some fun x => !Text.isDecimal x
  | 'w' => some Text.isWord
  | 'W' => some fun x => !Text.isWord x
  | 's' => some Text.isBlank
  | 'S' => some fun x => !Text.isBlank x
  | 'n' => some (· == '\n')
  | 'r' => some (· == '\r')
  | 't' => some (· == '\t')
  | c => if c.isAlphanum then none else some (· == c)

/-- The members of a character class up to its closing bracket; a bracket that comes first is a
    member. An escape is no end of a range. -/
def classItems? (isFirst : Bool) : Text → Option ((Char → Bool) × Text)
  | [] => none
  | ['\\'] => none
  | '\\' :: c :: s =>
    if s.head? = some '-' && s.tail.head? != some ']' then none
    else do
      let members ← escape? c
      let (more, rest) ← classItems? false s
      some (fun x => members x || more x, rest)
  | a :: '-' :: b :: s =>
    if a = ']' && !isFirst then some (fun _ => false, '-' :: b :: s)
    else if b = ']' then
      (classItems? false (b :: s)).map fun (more, rest) =>
        (fun x => x == a || x == '-' || more x, rest)
    else if b = '\\' || b < a then none
    else
      (classItems? false s).map fun (more, rest) => (fun x => (a ≤ x && x ≤ b) || more x, rest)
  | a :: s =>
    if a = ']' && !isFirst then some (fun _ => false, s)
    else (classItems? false s).map fun (more, rest) => (fun x => x == a || more x, rest)

/-- A character class after its opening bracket. -/
def class? : Text → Option ((Char → Bool) × Text)
  | '^' :: s => (classItems? true s).map fun (members, rest) => (fun x => !members x, rest)
  | s => classItems? true s

/-- The characters that repeat what stands before them. -/
def isMark (c : Char) : Bool := c == '*' || c == '+' || c == '?' || c == '\x7b'

/-- Is the pattern an anchor? -/
def isAnchor : Pattern → Bool
  | .start | .stop => true
  | _ => false

/-- An atom with the repetition mark after it. A second mark for a lazy match changes nothing about
    whether there is one; any other second mark, a counted repetition and a repeated anchor are
    refused. -/
def repeated? (atom : Pattern) (s : Text) : Option (Pattern × Text) :=
  let marked : Option (Pattern × Text) := match s with
    | '*' :: '?' :: s | '*' :: s => some (.star atom, s)
    | '+' :: '?' :: s | '+' :: s => some (.seq atom (.star atom), s)
    | '?' :: '?' :: s | '?' :: s => some (.alt .empty atom, s)
    | _ => none
  match marked with
  | none => if (s.head?.map isMark).getD false then none else some (atom, s)
  | some (pattern, rest) =>
    if atom.isAnchor || (rest.head?.map isMark).getD false then none else some (pattern, rest)

mutual
/-- Alternatives, up to a closing parenthesis or the end. -/
def alternatives? : Nat → Text → Option (Pattern × Text)
  | 0, _ => none
  | fuel + 1, s => do
    let (first, s) ← sequence? fuel s
    match s with
    | '|' :: s =>
      let (second, s) ← alternatives? fuel s
      some (.alt first second, s)
    | s => some (first, s)

/-- Atoms one after the other. -/
def sequence? : Nat → Text → Option (Pattern × Text)
  | 0, _ => none
  | fuel + 1, s =>
    match s with
    | [] => some (.empty, s)
    | '|' :: _ => some (.empty, s)
    | ')' :: _ => some (.empty, s)
    | _ => do
      let (atom, s) ← atom? fuel s
      let (first, s) ← repeated? atom s
      let (second, s) ← sequence? fuel s
      some (.seq first second, s)

/-- A single character, a class, an anchor or a group. -/
def atom? : Nat → Text → Option (Pattern × Text)
  | 0, _ => none
  | fuel + 1, s =>
    match s with
    | [] => none
    | '^' :: s => some (.start, s)
    | '$' :: s => some (.stop, s)
    | '.' :: s => some (.char (· != '\n'), s)
    | '[' :: s => (class? s).map fun (accepts, s) => (.char accepts, s)
    | ['\\'] => none
    | '\\' :: c :: s => (escape? c).map fun accepts => (.char accepts, s)
    | '(' :: s => do
      let s := (Text.after? ['?', ':'] s).getD s
      let (inner, s) ← alternatives? fuel s
      let s ← Text.after? [')'] s
      some (inner, s)
    | c :: s => if isMark c then none else some (.char (· == c), s)
end

/-- The pattern that a notation stands for; none where it uses what is not known here. -/
def parse? (written : Text) : Option Pattern := do
  let (pattern, rest) ← alternatives? (3 * written.length + 3) written
  if rest.isEmpty then some pattern else none

end Pattern

end DocAnnotator
