import DocAnnotator.Text.Basic
import DocAnnotator.Text.CaseTable
import DocAnnotator.Text.LowerTable
import DocAnnotator.Text.UnprintableTable
import DocAnnotator.Text.WordTable

/-! ## Word characters and letter case

    - `isWord`, `isDecimal`: letters, numeric characters and the underscore, and digits.
    - `sameLetter`: does a character match an ASCII letter when case is ignored?
    - `lower`: the small-letter form of a text.
    - `isPrintable`: does a character have a printed form?
-/

namespace DocAnnotator.Text

/-- Is `n` in one of the closed ranges? -/
def inRanges (ranges : List (Nat × Nat)) (n : Nat) : Bool :=
  ranges.any fun r => r.1 ≤ n && n ≤ r.2

/-- Letters, characters with a numeric value, and the underscore. Combining marks are not word
    characters. -/
def isWord (c : Char) : Bool :=
  if c.toNat < 0x80 then c.isAlphanum || c == '_' else inRanges wordRanges c.toNat

/-- Decimal digits of any script. -/
def isDecimal (c : Char) : Bool :=
  if c.toNat < 0x80 then c.isDigit else inRanges digitRanges c.toNat

/-- The small letter of an ASCII capital; any other character stays. -/
def lowerAscii (c : Char) : Char :=
  if 'A' ≤ c ∧ c ≤ 'Z' then Char.ofNat (c.toNat + 0x20) else c

/-- Does `c` match the small ASCII letter (or other ASCII character) `letter` when case is
    ignored? By simple case folding the long s matches `s`, and the dotted capital I and the
    dotless i match `i`. -/
def sameLetter (letter c : Char) : Bool :=
  lowerAscii c == letter || (letter == 's' && c.toNat == 0x17F) ||
    (letter == 'i' && (c.toNat == 0x130 || c.toNat == 0x131))

/-- What follows `word` in `s` when case is ignored; `word` is written in small letters. -/
def afterFolded? (word s : Text) : Option Text :=
  match word, s with
  | [], s => some s
  | letter :: word, c :: s => if sameLetter letter c then afterFolded? word s else none
  | _ :: _, [] => none

/-- The small-letter form of one character. Only the dotted capital I has two. -/
def lowerChar (c : Char) : Text :=
  let n := c.toNat
  if n < 0x80 then [lowerAscii c]
  else if n = 0x130 then ['i', Char.ofNat 0x307]
  else match capitalRuns.find? fun r => r.first ≤ n && n ≤ r.last && (n - r.first) % r.step == 0 with
    | some r => [Char.ofNat (n + r.shift).toNat]
    | none => [c]

/-- The capital sigma. -/
def capitalSigma : Char := Char.ofNat 0x3A3

/-- Is the first letter of a text one with a case, after what is passed over? -/
def startsCased (s : Text) : Bool :=
  match s.dropWhile fun c => inRanges passedOverRanges c.toNat with
  | c :: _ => inRanges casedRanges c.toNat
  | [] => false

/-- The small form of a capital sigma: a final one behind a letter with a case, if no such letter
    follows it. What stands before it is given in reverse. -/
def lowerSigma (before after : Text) : Char :=
  if startsCased before && !startsCased after then Char.ofNat 0x3C2 else Char.ofNat 0x3C3

/-- The small-letter form of a text that stands behind `before`, which is given in reverse. -/
def lowerFrom (before : Text) : Text → Text
  | [] => []
  | c :: s => (if c = capitalSigma then [lowerSigma before s] else lowerChar c) ++
      lowerFrom (c :: before) s

/-- The small-letter form of a text. -/
def lower (s : Text) : Text := lowerFrom [] s

/-- Does the character have a printed form of its own? -/
def isPrintable (c : Char) : Bool :=
  let n := c.toNat
  if n < 0x80 then 0x20 ≤ n && n < 0x7F else !inRanges unprintableRanges n

end DocAnnotator.Text
