import DocAnnotator.Text.Basic

/-! ## Raw text

    Text from outside (a configuration, an answer, a variable of the environment) can hold one half
    of a surrogate pair without the other. Such a half is no character: the text can be worked on,
    but it has no UTF-8 form, so it can never be written to a file.

    - `Point`: a code point as it is read, a character or a half.
    - `RawText`: a text with U+FFFD in place of every half, and a mark that tells if there is one.

    No rule about text tells a half from U+FFFD: both are neither blank nor a part of a word, have
    no case and end no line.
-/

namespace DocAnnotator

/-- A code point as it is read. -/
inductive Point where
  | char (c : Char)
  /-- Half of a surrogate pair, without the other half. -/
  | half
  deriving DecidableEq

/-- Code points as they are read. -/
abbrev Points := List Point

namespace Point

/-- The character that stands for a code point in a text. -/
def toChar : Point → Char
  | char c => c
  | half => Char.ofNat 0xFFFD

/-- Is it half of a pair? -/
def isHalf : Point → Bool
  | char _ => false
  | half => true

/-- Is it a decimal digit? -/
def isDigit : Point → Bool
  | char c => c.isDigit
  | half => false

end Point

/-- The code points of a text. -/
def Text.points (s : Text) : Points := s.map .char

/-- A text that may hold halves of surrogate pairs. -/
structure RawText where
  /-- The text, with U+FFFD in place of every half. -/
  text : Text
  /-- Does it hold a half? -/
  torn : Bool := false
  deriving DecidableEq

namespace RawText

/-- A text of characters. -/
def ofText (s : Text) : RawText := ⟨s, false⟩

instance : Coe Text RawText := ⟨ofText⟩

/-- The text with nothing in it. -/
def empty : RawText := ofText []

/-- Is there nothing in it? -/
def isEmpty (s : RawText) : Bool := s.text.isEmpty

/-- The text that some code points make. -/
def ofPoints (points : Points) : RawText := ⟨points.map Point.toChar, points.any Point.isHalf⟩

instance : Append RawText := ⟨fun a b => ⟨a.text ++ b.text, a.torn || b.torn⟩⟩

/-- Texts put together. -/
def join (parts : List RawText) : RawText := ⟨parts.flatMap text, parts.any torn⟩

@[simp] theorem text_ofText (s : Text) : (ofText s).text = s := rfl

@[simp] theorem torn_ofText (s : Text) : (ofText s).torn = false := rfl

@[simp] theorem text_append (a b : RawText) : (a ++ b).text = a.text ++ b.text := rfl

@[simp] theorem torn_append (a b : RawText) : (a ++ b).torn = (a.torn || b.torn) := rfl

@[simp] theorem empty_append (a : RawText) : empty ++ a = a := rfl

theorem join_cons (part : RawText) (parts : List RawText) :
    join (part :: parts) = part ++ join parts := rfl

end RawText

end DocAnnotator
