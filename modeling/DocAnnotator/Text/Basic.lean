/-! ## Text and bytes

    All user-visible text is a list of code points, and all source positions count bytes of its
    UTF-8 form. Both are plain lists, so that every scanner of the library is a recursion over
    its input and the kernel can evaluate it.
-/

namespace DocAnnotator

/-- Text as a list of Unicode code points. -/
abbrev Text := List Char

/-- A byte string. -/
abbrev Bytes := List UInt8

namespace Text

/-- What follows `lead` in `s`, if `s` starts with `lead`. -/
def after? (lead s : Text) : Option Text :=
  match lead, s with
  | [], s => some s
  | c :: lead, d :: s => if c = d then after? lead s else none
  | _ :: _, [] => none

/-- Does `part` occur somewhere in `s`? The empty text occurs everywhere. -/
def occursIn (part : Text) : Text → Bool
  | [] => part.isEmpty
  | c :: s => part.isPrefixOf (c :: s) || occursIn part s

/-- Every character `old` becomes `new`. -/
def replaceChar (old new : Char) (s : Text) : Text :=
  s.map fun c => if c = old then new else c

/-- Decimal digits of a natural number. -/
def ofNat (n : Nat) : Text := Nat.toDigits 10 n

/-- Decimal form of an integer, with a leading minus sign where it is negative. -/
def ofInt : Int → Text
  | .ofNat n => ofNat n
  | .negSucc n => '-' :: ofNat (n + 1)

end Text

end DocAnnotator
