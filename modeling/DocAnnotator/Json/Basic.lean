import DocAnnotator.Text.Raw

/-! ## JSON values

    Objects are lists of fields in the order in which their keys were first written; a reader
    keeps one field per key. Numbers keep the distinction between integers, which are exact, and
    decimal fractions, and include the three that are not finite. Strings are raw texts; a key is
    known by its text alone.
-/

namespace DocAnnotator

/-- A number as written: an integer, `mantissa · 10 ^ exponent`, or one that is not finite. -/
inductive Number where
  | int (n : Int)
  | decimal (mantissa exponent : Int)
  | infinite (negative : Bool)
  | nan
  deriving DecidableEq

/-- A JSON value. -/
inductive Json where
  | null
  | bool (b : Bool)
  | num (n : Number)
  | str (s : RawText)
  | arr (items : List Json)
  | obj (fields : List (Text × Json))

namespace Json

/-- The fields of an object. -/
abbrev Fields := List (Text × Json)

namespace Fields

/-- The value of a key. -/
def get? (key : Text) : Fields → Option Json
  | [] => none
  | (k, v) :: rest => if k = key then some v else get? key rest

/-- Gives a key a value: in place where the key is known, at the end where it is new. -/
def put (key : Text) (value : Json) : Fields → Fields
  | [] => [(key, value)]
  | (k, v) :: rest => if k = key then (k, value) :: rest else (k, v) :: put key value rest

end Fields

/-- The fields of an object; any other value has none. -/
def fields? : Json → Option Fields
  | obj fields => some fields
  | _ => none

/-- The raw text of a string value. -/
def raw? : Json → Option RawText
  | str s => some s
  | _ => none

/-- The text of a string value. -/
def text? (value : Json) : Option Text := value.raw?.map RawText.text

/-- The truth value of a boolean. -/
def bool? : Json → Option Bool
  | bool b => some b
  | _ => none

/-- The value of a field of an object. -/
def field? (key : Text) (value : Json) : Option Json :=
  value.fields?.bind (Fields.get? key)

end Json

end DocAnnotator
