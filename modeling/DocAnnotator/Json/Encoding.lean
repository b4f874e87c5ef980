import DocAnnotator.Json.Read
import DocAnnotator.Text.Utf8

/-! ## The encoding of JSON bytes

    A JSON text starts with ASCII characters, so that the zero bytes among its first four bytes tell
    how it is encoded; a byte order mark tells it too, and is no part of the text. In every encoding
    half of a surrogate pair may stand alone.

    - `Encoding.detect`: the encoding of some bytes, and the bytes without a mark.
    - `readBytes?`: the value that some bytes denote.
-/

namespace DocAnnotator.Json

/-- The encodings that a JSON text can have. -/
inductive Encoding where
  | utf8
  | utf16 (bigEndian : Bool)
  | utf32 (bigEndian : Bool)
  deriving DecidableEq

namespace Encoding

/-- The encoding by the places of zero bytes at the start. -/
def byZeros : Bytes → Encoding
  | a :: b :: c :: d :: _ =>
    if a = 0 then (if b = 0 then .utf32 true else .utf16 true)
    else if b = 0 then (if c = 0 && d = 0 then .utf32 false else .utf16 false)
    else .utf8
  | [a, b] => if a = 0 then .utf16 true else if b = 0 then .utf16 false else .utf8
  | _ => .utf8

/-- The encoding, and the bytes after the byte order mark if there is one. -/
def detect : Bytes → Encoding × Bytes
  | 0x00 :: 0x00 :: 0xFE :: 0xFF :: rest => (.utf32 true, rest)
  | 0xFF :: 0xFE :: 0x00 :: 0x00 :: rest => (.utf32 false, rest)
  | 0xFE :: 0xFF :: rest => (.utf16 true, rest)
  | 0xFF :: 0xFE :: rest => (.utf16 false, rest)
  | 0xEF :: 0xBB :: 0xBF :: rest => (.utf8, rest)
  | bytes => (byZeros bytes, bytes)

/-- The number that some bytes make, the most significant one first. -/
def bigEndianValue (bytes : Bytes) : Nat := bytes.foldl (fun n b => n * 256 + b.toNat) 0

/-- The number that some bytes make in an order of bytes. -/
def value (bigEndian : Bool) (bytes : Bytes) : Nat :=
  bigEndianValue (if bigEndian then bytes else bytes.reverse)

/-- The units of two bytes; none where a byte is left over. -/
def units16? (bigEndian : Bool) : Bytes → Option (List Nat)
  | [] => some []
  | a :: b :: rest => (units16? bigEndian rest).map (value bigEndian [a, b] :: ·)
  | _ => none

/-- The units of four bytes; none where bytes are left over. -/
def units32? (bigEndian : Bool) : Bytes → Option (List Nat)
  | [] => some []
  | a :: b :: c :: d :: rest => (units32? bigEndian rest).map (value bigEndian [a, b, c, d] :: ·)
  | _ => none

/-- Is a unit half of a surrogate pair? -/
def isHalf (unit : Nat) : Bool := 0xD800 ≤ unit && unit ≤ 0xDFFF

/-- The code point of a unit. -/
def unitPoint (unit : Nat) : Point := if isHalf unit then .half else .char (Char.ofNat unit)

/-- The code points of units of two bytes. -/
def ofUnits16 : List Nat → Points
  | [] => []
  | [unit] => [unitPoint unit]
  | high :: low :: rest =>
    if 0xD800 ≤ high && high < 0xDC00 && 0xDC00 ≤ low && low ≤ 0xDFFF then
      .char (Char.ofNat (0x10000 + (high - 0xD800) * 0x400 + (low - 0xDC00))) :: ofUnits16 rest
    else unitPoint high :: ofUnits16 (low :: rest)

/-- What follows the three bytes of a half of a surrogate pair, written as if it were a
    character. -/
def afterHalf? : Bytes → Option Bytes
  | a :: b :: c :: rest =>
    if a = 0xED && 0xA0 ≤ b && b ≤ 0xBF && 0x80 ≤ c && c ≤ 0xBF then some rest else none
  | _ => none

theorem length_afterHalf? {bytes rest : Bytes} (h : afterHalf? bytes = some rest) :
    rest.length < bytes.length := by
  unfold afterHalf? at h
  split at h
  next a b c rest' =>
    split at h
    · obtain rfl := Option.some.inj h
      simp only [List.length_cons]
      omega
    · cases h
  next => cases h

/-- The code points of UTF-8 bytes, where a half of a surrogate pair may stand too. -/
def ofUtf8? (bytes : Bytes) : Option Points :=
  match _h : afterHalf? bytes with
  | some rest => (ofUtf8? rest).map (.half :: ·)
  | none =>
    match bytes with
    | [] => some []
    | b :: rest =>
      let s := Utf8.step b rest
      match s.outcome with
      | .error _ => none
      | .ok c => (ofUtf8? (rest.drop s.extra)).map (.char c :: ·)
  termination_by bytes.length
  decreasing_by
  · exact length_afterHalf? _h
  · simp only [List.length_drop, List.length_cons]
    omega

/-- The code points of bytes in an encoding. -/
def decode? (bytes : Bytes) : Encoding → Option Points
  | .utf8 => ofUtf8? bytes
  | .utf16 bigEndian => (units16? bigEndian bytes).map ofUnits16
  | .utf32 bigEndian => (units32? bigEndian bytes).bind fun units =>
    if units.all (· ≤ 0x10FFFF) then some (units.map unitPoint) else none

end Encoding

/-- The value that some bytes denote. -/
def readBytes? (bytes : Bytes) : Option Json :=
  let (encoding, content) := Encoding.detect bytes
  (encoding.decode? content).bind fun points => (readPoints points).toOption

end DocAnnotator.Json
