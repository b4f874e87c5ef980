import DocAnnotator.Text.Basic

/-! ## UTF-8

    - `encode`: the bytes of a text.
    - `decode`: the text of well-formed bytes, or the first fault in them.
    - `decodeLossy`: the text of any bytes, with U+FFFD for each maximal ill-formed part.

    Both decoders read one character or one fault at a time by `step`.
-/

namespace DocAnnotator.Utf8

/-- The bytes of a text. -/
def encode (s : Text) : Bytes := s.flatMap String.utf8EncodeChar

/-- Why a sequence of bytes is not UTF-8. -/
inductive Fault where
  /-- The byte cannot begin a character. -/
  | start
  /-- A byte that should continue a character does not. -/
  | continuation
  /-- The bytes end inside a character. -/
  | truncated
  deriving DecidableEq

/-- What a lead byte asks for: the bits it carries, the number of bytes that must follow, and
    the bounds of the first of them. The bounds exclude overlong forms, surrogates and
    everything above U+10FFFF. -/
structure Lead where
  bits : Nat
  follow : Nat
  low : Nat
  high : Nat

/-- The lead byte `b`, if it is the lead of a character of two to four bytes. -/
def lead? (b : Nat) : Option Lead :=
  if 0xC2 ≤ b && b ≤ 0xDF then some ⟨b - 0xC0, 1, 0x80, 0xBF⟩
  else if b == 0xE0 then some ⟨0, 2, 0xA0, 0xBF⟩
  else if b == 0xED then some ⟨0xD, 2, 0x80, 0x9F⟩
  else if 0xE1 ≤ b && b ≤ 0xEF then some ⟨b - 0xE0, 2, 0x80, 0xBF⟩
  else if b == 0xF0 then some ⟨0, 3, 0x90, 0xBF⟩
  else if 0xF1 ≤ b && b ≤ 0xF3 then some ⟨b - 0xF0, 3, 0x80, 0xBF⟩
  else if b == 0xF4 then some ⟨4, 3, 0x80, 0x8F⟩
  else none

/-- The outcome of reading at one position: a character or a fault, and the number of bytes that
    belong to it beyond the first. -/
structure Step where
  outcome : Except Fault Char
  extra : Nat

/-- Reads `count` further bytes of a character onto `bits`; the next one must lie between `low`
    and `high`, those after it are plain continuation bytes. `used` have been read. -/
def follow (bits low high used : Nat) : Nat → Bytes → Step
  | 0, _ => ⟨.ok (Char.ofNat bits), used⟩
  | _ + 1, [] => ⟨.error .truncated, used⟩
  | count + 1, b :: rest =>
    if low ≤ b.toNat && b.toNat ≤ high then
      follow (bits * 64 + (b.toNat - 0x80)) 0x80 0xBF (used + 1) count rest
    else ⟨.error .continuation, used⟩

/-- Reads at the byte `b`, with `rest` after it. -/
def step (b : UInt8) (rest : Bytes) : Step :=
  if b.toNat < 0x80 then ⟨.ok (Char.ofNat b.toNat), 0⟩
  else match lead? b.toNat with
    | none => ⟨.error .start, 0⟩
    | some l => follow l.bits l.low l.high 0 l.follow rest

/-- An ill-formed part of a byte string: its position, its length, its first byte and its fault. -/
structure Malformed where
  position : Nat
  length : Nat
  byte : Nat
  fault : Fault
  deriving DecidableEq

/-- Decodes bytes that stand at `position`, up to the first fault. -/
def decodeFrom (position : Nat) : Bytes → Except Malformed Text
  | [] => .ok []
  | b :: rest =>
    let s := step b rest
    match s.outcome with
    | .error fault => .error ⟨position, s.extra + 1, b.toNat, fault⟩
    | .ok c => (decodeFrom (position + s.extra + 1) (rest.drop s.extra)).map (c :: ·)
  termination_by bytes => bytes.length
  decreasing_by simp only [List.length_drop, List.length_cons]; omega

/-- The text of well-formed bytes, or the first fault. -/
def decode (bytes : Bytes) : Except Malformed Text := decodeFrom 0 bytes

/-- The text of any bytes: each maximal ill-formed part becomes one U+FFFD. -/
def decodeLossy : Bytes → Text
  | [] => []
  | b :: rest =>
    let s := step b rest
    let c := match s.outcome with
      | .error _ => Char.ofNat 0xFFFD
      | .ok c => c
    c :: decodeLossy (rest.drop s.extra)
  termination_by bytes => bytes.length
  decreasing_by simp only [List.length_drop, List.length_cons]; omega

/-- The text of the bytes from `start` up to `stop`; a span that leaves the bytes is cut at
    their end. -/
def textOf (source : Bytes) (start stop : Nat) : Text :=
  decodeLossy ((source.take stop).drop start)

end DocAnnotator.Utf8
