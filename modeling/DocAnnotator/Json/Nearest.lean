import DocAnnotator.Json.Basic

/-! ## The nearest binary fraction of a decimal

    A decimal number stands for the binary fraction with 53 significant bits nearest to it (ties
    to the even neighbour). Very small values round to zero, values from about `1.8 · 10 ^ 308` on
    have no such fraction.
-/

namespace DocAnnotator.Number

/-- The positive value `mantissa · 2 ^ exponent`. -/
structure Binary where
  mantissa : Nat
  exponent : Int
  deriving DecidableEq

/-- The whole part of a binary fraction. -/
def Binary.floor (b : Binary) : Nat :=
  if 0 ≤ b.exponent then b.mantissa * Nat.pow 2 b.exponent.toNat
  else b.mantissa / Nat.pow 2 (-b.exponent).toNat

/-- The quotient of two naturals rounded to the nearest natural, a half to the even one. -/
def roundDiv (num den : Nat) : Nat :=
  let q := num / den
  let twice := 2 * (num % den)
  if twice < den then q else if den < twice then q + 1 else q + q % 2

/-- The greatest `k` with `den · 2 ^ k ≤ num`, for positive `num` and `den`. -/
def log2Quotient (num den : Nat) : Int :=
  let k : Int := (num.log2 : Int) - den.log2
  let fits := if 0 ≤ k then den * Nat.pow 2 k.toNat ≤ num else den ≤ num * Nat.pow 2 (-k).toNat
  if fits then k else k - 1

/-- The binary fraction nearest to `num / den`, with at most 53 bits and an exponent of at least
    `-1074`. -/
def nearest (num den : Nat) : Binary :=
  let e := max (-1074) (log2Quotient num den - 52)
  if 0 ≤ e then ⟨roundDiv num (den * Nat.pow 2 e.toNat), e⟩
  else ⟨roundDiv (num * Nat.pow 2 (-e).toNat) den, e⟩

/-- What a decimal rounds to. -/
inductive Rounded where
  | zero
  | finite (value : Binary)
  | tooLarge

/-- The binary fraction nearest to `mantissa · 10 ^ exponent`. Magnitudes far outside the range are
    told by their number of digits. -/
def roundDecimal (mantissa : Nat) (exponent : Int) : Rounded :=
  let size : Int := (Nat.toDigits 10 mantissa).length + exponent
  if mantissa = 0 || size < -400 then .zero
  else if 400 < size then .tooLarge
  else
    let b := if 0 ≤ exponent then nearest (mantissa * Nat.pow 10 exponent.toNat) 1
      else nearest mantissa (Nat.pow 10 (-exponent).toNat)
    if b.mantissa = 0 then .zero
    else if Nat.pow 2 1024 ≤ b.floor then .tooLarge
    else .finite b

end DocAnnotator.Number
