-- Number literals of the generated program, in the one spelling each value has. Whole numbers are
-- decimal digits with an optional sign, within the range of a fixed number of bits; fractions are
-- read as binary numbers of a format.
import ViewBinder.Number.Fraction
import ViewBinder.Text.Utf8

namespace ViewBinder.Number

/-! ## Whole numbers -/

/-- The number a run of decimal digits stands for. -/
def unsigned? (t : Text) : Option Nat :=
  if t.isEmpty || !t.all Text.isDigitByte then none else some (Text.digitsValue t)

/-- A number without sign that fits in the bits. -/
def natural? (bits : Nat) (t : Text) : Option Nat :=
  (unsigned? t).filter (· < Nat.pow 2 bits)

/-- A number with an optional sign that fits in the bits. -/
def integer? (bits : Nat) (t : Text) : Option Int :=
  let negative := Text.startsWith t "-"
  let digits := if negative || Text.startsWith t "+" then t.drop 1 else t
  match unsigned? digits with
  | none => none
  | some n =>
    let value : Int := if negative then -n else n
    let limit : Int := Nat.pow 2 (bits - 1)
    if -limit ≤ value && value < limit then some value else none

/-! ## Fractions -/

/-- The digits of a number without trailing zeros, and the position of the decimal point counted
from the first digit. -/
def pointed (digits : Nat) (exponent : Int) : Text × Int :=
  let all := Text.ofNat digits
  let kept := (all.reverse.dropWhile (· == '0'.toUInt8)).reverse
  (kept, all.length + exponent)

/-- An exponent with its sign and at least two digits. -/
def exponentText (e : Int) : Text :=
  let digits := Text.ofNat e.natAbs
  (if e < 0 then Text.ofString "-" else Text.ofString "+") ++
    Text.onlyIf (digits.length < 2) "0" ++ digits

/-- Digits with an exponent, the point behind the first digit. -/
def scientific (digits : Text) (point : Int) : Text :=
  digits.take 1 ++ Text.onlyIf (1 < digits.length) ("." ++ digits.drop 1) ++ "e" ++
    exponentText (point - 1)

/-- Digits with the point in place. -/
def positional (digits : Text) (point : Int) : Text :=
  if point ≤ 0 then "0." ++ Text.times (-point).toNat "0" ++ digits
  else
    let whole := point.toNat
    digits.take whole ++ Text.times (whole - digits.length) "0" ++
      Text.onlyIf (whole < digits.length) ("." ++ digits.drop whole)

/-- The fewest digits that read back; an exponent is used below a ten-thousandth and from a million
on. -/
def fractionText (f : BinaryFormat) (negative : Bool) (b : Binary) : Text :=
  let sign := Text.onlyIf negative "-"
  if b.significand == 0 then sign ++ "0"
  else
    let (digits, exponent) := f.shortest b
    let (digits, point) := pointed digits exponent
    if point - 1 < -4 || 6 ≤ point - 1 then sign ++ scientific digits point
    else sign ++ positional digits point

/-- The literal of a decimal fraction in a format. -/
def fraction? (f : BinaryFormat) (t : Text) : Option Text := do
  let d ← decimal? t
  let b ← f.ofDecimal? d
  return fractionText f d.negative b

/-! ## Literals -/

/-- The number of bits in a primitive's name; a plain name stands for 64. -/
def bitsOf (name : Text) : Nat :=
  if Text.endsWith name "8" then 8
  else if Text.endsWith name "16" then 16
  else if Text.endsWith name "32" then 32
  else 64

/-- The literal of a value for a numeric primitive, if it has one. -/
def literal? (primitive value : Text) : Option Text :=
  let value := Text.trim value
  if Text.startsWith primitive "float" then
    fraction? (if bitsOf primitive == 32 then single else double) value
  else if Text.startsWith primitive "uint" then (natural? (bitsOf primitive) value).map Text.ofNat
  else (integer? (bitsOf primitive) value).map Text.ofInt

end ViewBinder.Number
