-- Fractions. Decimal fractions stand in attribute values and are read exactly. To each belongs the
-- nearest binary fraction of a fixed precision, and to that the shortest decimal fraction it is
-- nearest to. Everything is exact arithmetic on whole numbers.
import ViewBinder.Text.Basic

namespace ViewBinder.Number

/-! ## Decimal fractions -/

/-- The number `±digits · 10^exponent`. -/
structure Decimal where
  negative : Bool
  digits : Nat
  exponent : Int
  deriving DecidableEq, Repr

/-- The exponent after its mark: digits with an optional sign and nothing else. -/
def exponent? (t : Text) : Option Int :=
  let negative := Text.startsWith t "-"
  let digits := if negative || Text.startsWith t "+" then t.drop 1 else t
  if digits.isEmpty || !digits.all Text.isDigitByte then none
  else
    let n : Int := Text.digitsValue digits
    some (if negative then -n else n)

/-- The mark of an exponent. -/
def isExponentMark (b : UInt8) : Bool := b == 'e'.toUInt8 || b == 'E'.toUInt8

/-- Reads a decimal fraction: at least one digit before or after an optional point, then an optional
exponent. -/
def decimal? (t : Text) : Option Decimal :=
  let negative := Text.startsWith t "-"
  let body := if negative || Text.startsWith t "+" then t.drop 1 else t
  let mantissa := body.takeWhile fun b => !isExponentMark b
  let tail := body.dropWhile fun b => !isExponentMark b
  let whole := mantissa.takeWhile Text.isDigitByte
  let rest := mantissa.dropWhile Text.isDigitByte
  let fraction := rest.drop 1
  if (whole.isEmpty && fraction.isEmpty) || !fraction.all Text.isDigitByte ||
      !(rest.isEmpty || Text.startsWith rest ".") then none
  else
    match tail with
    | [] => some ⟨negative, Text.digitsValue (whole ++ fraction), -fraction.length⟩
    | _ :: tail => (exponent? tail).map fun e =>
      ⟨negative, Text.digitsValue (whole ++ fraction), e - fraction.length⟩

/-! ## Binary fractions -/

/-- A binary format: numbers `m · 2^q` with `m < 2^precision` and `least ≤ q ≤ greatest`. -/
structure BinaryFormat where
  precision : Nat
  least : Int
  greatest : Int

/-- The format of 64 bits. -/
def double : BinaryFormat := ⟨53, -1074, 971⟩

/-- The format of 32 bits. -/
def single : BinaryFormat := ⟨24, -149, 104⟩

/-- The number `significand · 2^exponent`. -/
structure Binary where
  significand : Nat
  exponent : Int
  deriving DecidableEq, Repr

/-- A quotient of whole numbers. -/
structure Ratio where
  num : Nat
  den : Nat

namespace Ratio

/-- `n · base^e`. -/
def scaled (n base : Nat) (e : Int) : Ratio :=
  if 0 ≤ e then ⟨n * Nat.pow base e.toNat, 1⟩ else ⟨n, Nat.pow base (-e).toNat⟩

/-- The first is at most the second. -/
def atMost (a b : Ratio) : Bool := a.num * b.den ≤ b.num * a.den

/-- The first is less than the second. -/
def less (a b : Ratio) : Bool := a.num * b.den < b.num * a.den

/-- The nearest whole number; a half goes to the even one. -/
def round (r : Ratio) : Nat :=
  let q := r.num / r.den
  let rest := r.num % r.den
  if 2 * rest < r.den then q
  else if 2 * rest == r.den then q + q % 2
  else q + 1

/-- The exponent of the greatest power of two that is not above a positive quotient. -/
def log2 (r : Ratio) : Int :=
  let e : Int := (Nat.log2 r.num : Int) - Nat.log2 r.den
  if (scaled 1 2 e).atMost r then e else e - 1

end Ratio

namespace BinaryFormat

/-- The nearest number of the format to a positive quotient; none if it is too large. -/
def nearest? (f : BinaryFormat) (r : Ratio) : Option Binary :=
  let exponent := max f.least (r.log2 - (f.precision - 1))
  let unit := Ratio.scaled 1 2 exponent
  let significand := Ratio.round ⟨r.num * unit.den, r.den * unit.num⟩
  let (significand, exponent) :=
    if significand == Nat.pow 2 f.precision then (Nat.pow 2 (f.precision - 1), exponent + 1)
    else (significand, exponent)
  if f.greatest < exponent then none else some ⟨significand, exponent⟩

/-- How many decimal places a number may have before its value is certainly too large or rounds to
zero. -/
def decimalReach : Int := 400

/-- The nearest number of the format to a decimal fraction without its sign; none if it is too
large. -/
def ofDecimal? (f : BinaryFormat) (d : Decimal) : Option Binary :=
  let size : Int := (Nat.toDigits 10 d.digits).length + d.exponent
  if d.digits == 0 || size < -decimalReach then some ⟨0, f.least⟩
  else if decimalReach < size then none
  else f.nearest? (Ratio.scaled d.digits 10 d.exponent)

/-- The ends of the interval of numbers that round to this one, and whether they belong to it. -/
def interval (f : BinaryFormat) (b : Binary) : Ratio × Ratio × Bool :=
  let high := Ratio.scaled (2 * b.significand + 1) 2 (b.exponent - 1)
  let low :=
    if b.significand == Nat.pow 2 (f.precision - 1) && f.least < b.exponent then
      Ratio.scaled (4 * b.significand - 1) 2 (b.exponent - 2)
    else Ratio.scaled (2 * b.significand - 1) 2 (b.exponent - 1)
  (low, high, b.significand % 2 == 0)

/-- The number nearest to the value among those of the grid `10^k` that round to it; of two equally
near ones the even one. -/
def onGrid? (f : BinaryFormat) (b : Binary) (k : Int) : Option Nat :=
  let (low, high, closed) := f.interval b
  let value := Ratio.scaled b.significand 2 b.exponent
  let unit := Ratio.scaled 1 10 k
  let steps : Ratio := ⟨value.num * unit.den, value.den * unit.num⟩
  let fits (n : Nat) : Bool :=
    let point := Ratio.scaled n 10 k
    if closed then low.atMost point && point.atMost high else low.less point && point.less high
  let below := steps.num / steps.den
  let nearest := steps.round
  let other := if nearest == below then below + 1 else below
  if fits nearest then some nearest else if fits other then some other else none

/-- Goes to finer and finer grids until one holds a number that rounds to the value. -/
def searchGrids (f : BinaryFormat) (b : Binary) : Nat → Int → Nat × Int
  | 0, k => (b.significand, k)
  | fuel + 1, k =>
    match f.onGrid? b k with
    | some n => if n == 0 then searchGrids f b fuel (k - 1) else (n, k)
    | none => searchGrids f b fuel (k - 1)

/-- The fewest decimal digits that read back as the number, with their power of ten. -/
def shortest (f : BinaryFormat) (b : Binary) : Nat × Int :=
  if b.significand == 0 then (0, 0)
  else
    let size : Int := (Ratio.scaled b.significand 2 b.exponent).log2
    f.searchGrids b 40 (Int.fdiv (size * 30103) 100000 + 2)

end BinaryFormat

end ViewBinder.Number
