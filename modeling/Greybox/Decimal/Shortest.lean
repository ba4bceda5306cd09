import Greybox.Decimal.Basic

namespace Greybox.Decimal

structure Fraction where
  num : Nat
  den : Nat

def Fraction.ofBinary (scale : Nat) (exponent : Int) : Fraction :=
  ⟨scale <<< exponent.toNat, 1 <<< (-exponent).toNat⟩

def Fraction.ofDecimal (scale : Nat) (exponent : Int) : Fraction :=
  ⟨scale * Nat.pow 10 exponent.toNat, Nat.pow 10 (-exponent).toNat⟩

def Fraction.lt (a b : Fraction) : Bool := a.num * b.den < b.num * a.den

def Fraction.leadingExponent (x : Fraction) : Int :=
  if x.den ≤ x.num then (digits (x.num / x.den)).length - 1
  else -(digits ((x.den - 1) / x.num)).length

structure Interval where
  low : Fraction
  value : Fraction
  high : Fraction
  closed : Bool

/-- The interval of `mantissa * 2 ^ exponent`. Below a power of two the next double is nearer,
unless the exponent is the least one. -/
def Interval.ofBinary (mantissa : Nat) (exponent : Int) : Interval :=
  let below := if mantissa = 1 <<< 52 ∧ -1074 < exponent then 1 else 2
  { low := .ofBinary (4 * mantissa - below) (exponent - 2)
    value := .ofBinary mantissa exponent
    high := .ofBinary (4 * mantissa + 2) (exponent - 2)
    closed := mantissa % 2 = 0 }

def Interval.contains (i : Interval) (x : Fraction) : Bool :=
  if i.closed then !x.lt i.low && !i.high.lt x else i.low.lt x && x.lt i.high

structure Number where
  digits : Nat
  exponent : Int
  deriving DecidableEq

def Number.toFraction (d : Number) : Fraction := .ofDecimal d.digits d.exponent

/-- The neighbour of the value on the grid of multiples of `10 ^ exponent` that lies in the
interval, and the nearer one if both do; equally near ones go up. -/
def Interval.onGrid (i : Interval) (exponent : Int) : Option Number :=
  let unit := Fraction.ofDecimal 1 exponent
  let floor := i.value.num * unit.den / (i.value.den * unit.num)
  let down : Number := ⟨floor, exponent⟩
  let up : Number := ⟨floor + 1, exponent⟩
  let middle : Fraction := ⟨(2 * floor + 1) * unit.num, 2 * unit.den⟩
  match i.contains down.toFraction, i.contains up.toFraction with
  | true, true => some (if i.value.lt middle then down else up)
  | true, false => some down
  | false, true => some up
  | false, false => none

/-- The first hit with the given number of digits or more; seventeen always suffice. -/
def Interval.search (i : Interval) (leading : Int) (count : Nat) : (left : Nat) → Number
  | 0 => (i.onGrid (leading - 16)).getD ⟨0, 0⟩
  | left + 1 => (i.onGrid (leading - count + 1)).getD (i.search leading (count + 1) left)

/-- The shortest decimal that rounds to `mantissa * 2 ^ exponent`. The number of digits grows until
one of the two neighbours of the exact value on their grid lies in the interval. -/
def shortestDecimal (mantissa : Nat) (exponent : Int) : Number :=
  if mantissa = 0 then ⟨0, 0⟩
  else
    let i := Interval.ofBinary mantissa exponent
    i.search i.value.leadingExponent 1 17

def Number.normalized (d : Number) : Number :=
  let zeroes := ((Nat.toDigits 10 d.digits).reverse.takeWhile (· = '0')).length
  if d.digits = 0 then ⟨0, 0⟩ else ⟨d.digits / Nat.pow 10 zeroes, d.exponent + zeroes⟩

def Number.text (d : Number) : String :=
  let d := d.normalized
  pointed (d.digits * Nat.pow 10 d.exponent.toNat) (-d.exponent).toNat

def shortest (x : Float) : String :=
  match decode x with
  | .notANumber => "NaN"
  | .infinite negative => signed negative "inf"
  | .finite negative mantissa exponent =>
    signed negative (shortestDecimal mantissa exponent).text

end Greybox.Decimal
