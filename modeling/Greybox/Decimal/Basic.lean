namespace Greybox.Decimal

/-- A double taken apart: a finite one is `mantissa * 2 ^ exponent` with a sign. -/
inductive Decoded where
  | notANumber
  | infinite (negative : Bool)
  | finite (negative : Bool) (mantissa : Nat) (exponent : Int)
  deriving DecidableEq

def decode (x : Float) : Decoded :=
  if x.isNaN then .notANumber
  else
    let bits := x.toBits.toNat
    let negative := decide (1 <<< 63 ≤ bits)
    let exponent : Nat := (bits >>> 52) % 2048
    let fraction : Nat := bits % (1 <<< 52)
    if exponent = 2047 then .infinite negative
    else if exponent = 0 then .finite negative fraction (-1074)
    else .finite negative ((1 <<< 52) + fraction) (exponent - 1075)

/-- The whole number nearest to a fraction; of two that are equally near, the even one. -/
def roundDiv (num den : Nat) : Nat :=
  let q := num / den
  let r := num % den
  if 2 * r < den then q
  else if den < 2 * r then q + 1
  else q + q % 2

def digits (n : Nat) : List Char := Nat.toDigits 10 n

def padded (width n : Nat) : String :=
  let digits := Nat.toDigits 10 n
  .ofList (List.replicate (width - digits.length) '0' ++ digits)

def pointed (units places : Nat) : String :=
  if places = 0 then .ofList (digits units)
  else
    let shown := digits (units % Nat.pow 10 places)
    .ofList (digits (units / Nat.pow 10 places)
      ++ '.' :: (List.replicate (places - shown.length) '0' ++ shown))

def signed (negative : Bool) (text : String) : String := if negative then "-" ++ text else text

def places (count : Nat) (x : Float) : String :=
  match decode x with
  | .notANumber => "NaN"
  | .infinite negative => signed negative "inf"
  | .finite negative mantissa exponent =>
    signed negative (pointed
      (roundDiv ((mantissa * Nat.pow 10 count) <<< exponent.toNat) (1 <<< (-exponent).toNat)) count)

end Greybox.Decimal
