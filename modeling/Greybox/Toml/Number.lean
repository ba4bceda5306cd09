import Greybox.Toml.Scanner

namespace Greybox.Toml.Number

open Scanner

def moreDigits (p : Char → Bool) : (fuel : Nat) → Scanner (List Char)
  | 0 => failure
  | fuel + 1 => do
    match ← peek? with
    | some '_' =>
      let _ ← next
      let c ← next
      if p c then return c :: (← moreDigits p fuel) else failure
    | some c =>
      if p c then
        let _ ← next
        return c :: (← moreDigits p fuel)
      else return []
    | none => return []

def digits (p : Char → Bool) : Scanner (List Char) := do
  let c ← next
  if p c then return c :: (← moreDigits p (← bound)) else failure

def sign? : Scanner (Option Bool) := do
  if ← skip? ['+'] then return some false
  else if ← skip? ['-'] then return some true
  else return none

def decimal : Scanner (List Char) := do
  if ← skip? ['0'] then return ['0'] else digits Char.isDigit

def toInteger (negative : Bool) (n : Nat) : Option Int :=
  if negative then if n ≤ 1 <<< 63 then some (-n) else none
  else if n < 1 <<< 63 then some n else none

def exponent? : Scanner (Option Int) := do
  match ← peek? with
  | some 'e' | some 'E' =>
    let _ ← next
    let negative ← sign?
    let n := number 10 (← digits Char.isDigit)
    return some (if negative = some true then -n else n)
  | _ => return none

/-- The double nearest to `n * 10 ^ exponent`. Numbers far outside the range of doubles are decided
without computing the power. -/
def nearest (n : Nat) (exponent : Int) : Float :=
  let size : Int := (Nat.toDigits 10 n).length + exponent
  if n = 0 || size < -400 then 0
  else if 400 < size then 1 / 0
  else if exponent < 0 then .ofScientific n true (-exponent).toNat
  else .ofScientific n false exponent.toNat

inductive Decimal where
  | integer (value : Int)
  | float (value : Float)

def decimalNumber : Scanner Decimal := do
  let negative := (← sign?) = some true
  let whole ← decimal
  let fraction ← do
    if ← skip? ['.'] then pure (some (← digits Char.isDigit)) else pure none
  let exponent ← exponent?
  if fraction.isNone && exponent.isNone then
    match toInteger negative (number 10 whole) with
    | some value => return .integer value
    | none => failure
  else
    let fraction := fraction.getD []
    let magnitude := nearest (number 10 (whole ++ fraction)) (exponent.getD 0 - fraction.length)
    if negative then return .float (-magnitude)
    else if magnitude.isInf then failure
    else return .float magnitude

def named? : Scanner (Option Float) := do
  let text ← get
  let negative := (← sign?) = some true
  let signed (x : Float) : Float := if negative then -x else x
  if ← skip? ['i', 'n', 'f'] then return some (signed (1 / 0))
  else if ← skip? ['n', 'a', 'n'] then return some (signed (0 / 0))
  else
    set text
    return none

def based? : Scanner (Option Int) := do
  let read (base : Nat) (p : Char → Bool) : Scanner (Option Int) := do
    match toInteger false (number base (← digits p)) with
    | some value => return some value
    | none => failure
  if ← skip? ['0', 'x'] then read 16 isHexDigit
  else if ← skip? ['0', 'o'] then read 8 fun c => '0' ≤ c && c ≤ '7'
  else if ← skip? ['0', 'b'] then read 2 fun c => c = '0' || c = '1'
  else return none

end Greybox.Toml.Number
