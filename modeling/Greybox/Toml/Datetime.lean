import Greybox.Toml.Scanner

namespace Greybox.Toml.Datetime

open Scanner

def field (count low high : Nat) : Scanner Nat := do
  let text ← get
  let digits := text.take count
  let n := number 10 digits
  if digits.length = count && digits.all Char.isDigit && low ≤ n && n ≤ high then
    set (text.drop count)
    return n
  else failure

def isLeapYear (year : Nat) : Bool := year % 4 = 0 && (year % 100 ≠ 0 || year % 400 = 0)

def daysIn (year month : Nat) : Nat :=
  match month with
  | 2 => if isLeapYear year then 29 else 28
  | 4 | 6 | 9 | 11 => 30
  | _ => 31

def date : Scanner Unit := do
  let year ← field 4 0 9999
  expect ['-']
  let month ← field 2 1 12
  expect ['-']
  let _ ← field 2 1 (daysIn year month)

def time : Scanner Unit := do
  let _ ← field 2 0 23
  expect [':']
  let _ ← field 2 0 59
  expect [':']
  let _ ← field 2 0 60
  if ← skip? ['.'] then
    let digits ← takeWhile Char.isDigit
    if digits.isEmpty then failure

def offset? : Scanner Unit := do
  match ← peek? with
  | some 'Z' | some 'z' => let _ ← next
  | some '+' | some '-' =>
    let _ ← next
    let _ ← field 2 0 23
    expect [':']
    let _ ← field 2 0 59
  | _ => return ()

def starts (text : List Char) : Bool :=
  let digits (n : Nat) := (text.take n).length = n && (text.take n).all Char.isDigit
  (digits 4 && text[4]? = some '-') || (digits 2 && text[2]? = some ':')

def value : Scanner String := do
  let text ← get
  if text[2]? = some ':' then time
  else
    date
    let rest ← get
    match rest with
    | mark :: after =>
      let separates := mark = 'T' || mark = 't' ||
        (mark = ' ' && (after.take 2).length = 2 && (after.take 2).all Char.isDigit
          && after[2]? = some ':')
      if separates then
        set after
        time
        offset?
    | [] => pure ()
  return .ofList (text.take (text.length - (← get).length))

end Greybox.Toml.Datetime
