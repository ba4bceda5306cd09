namespace Greybox.Toml

/-- A scanner: given the text, a result and what is left of the text. -/
abbrev Scanner := StateT (List Char) Option

namespace Scanner

def isBlank (c : Char) : Bool := c = ' ' || c = '\t'

def isPlain (c : Char) : Bool := c = '\t' || (0x20 ≤ c.toNat && c.toNat ≠ 0x7f)

def isBareKey (c : Char) : Bool := c.isAlphanum || c = '-' || c = '_'

def isHexDigit (c : Char) : Bool :=
  c.isDigit || ('a' ≤ c && c ≤ 'f') || ('A' ≤ c && c ≤ 'F')

def digitValue (c : Char) : Nat :=
  if c.isDigit then c.toNat - '0'.toNat
  else if 'a' ≤ c then c.toNat - 'a'.toNat + 10
  else c.toNat - 'A'.toNat + 10

def number (base : Nat) (digits : List Char) : Nat :=
  digits.foldl (fun n c => n * base + digitValue c) 0

def peek? : Scanner (Option Char) := do return (← get).head?

def next : Scanner Char := do
  match ← get with
  | [] => failure
  | c :: rest => set rest; return c

def takeWhile (p : Char → Bool) : Scanner (List Char) := do
  let text ← get
  set (text.dropWhile p)
  return text.takeWhile p

def skip? (expected : List Char) : Scanner Bool := do
  let text ← get
  if expected.isPrefixOf text then
    set (text.drop expected.length)
    return true
  else return false

def expect (expected : List Char) : Scanner Unit := do
  if ← skip? expected then return () else failure

def skipBlanks : Scanner Unit := do
  let _ ← takeWhile isBlank

def newline? : Scanner Bool := do
  if ← skip? ['\n'] then return true else skip? ['\r', '\n']

def comment? : Scanner Bool := do
  if ← skip? ['#'] then
    let _ ← takeWhile isPlain
    return true
  else return false

def endOfLine : Scanner Unit := do
  if (← get).isEmpty then return ()
  else if ← newline? then return ()
  else failure

def lineTail : Scanner Unit := do
  skipBlanks
  let _ ← comment?
  endOfLine

def skipLines : (fuel : Nat) → Scanner Unit
  | 0 => failure
  | fuel + 1 => do
    skipBlanks
    let commented ← comment?
    if ← newline? then skipLines fuel
    else if commented then failure
    else return ()

/-- The number of characters left, as a bound for repeated scanning. -/
def bound : Scanner Nat := do return (← get).length + 1

end Scanner

end Greybox.Toml
