import Greybox.Toml.Scanner

namespace Greybox.Toml.Text

open Scanner

def codePoint (count : Nat) : Scanner Char := do
  let text ← get
  let digits := text.take count
  if digits.length = count && digits.all isHexDigit then
    let code := number 16 digits
    if code.isValidChar then
      set (text.drop count)
      return .ofNat code
    else failure
  else failure

def escaped : Scanner Char := do
  match ← next with
  | 'b' => return '\x08'
  | 't' => return '\t'
  | 'n' => return '\n'
  | 'f' => return '\x0c'
  | 'r' => return '\r'
  | '"' => return '"'
  | '\\' => return '\\'
  | 'u' => codePoint 4
  | 'U' => codePoint 8
  | _ => failure

def basic (read : List Char) : (fuel : Nat) → Scanner String
  | 0 => failure
  | fuel + 1 => do
    match ← next with
    | '"' => return .ofList read.reverse
    | '\\' => basic ((← escaped) :: read) fuel
    | c => if isPlain c then basic (c :: read) fuel else failure

def literal : Scanner String := do
  let text ← takeWhile fun c => isPlain c && c ≠ '\''
  expect ['\'']
  return .ofList text

def skipBreaks : (fuel : Nat) → Scanner Unit
  | 0 => failure
  | fuel + 1 => do
    skipBlanks
    if ← newline? then skipBreaks fuel else return ()

def lineContinuation : Scanner Bool := do
  let text ← get
  skipBlanks
  if ← newline? then
    skipBreaks (← bound)
    return true
  else
    set text
    return false

/-- What comes next in a string in triple quotes of the given kind: a run of quotes that ends it
after up to two quotes of its own, a line break, or a character. -/
def multiline (quote : Char) (escapes : Bool) (read : List Char) : (fuel : Nat) → Scanner String
  | 0 => failure
  | fuel + 1 => do
    let quotes := ((← get).takeWhile (· = quote)).length
    if 3 ≤ quotes then
      let own := min (quotes - 3) 2
      set ((← get).drop (own + 3))
      return .ofList (List.replicate own quote ++ read).reverse
    else if ← newline? then multiline quote escapes ('\n' :: read) fuel
    else
      let c ← next
      if c = '\\' && escapes then
        if ← lineContinuation then multiline quote escapes read fuel
        else multiline quote escapes ((← escaped) :: read) fuel
      else if isPlain c then multiline quote escapes (c :: read) fuel
      else failure

def multilineBody (quote : Char) (escapes : Bool) : Scanner String := do
  let _ ← newline?
  multiline quote escapes [] (← bound)

def string : Scanner String := do
  if ← skip? ['"', '"', '"'] then multilineBody '"' true
  else if ← skip? ['"'] then basic [] (← bound)
  else if ← skip? ['\'', '\'', '\''] then multilineBody '\'' false
  else
    expect ['\'']
    literal

def keyPart : Scanner String := do
  if ← skip? ['"'] then basic [] (← bound)
  else if ← skip? ['\''] then literal
  else
    let word ← takeWhile isBareKey
    if word.isEmpty then failure else return .ofList word

end Greybox.Toml.Text
