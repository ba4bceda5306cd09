import Greybox.Toml.Datetime
import Greybox.Toml.Number
import Greybox.Toml.Text
import Greybox.Toml.Value

namespace Greybox.Toml

open Scanner

def maxDepth : Nat := 80

def moreKeyParts : (fuel : Nat) → Scanner (List String)
  | 0 => failure
  | fuel + 1 => do
    skipBlanks
    if ← skip? ['.'] then
      skipBlanks
      let part ← Text.keyPart
      return part :: (← moreKeyParts fuel)
    else return []

def key : Scanner (List String × String) := do
  skipBlanks
  let first ← Text.keyPart
  let parts := first :: (← moreKeyParts (← bound))
  if maxDepth ≤ parts.length then failure
  match parts.getLast? with
  | some last => return (parts.dropLast, last)
  | none => failure

def scalar : Scanner Value := do
  match ← peek? with
  | some '"' | some '\'' => return .string (← Text.string)
  | some 't' => expect ['t', 'r', 'u', 'e']; return .boolean true
  | some 'f' => expect ['f', 'a', 'l', 's', 'e']; return .boolean false
  | _ =>
    if Datetime.starts (← get) then return .datetime (← Datetime.value)
    if let some value ← Number.named? then return .float value
    if let some value ← Number.based? then return .integer value
    match ← Number.decimalNumber with
    | .integer value => return .integer value
    | .float value => return .float value

mutual

def value (depth : Nat) : (fuel : Nat) → Scanner Value
  | 0 => failure
  | fuel + 1 => do
    if ← skip? ['['] then
      if maxDepth ≤ depth + 1 then failure
      return .array (← items (depth + 1) fuel)
    else if ← skip? ['\x7b'] then
      if maxDepth ≤ depth + 1 then failure
      skipBlanks
      if ← skip? ['\x7d'] then return .table .inline []
      return .table .inline (← entries (depth + 1) [] fuel)
    else scalar

def items (depth : Nat) : (fuel : Nat) → Scanner (List Value)
  | 0 => failure
  | fuel + 1 => do
    skipLines (← bound)
    if ← skip? [']'] then return []
    let item ← value depth fuel
    skipLines (← bound)
    if ← skip? [','] then return item :: (← items depth fuel)
    expect [']']
    return [item]

def entries (depth : Nat) (read : Entries) : (fuel : Nat) → Scanner Entries
  | 0 => failure
  | fuel + 1 => do
    let (path, name) ← key
    expect ['=']
    skipBlanks
    let item ← value depth fuel
    skipBlanks
    match read.define name item path with
    | none => failure
    | some read =>
      if ← skip? [','] then entries depth read fuel
      else
        expect ['\x7d']
        return read

end

structure Document where
  root : Entries := []
  current : List String := []

namespace Document

def header (document : Document) : Scanner Document := do
  let several ← skip? ['[', '[']
  if !several then expect ['[']
  let (path, name) ← key
  expect (if several then [']', ']'] else [']'])
  lineTail
  let openNamed (entries : Entries) : Option Entries :=
    if several then entries.appendTable name else entries.openTable name
  match document.root.within openNamed path with
  | some root => return { root, current := path ++ [name] }
  | none => failure

def entry (document : Document) : Scanner Document := do
  let (path, name) ← key
  expect ['=']
  skipBlanks
  let item ← value 0 (← bound)
  lineTail
  match document.root.within (·.define name item path) document.current with
  | some root => return { document with root }
  | none => failure

def lines (document : Document) : (fuel : Nat) → Scanner Document
  | 0 => failure
  | fuel + 1 => do
    skipBlanks
    match ← peek? with
    | none => return document
    | some '[' => (← document.header).lines fuel
    | some '#' =>
      let _ ← comment?
      endOfLine
      document.lines fuel
    | some '\n' | some '\r' =>
      if ← newline? then document.lines fuel else failure
    | some _ => (← document.entry).lines fuel

end Document

/-- Reads a document of TOML 1.0 with values nested less than eighty deep; no reason is given when
it is refused. A leading byte order mark is skipped. -/
def parse (text : String) : Option Entries :=
  let chars := match text.toList with
    | '\ufeff' :: rest => rest
    | chars => chars
  ((Document.lines {} (chars.length + 1)).run chars).map (·.1.root)

end Greybox.Toml
