import Std.Data.TreeMap
import Greybox.Storage.Basic

namespace Greybox

namespace CorpusIndex

def escapeChar (c : Char) : String :=
  match c with
  | '"' => "\\\""
  | '\\' => "\\\\"
  | '\x08' => "\\b"
  | '\t' => "\\t"
  | '\n' => "\\n"
  | '\x0c' => "\\f"
  | '\r' => "\\r"
  | c =>
    if c.toNat < 0x20 then
      let digits := Text.hexDigits c.toNat
      "\\u" ++ (if digits.length = 1 then "000" else "00") ++ digits
    else c.toString

def string (text : String) : String :=
  "\"" ++ text.foldl (fun shown c => shown ++ escapeChar c) "" ++ "\""

def number? : Option Nat → String
  | some n => toString n
  | none => "null"

def member (id : Nat) (entry : EntryMetadata) : String :=
  s!"  \"{id}\": \x7b\n    \"description\": {string entry.description},\n"
    ++ s!"    \"reasons\": {string entry.reasons},\n"
    ++ s!"    \"parent\": {number? entry.parent},\n    \"size\": {entry.size}\n  \x7d"

def render (index : Std.TreeMap Nat EntryMetadata) : String :=
  if index.isEmpty then "\x7b\x7d"
  else
    "\x7b\n" ++ ",\n".intercalate (index.toList.map fun (id, entry) => member id entry) ++ "\n\x7d"

end CorpusIndex

namespace CoverageState

def encodeSize (n : Nat) : Bytes := (Array.range 8).map fun i => .ofNat (n >>> (8 * i))

def decodeSize (bytes : Bytes) : Nat := bytes.foldr (fun b n => b.toNat + 256 * n) 0

def encode (map : Coverage) : Bytes := encodeSize map.size ++ map.counters

/-- Reads a map: the number of counters as eight bytes, lowest first, and then the counters. Bytes
beyond these are ignored. -/
def decode (bytes : Bytes) : Except StorageError Coverage :=
  if bytes.size < 8 then .error (.truncatedCoverage (8 - bytes.size))
  else
    let size := decodeSize (bytes.extract 0 8)
    let rest := bytes.size - 8
    if rest < size then .error (.truncatedCoverage (size - rest))
    else .ok ⟨bytes.extract 8 (8 + size)⟩

def load (tree : FileTree) (path : String) : Except StorageError Coverage :=
  match tree.read path with
  | .error cause => .error (.coverageFile path cause)
  | .ok bytes => decode bytes

end CoverageState

end Greybox
