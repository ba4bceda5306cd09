import Greybox.ByteSource
import Greybox.Text.Quoted

namespace Greybox

structure SeedInput where
  origin : String
  bytes : Bytes
  requested : Nat
  source : Option ByteSource
  exhausted : Bool
  /-- Every byte in the buffer was handed out. -/
  requested_eq : requested = bytes.size
  deriving DecidableEq

namespace SeedInput

def ofSource (origin : String) (source : ByteSource) : SeedInput :=
  ⟨origin, #[], 0, some source, false, rfl⟩

def isOpen (seed : SeedInput) : Bool := seed.source.isSome

def read (seed : SeedInput) : Except String (Option UInt8) × SeedInput :=
  match seed.source with
  | none => (.ok none, seed)
  | some source =>
    let (reading, source) := source.take
    (reading, { seed with source := some source })

/-- The byte at `index`. The source is read before the index is looked at, and never again after it
has answered that it ended. -/
def next (seed : SeedInput) (index : Nat) : Answer × SeedInput :=
  if seed.exhausted then (.ended, seed)
  else match seed.read with
    | (.error reason, seed) => (.failed (.unreadable reason), seed)
    | (.ok none, seed) => (.ended, { seed with exhausted := true })
    | (.ok (some value), seed) =>
      if index = seed.bytes.size then
        (.byte value, { seed with
          bytes := seed.bytes.push value
          requested := seed.requested + 1
          requested_eq := by rw [Array.size_push, seed.requested_eq] })
      else (.failed (.outOfOrder seed.bytes.size index), seed)

def trim (seed : SeedInput) : Except InputError Unit × SeedInput :=
  let bytes := seed.bytes.take seed.requested
  (if bytes.isEmpty then .error .emptyAfterTrim else .ok (),
    { seed with
      bytes
      source := none
      exhausted := true
      requested_eq := by simp [bytes, seed.requested_eq] })

def summary (seed : SeedInput) : String :=
  s!"SeedInput \x7b origin: {Text.quotedPath seed.origin}, len: {seed.bytes.size}, "
    ++ s!"requested: {seed.requested}, open: {seed.isOpen} \x7d"

end SeedInput

end Greybox
