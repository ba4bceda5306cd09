namespace Greybox

abbrev Bytes := Array UInt8

inductive Reading where
  | byte (value : UInt8)
  | interrupted
  | failed (reason : String)
  | endOfSource
  deriving DecidableEq

/-- What is left of a source: the answers of the coming attempts in order, and the one of all
attempts after these, which either find the end or fail. -/
structure ByteSource where
  upcoming : List Reading
  afterwards : Option String := none
  deriving DecidableEq

namespace ByteSource

def ofBytes (bytes : Bytes) : ByteSource := ⟨bytes.toList.map .byte, none⟩

def failing (reason : String) : ByteSource := ⟨[], some reason⟩

def takeFrom (afterwards : Option String) :
    List Reading → Except String (Option UInt8) × ByteSource
  | [] =>
    (match afterwards with
      | none => .ok none
      | some reason => .error reason, ⟨[], afterwards⟩)
  | .byte value :: rest => (.ok (some value), ⟨rest, afterwards⟩)
  | .interrupted :: rest => takeFrom afterwards rest
  | .failed reason :: rest => (.error reason, ⟨rest, afterwards⟩)
  | .endOfSource :: rest => (.ok none, ⟨rest, afterwards⟩)

/-- The next byte, `none` at the end, or the reason of a failure. Interrupted attempts are
repeated. -/
def take (source : ByteSource) : Except String (Option UInt8) × ByteSource :=
  takeFrom source.afterwards source.upcoming

end ByteSource

inductive InputError where
  | outOfOrder (expected requested : Nat)
  | unreadable (reason : String)
  | emptyAfterTrim
  deriving DecidableEq

namespace InputError

def message : InputError → String
  | outOfOrder expected requested =>
    s!"Bytes from seed out of order: expected index {expected}, got {requested}"
  | unreadable reason => s!"Seed source I/O error: {reason}"
  | emptyAfterTrim => "Input is empty after trimming; nothing was requested from the generator"

end InputError

inductive Answer where
  | byte (value : UInt8)
  | ended
  | failed (error : InputError)
  deriving DecidableEq

end Greybox
