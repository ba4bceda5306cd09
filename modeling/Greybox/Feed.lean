import Greybox.Input.Basic

namespace Greybox

/-- What a target reads its input through. A feed asks for one position after the other and
remembers the end, so that no target can break the order of pulls. -/
structure Feed where
  input : Input
  index : Nat := 0
  ended : Bool := false

namespace Feed

def start (input : Input) : Feed := { input }

def next (feed : Feed) : Answer × Feed :=
  if feed.ended then (.ended, feed)
  else match feed.input.next feed.index with
    | (.byte value, input) => (.byte value, { feed with input, index := feed.index + 1 })
    | (.ended, input) => (.ended, { feed with input, ended := true })
    | (.failed error, input) => (.failed error, { feed with input })

/-- What one bulk read put into its buffer, and the error that cut it short, if any. The bytes that
came before an error stand in the buffer and have left the feed, but the read does not report
them. -/
structure BulkRead where
  filled : Bytes
  error : Option InputError
  feed : Feed

def fill (feed : Feed) (filled : Bytes) : (room : Nat) → BulkRead
  | 0 => ⟨filled, none, feed⟩
  | room + 1 =>
    match feed.next with
    | (.byte value, feed) => feed.fill (filled.push value) room
    | (.ended, feed) => ⟨filled, none, feed⟩
    | (.failed error, feed) => ⟨filled, some error, feed⟩

def read (feed : Feed) (room : Nat) : BulkRead := feed.fill #[] room

structure BufferRead where
  buffer : Bytes
  count : Nat
  error : Option InputError
  feed : Feed

def write (feed : Feed) (buffer : Bytes) (position : Nat) : (room : Nat) → BufferRead
  | 0 => ⟨buffer, position, none, feed⟩
  | room + 1 =>
    match feed.next with
    | (.byte value, feed) =>
      feed.write (buffer.setIfInBounds position value) (position + 1) room
    | (.ended, feed) => ⟨buffer, position, none, feed⟩
    | (.failed error, feed) => ⟨buffer, position, some error, feed⟩

def readInto (feed : Feed) (buffer : Bytes) : BufferRead := feed.write buffer 0 buffer.size

inductive ReadError where
  | input (error : InputError)
  | tooShort
  deriving DecidableEq

def ReadError.message : ReadError → String
  | input error => error.message
  | tooShort => "failed to fill whole buffer"

def readExact (feed : Feed) (count : Nat) : Except ReadError Bytes × Feed :=
  let got := feed.read count
  (match got.error with
    | some error => .error (.input error)
    | none => if got.filled.size < count then .error .tooShort else .ok got.filled,
    got.feed)

/-- Reads on until a read finds the end, in portions of 32 bytes or as many as there are already.
Each round that is not the last delivers a byte, so `rounds` needs to be no more than the number of
bytes to come. A failing read loses the bytes of its own portion only. -/
def readPortions (feed : Feed) (got : Bytes) : (rounds : Nat) → BulkRead
  | 0 => ⟨got, none, feed⟩
  | rounds + 1 =>
    match feed.read (max 32 got.size) with
    | ⟨_, some error, feed⟩ => ⟨got, some error, feed⟩
    | ⟨portion, none, feed⟩ =>
      if portion.isEmpty then ⟨got, none, feed⟩ else feed.readPortions (got ++ portion) rounds

def readToEnd (feed : Feed) : BulkRead :=
  feed.readPortions #[] (feed.input.stream.remaining + 1)

end Feed

end Greybox
