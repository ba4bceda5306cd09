import Greybox.Coverage
import Greybox.Input.Generated
import Greybox.Input.Seed

namespace Greybox

inductive Stream where
  | generated (input : GeneratedInput)
  | seed (input : SeedInput)

namespace Stream

def next : Stream → Nat → Answer × Stream
  | generated input, index => let (answer, input) := input.next index; (answer, generated input)
  | seed input, index => let (answer, input) := input.next index; (answer, seed input)

def trim : Stream → Except InputError Unit × Stream
  | generated input => let (result, input) := input.trim; (result, generated input)
  | seed input => let (result, input) := input.trim; (result, seed input)

def bytes : Stream → Bytes
  | generated input => input.bytes
  | seed input => input.bytes

def requested : Stream → Nat
  | generated input => input.requested
  | seed input => input.requested

def remaining : Stream → Nat
  | generated input => input.limits.maxInputSize - input.requested
  | seed input => (input.source.map (·.upcoming.length)).getD 0

end Stream

structure Pulled where
  bytes : Bytes
  /-- `none` when all bytes were delivered, else the answer that was no byte. -/
  stop : Option Answer
  stream : Stream

/-- Pulls `count` bytes from position `index` on, in addition to those already got. -/
def Stream.pull (stream : Stream) (index : Nat) (got : Bytes) : (count : Nat) → Pulled
  | 0 => ⟨got, none, stream⟩
  | count + 1 =>
    match stream.next index with
    | (.byte value, stream) => stream.pull (index + 1) (got.push value) count
    | (stop, stream) => ⟨got, some stop, stream⟩

/-- A candidate input. The fields that only a saved input has stay absent until it is saved. -/
structure Input where
  stream : Stream
  description : String
  coverage : Option Coverage := none
  valid : Bool := true
  favored : Bool := false
  responsibilities : Option PointSet := none
  id : Option Nat := none
  savePath : Option String := none
  nonZeroCoverage : Option Nat := none
  offspring : Nat := 0
  parent : Option Nat := none

namespace Input

def ofGenerated (input : GeneratedInput) (description : String) : Input :=
  { stream := .generated input, description }

def fresh (limits : Limits) (seed : UInt64) : Input := ofGenerated (.fresh limits seed) "random"

def ofSeed (seed : SeedInput) : Input := { stream := .seed seed, description := "seed" }

def isSeed (input : Input) : Bool :=
  match input.stream with
  | .generated _ => false
  | .seed _ => true

def bytes (input : Input) : Bytes := input.stream.bytes

def size (input : Input) : Nat := input.bytes.size

def isEmpty (input : Input) : Bool := input.bytes.isEmpty

def requested (input : Input) : Nat := input.stream.requested

def responsibilityCount (input : Input) : Nat := (input.responsibilities.map (·.size)).getD 0

def next (input : Input) (index : Nat) : Answer × Input :=
  let (answer, stream) := input.stream.next index
  (answer, { input with stream })

def trim (input : Input) : Except InputError Unit × Input :=
  let (result, stream) := input.stream.trim
  (result, { input with stream })

def release (input : Input) (point : Nat) : Input :=
  { input with responsibilities := input.responsibilities.map (·.erase point) }

end Input

end Greybox
