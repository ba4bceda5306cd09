import Greybox.ByteSource
import Greybox.Random.ChaCha

namespace Greybox

structure Limits where
  maxInputSize : Nat := 10240
  /-- Past the buffer the input ends, instead of going on with fresh bytes. -/
  endsWithBuffer : Bool := true
  deriving DecidableEq

instance : Inhabited Limits := ⟨{}⟩

/-- Bytes replayed from a buffer and, past its end, either the end of the input or fresh random
bytes. Every input owns its random stream, so that its fresh bytes do not depend on what else a
session draws. -/
structure GeneratedInput where
  bytes : Bytes
  requested : Nat
  limits : Limits
  random : ChaCha

namespace GeneratedInput

def ofBytes (bytes : Bytes) (limits : Limits) (seed : UInt64) : GeneratedInput :=
  ⟨bytes, 0, limits, .ofSeed seed⟩

def fresh (limits : Limits) (seed : UInt64) : GeneratedInput := ofBytes #[] limits seed

def next (input : GeneratedInput) (index : Nat) : Answer × GeneratedInput :=
  if index ≠ input.requested ∨ input.limits.maxInputSize ≤ input.requested then (.ended, input)
  else match input.bytes[index]? with
    | some value => (.byte value, { input with requested := input.requested + 1 })
    | none =>
      if input.limits.endsWithBuffer then (.ended, input)
      else
        let (value, random) := Random.byte input.random
        (.byte value, { input with
          bytes := input.bytes.push value, requested := input.requested + 1, random })

def trim (input : GeneratedInput) : Except InputError Unit × GeneratedInput :=
  let bytes := input.bytes.take input.requested
  (if bytes.isEmpty then .error .emptyAfterTrim else .ok (), { input with bytes })

end GeneratedInput

end Greybox
