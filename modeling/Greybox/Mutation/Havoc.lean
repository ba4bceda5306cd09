import Greybox.ByteSource
import Greybox.Random

namespace Greybox

inductive MutationError where
  | emptyParent
  | notAProbability (value : Float)

namespace MutationError

def message : MutationError → String
  | emptyParent => "Cannot mutate an input with no bytes"
  | notAProbability _ => "The zero-fill probability lies outside [0, 1]"

end MutationError

namespace Mutation

open Greybox.Random

def invertUniform (mean uniform : Float) (max : Nat) : Nat :=
  let value := ((1 - uniform).log / (1 - 1 / mean).log).ceil
  if !value.isFinite || value < 1 then 1
  else if value ≥ max.toUInt64.toFloat then max
  else value.toUInt64.toNat

/-- A geometric sample with the given mean, of at most `max` unless that is zero. A mean that is at
most one, or not a number, always gives one and draws nothing. -/
def geometric {ρ : Type} [WordSource ρ] (mean : Float) (max : Nat) (g : ρ) : Nat × ρ :=
  if mean.isNaN || mean ≤ 1 then (1, g)
  else
    let (uniform, g) := unit g
    (invertUniform mean uniform (Nat.max 1 max), g)

end Mutation

structure Havoc where
  meanCount : Float
  meanSize : Float
  constantSize : Bool
  zeroFill : Float

namespace Havoc

open Mutation Greybox.Random

variable {ρ : Type} [WordSource ρ]

def overwrite (zeroes : Bool) (bytes : Bytes) (offset : Nat) (g : ρ) : (count : Nat) → Bytes × ρ
  | 0 => (bytes, g)
  | count + 1 =>
    if zeroes then overwrite zeroes (bytes.setIfInBounds offset 0) (offset + 1) g count
    else
      let (value, g) := byte g
      overwrite zeroes (bytes.setIfInBounds offset value) (offset + 1) g count

def span (havoc : Havoc) (size : Nat) (g : ρ) : Nat × ρ :=
  if havoc.constantSize then (max 1 havoc.meanSize.toUInt64.toNat, g)
  else geometric havoc.meanSize size g

def mutation (havoc : Havoc) (zeroes : Bool) (bytes : Bytes) (g : ρ) : Bytes × ρ :=
  let (offset, g) := below bytes.size g
  let (span, g) := havoc.span bytes.size g
  overwrite zeroes bytes offset g (min (offset + span) bytes.size - offset)

def mutations (havoc : Havoc) (zeroes : Bool) (bytes : Bytes) (g : ρ) : (count : Nat) → Bytes × ρ
  | 0 => (bytes, g)
  | count + 1 =>
    let (bytes, g) := havoc.mutation zeroes bytes g
    mutations havoc zeroes bytes g count

/-- One batch: the mutated bytes and the number of mutations applied. A few spans are overwritten,
all with zeroes or all with random bytes, and clipped at the end of the string. -/
def apply (havoc : Havoc) (bytes : Bytes) (g : ρ) : Except MutationError (Bytes × Nat) × ρ :=
  if bytes.isEmpty then (.error .emptyParent, g)
  else
    let (count, g) := geometric havoc.meanCount bytes.size g
    match chance havoc.zeroFill g with
    | none => (.error (.notAProbability havoc.zeroFill), g)
    | some (zeroes, g) =>
      let (bytes, g) := havoc.mutations zeroes bytes g count
      (.ok (bytes, count), g)

end Havoc

end Greybox
