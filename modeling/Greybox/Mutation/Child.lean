import Greybox.Corpus
import Greybox.Decimal.Basic
import Greybox.Mutation.Havoc

namespace Greybox

namespace Mutation

open Greybox.Random

variable {ρ : Type} [WordSource ρ]

def spliceBytes (parent other : Bytes) (offset : Nat) : Bytes :=
  parent.extract 0 offset ++ other.extract offset other.size

def parentTag (input : Input) : String :=
  match input.id with
  | some id => Decimal.padded 6 id
  | none => "unsaved"

def spliceTag (input : Input) : String :=
  match input.id with
  | some id => s!"id_{id}"
  | none => "id_-1"

def child (limits : Limits) (parent : Input) (bytes : Bytes) (description : String)
    (seed : UInt64) : Input :=
  { Input.ofGenerated (.ofBytes bytes limits seed) description with parent := parent.id }

def havocChild (havoc : Havoc) (limits : Limits) (parent : Input) (g : ρ) :
    Except MutationError Input × ρ :=
  match havoc.apply parent.bytes g with
  | (.error error, g) => (.error error, g)
  | (.ok (bytes, count), g) =>
    let (seed, g) := word64 g
    (.ok (child limits parent bytes s!"src:{parentTag parent},havoc:{count}" seed), g)

/-- A child of two inputs, cut at the same random position of the parent in both. A position is also
drawn for the other input, which only moves the random stream on. -/
def spliceWith (limits : Limits) (parent other : Input) (g : ρ) :
    Except MutationError Input × ρ :=
  if parent.isEmpty || other.isEmpty then (.error .emptyParent, g)
  else
    let (offset, g) := below parent.size g
    let (_, g) := below other.size g
    let (seed, g) := word64 g
    let bytes := spliceBytes parent.bytes other.bytes offset
    let description := s!"random,splice: {spliceTag parent}&{spliceTag other}"
    (.ok (child limits parent bytes description seed), g)

def spliceChild (limits : Limits) (corpus : Corpus) (parent : Input) (g : ρ) :
    Except MutationError Input × ρ :=
  let (other, g) := corpus.select g
  spliceWith limits parent (other.getD parent) g

end Mutation

end Greybox
