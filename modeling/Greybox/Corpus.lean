import Std.Data.TreeMap
import Greybox.Input.Basic
import Greybox.Random

namespace Greybox

structure InputNotFound where
  id : Nat
  deriving DecidableEq

def InputNotFound.message (error : InputNotFound) : String :=
  s!"Input ID {error.id} not found in corpus"

structure Steal where
  point : Nat
  previous : Nat
  deriving DecidableEq

/-- The saved inputs in the order of saving, which is also the order of their ids, and an index from
every claimed point to the input that owns it. -/
structure Corpus where
  entries : Array Input := #[]
  owners : Std.TreeMap Nat Nat := ∅

namespace Corpus

instance : EmptyCollection Corpus := ⟨{}⟩

instance : Inhabited Corpus := ⟨∅⟩

def size (corpus : Corpus) : Nat := corpus.entries.size

def isEmpty (corpus : Corpus) : Bool := corpus.entries.isEmpty

def nextId (corpus : Corpus) : Nat := corpus.size

def get? (corpus : Corpus) (id : Nat) : Option Input := corpus.entries[id]?

def owner? (corpus : Corpus) (point : Nat) : Option Nat := corpus.owners[point]?

def select {ρ : Type} [WordSource ρ] (corpus : Corpus) (g : ρ) : Option Input × ρ :=
  if corpus.isEmpty then (none, g)
  else
    let (index, g) := Random.below corpus.size g
    (corpus.get? index, g)

def steals (corpus : Corpus) (claims : PointSet) : List Steal :=
  claims.toList.filterMap fun point => (corpus.owner? point).map fun previous => ⟨point, previous⟩

/-- Appends an input that claims the given points, and tells which of them it took from others. -/
def insert (corpus : Corpus) (input : Input) (claims : PointSet) : Corpus × List Steal :=
  let id := corpus.nextId
  let stolen := corpus.steals claims
  let entries := stolen.foldl
    (fun entries steal => entries.modify steal.previous (·.release steal.point)) corpus.entries
  let saved := { input with
    id := some id, favored := !claims.isEmpty, responsibilities := some claims }
  ({ entries := entries.push saved,
     owners := claims.toList.foldl (fun owners point => owners.insert point id) corpus.owners },
    stolen)

def recordOffspring (corpus : Corpus) (parent : Nat) : Except InputNotFound Corpus :=
  if parent < corpus.size then
    .ok { corpus with
      entries := corpus.entries.modify parent fun input =>
        { input with offspring := input.offspring + 1 } }
  else .error ⟨parent⟩

def responsibilitySum (corpus : Corpus) : Nat :=
  corpus.entries.foldl (fun sum input => sum + input.responsibilityCount) 0

def favoredCount (corpus : Corpus) : Nat := corpus.entries.countP (·.favored)

end Corpus

end Greybox
