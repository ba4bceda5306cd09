import Std.Data.TreeMap
import Greybox.Decimal.Basic
import Greybox.Storage.Basic

namespace Greybox

structure MemoryStore where
  inputs : Std.TreeMap Nat (Bytes × EntryMetadata) := ∅
  coverage : Option Coverage := none
  plotLines : Array String := #[]
  loggedTrials : Array (Nat × Bytes) := #[]

def slotName (id : Nat) : String := "id_" ++ Decimal.padded 6 id

namespace MemoryStore

instance : EmptyCollection MemoryStore := ⟨{}⟩

instance : Inhabited MemoryStore := ⟨∅⟩

instance : Storage MemoryStore where
  persistInput store id bytes entry :=
    (.ok (slotName id), { store with inputs := store.inputs.insert id (bytes, entry) })
  writeCoverage store map := (.ok (), { store with coverage := some map })
  appendPlotLine store line := (.ok (), { store with plotLines := store.plotLines.push line })
  logTrial store trial bytes :=
    (.ok (), { store with loggedTrials := store.loggedTrials.push (trial, bytes) })

end MemoryStore

structure RefusingStore (σ : Type) where
  inner : σ
  refused : List StorageOperation := []

namespace RefusingStore

variable {σ α : Type}

def attempt (store : RefusingStore σ) (operation : StorageOperation)
    (perform : σ → Except StorageError α × σ) : Except StorageError α × RefusingStore σ :=
  if operation ∈ store.refused then (.error (.refused operation), store)
  else
    let (result, inner) := perform store.inner
    (result, { store with inner })

instance [Storage σ] : Storage (RefusingStore σ) where
  persistInput store id bytes entry :=
    store.attempt .persist fun inner => Storage.persistInput inner id bytes entry
  writeCoverage store map := store.attempt .coverage fun inner => Storage.writeCoverage inner map
  appendPlotLine store line := store.attempt .plot fun inner => Storage.appendPlotLine inner line
  logTrial store trial bytes := store.attempt .trial fun inner => Storage.logTrial inner trial bytes

end RefusingStore

end Greybox
