import Greybox.Proofs.Storage.Calls
import Greybox.Storage.Memory

namespace Greybox.MemoryStore

open Storage (NeverFails Records Deposits)

variable {store later : MemoryStore}

theorem neverFails (store : MemoryStore) : NeverFails store := by
  intro later _
  refine ⟨?_, ?_, ?_, ?_⟩
  · intro id bytes entry
    exact ⟨_, _, rfl⟩
  · intro map
    exact ⟨_, rfl⟩
  · intro line
    exact ⟨_, rfl⟩
  · intro trial bytes
    exact ⟨_, rfl⟩

theorem of_records (h : Records store later) :
    later.inputs = store.inputs ∧ later.coverage = store.coverage := by
  induction h with
  | refl => exact ⟨rfl, rfl⟩
  | tail _ hcall ih =>
    cases hcall with
    | appendPlotLine h =>
      cases h
      exact ih
    | logTrial h =>
      cases h
      exact ih

theorem of_deposits {id : Nat} {bytes : Bytes} {entry : EntryMetadata} {map : Coverage}
    (h : Deposits store id bytes entry map later) :
    later.inputs = store.inputs.insert id (bytes, entry) ∧ later.coverage = some map := by
  obtain ⟨hinput, hcoverage, hrecords⟩ := h
  cases hinput
  cases hcoverage
  exact of_records hrecords

end Greybox.MemoryStore
