import Greybox.Proofs.Input.Requests
import Greybox.Proofs.Storage.Calls

namespace Greybox.Storage

inductive Request where
  | persistInput (id : Nat) (bytes : Bytes) (entry : EntryMetadata)
  | writeCoverage (map : Coverage)
  | appendPlotLine (line : String)
  | logTrial (trial : Nat) (bytes : Bytes)

variable {σ : Type} [Storage σ]

/-- What comes of a request; where an input was stored is not told. -/
def perform (store : σ) : Request → Except StorageError Unit × σ
  | .persistInput id bytes entry =>
    let (result, store) := Storage.persistInput store id bytes entry
    (result.map fun _ => (), store)
  | .writeCoverage map => Storage.writeCoverage store map
  | .appendPlotLine line => Storage.appendPlotLine store line
  | .logTrial trial bytes => Storage.logTrial store trial bytes

def afterAll (store : σ) (requests : List Request) : σ := (inTurn perform store requests).2

@[simp] theorem afterAll_nil (store : σ) : afterAll store [] = store := rfl

@[simp] theorem afterAll_cons (store : σ) (request : Request) (requests : List Request) :
    afterAll store (request :: requests) = afterAll (perform store request).2 requests := rfl

theorem perform_call (store : σ) (request : Request) : Call store (perform store request).2 := by
  cases request with
  | persistInput id bytes entry => exact .persistInput rfl
  | writeCoverage map => exact .writeCoverage rfl
  | appendPlotLine line => exact .appendPlotLine rfl
  | logTrial trial bytes => exact .logTrial rfl

theorem afterAll_leads (store : σ) (requests : List Request) :
    Leads store (afterAll store requests) := by
  induction requests generalizing store with
  | nil => exact .refl
  | cons request requests ih => exact .head (perform_call store request) (ih _)

end Greybox.Storage
