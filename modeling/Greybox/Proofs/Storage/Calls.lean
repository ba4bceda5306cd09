import Mathlib.Logic.Relation
import Greybox.Storage.Basic

namespace Greybox.Storage

variable {σ : Type} [Storage σ] {store later : σ}

inductive Call : σ → σ → Prop
  | persistInput {store later : σ} {id : Nat} {bytes : Bytes} {entry : EntryMetadata}
      {result : Except StorageError String}
      (h : Storage.persistInput store id bytes entry = (result, later)) : Call store later
  | writeCoverage {store later : σ} {map : Coverage} {result : Except StorageError Unit}
      (h : Storage.writeCoverage store map = (result, later)) : Call store later
  | appendPlotLine {store later : σ} {line : String} {result : Except StorageError Unit}
      (h : Storage.appendPlotLine store line = (result, later)) : Call store later
  | logTrial {store later : σ} {trial : Nat} {bytes : Bytes} {result : Except StorageError Unit}
      (h : Storage.logTrial store trial bytes = (result, later)) : Call store later

abbrev Leads (store later : σ) : Prop := Relation.ReflTransGen Call store later

/-- The store takes the bytes of every input, now and after any calls. The other calls may fail. -/
def KeepsInputs (store : σ) : Prop :=
  ∀ later, Leads store later → ∀ id bytes entry,
    ∃ path, (Storage.persistInput later id bytes entry).1 = .ok path

theorem KeepsInputs.of_leads (h : KeepsInputs store) (hl : Leads store later) : KeepsInputs later :=
  fun _ hlater => h _ (hl.trans hlater)

theorem keepsInputs_of_forall
    (h : ∀ (store : σ) id bytes entry, ∃ path, (Storage.persistInput store id bytes entry).1 = .ok path)
    (store : σ) : KeepsInputs store :=
  fun later _ => h later

structure Answers (store : σ) : Prop where
  persistInput : ∀ id bytes entry, ∃ path later,
    Storage.persistInput store id bytes entry = (.ok path, later)
  writeCoverage : ∀ map, ∃ later, Storage.writeCoverage store map = (.ok (), later)
  appendPlotLine : ∀ line, ∃ later, Storage.appendPlotLine store line = (.ok (), later)
  logTrial : ∀ trial bytes, ∃ later, Storage.logTrial store trial bytes = (.ok (), later)

/-- No call fails, now and after any calls. -/
def NeverFails (store : σ) : Prop := ∀ later, Leads store later → Answers later

theorem NeverFails.answers (h : NeverFails store) : Answers store := h store .refl

theorem NeverFails.of_leads (h : NeverFails store) (hl : Leads store later) : NeverFails later :=
  fun _ hlater => h _ (hl.trans hlater)

theorem NeverFails.keepsInputs (h : NeverFails store) : KeepsInputs store := by
  intro later hl id bytes entry
  obtain ⟨path, kept, hcall⟩ := (h later hl).persistInput id bytes entry
  exact ⟨path, congrArg Prod.fst hcall⟩

inductive RecordCall : σ → σ → Prop
  | appendPlotLine {store later : σ} {line : String}
      (h : Storage.appendPlotLine store line = (.ok (), later)) : RecordCall store later
  | logTrial {store later : σ} {trial : Nat} {bytes : Bytes}
      (h : Storage.logTrial store trial bytes = (.ok (), later)) : RecordCall store later

abbrev Records (store later : σ) : Prop := Relation.ReflTransGen RecordCall store later

theorem Records.leads (h : Records store later) : Leads store later := by
  induction h with
  | refl => exact .refl
  | tail _ hcall ih =>
    cases hcall with
    | appendPlotLine h => exact ih.tail (.appendPlotLine h)
    | logTrial h => exact ih.tail (.logTrial h)

/-- The store took an input and then the coverage, and recorded progress. -/
inductive Deposits (store : σ) (id : Nat) (bytes : Bytes) (entry : EntryMetadata) (map : Coverage) :
    σ → Prop
  | intro {path : String} {kept written later : σ}
      (hinput : Storage.persistInput store id bytes entry = (.ok path, kept))
      (hcoverage : Storage.writeCoverage kept map = (.ok (), written))
      (hrecords : Records written later) : Deposits store id bytes entry map later

end Greybox.Storage
