import Greybox.Engine.Progress

namespace Greybox.Engine

variable {σ ρ : Type} [Storage σ]

def metadata (input : Input) (verdict : Verdict) : EntryMetadata :=
  { description := input.description
    reasons := SaveReason.joined verdict.reasons
    parent := input.parent
    size := input.size }

def creditParent (corpus : Corpus) : Option Nat → Except InputNotFound Corpus
  | none => .ok corpus
  | some parent => corpus.recordOffspring parent

def sealed (input : Input) (run : Coverage) (path : String) : Input :=
  { input with
    savePath := some path
    coverage := some run
    nonZeroCoverage := some run.nonZeroCount
    offspring := 0 }

def enter (engine : Engine σ ρ) (now : Moment) (input : Input) (verdict : Verdict) : Engine σ ρ :=
  let id := engine.corpus.nextId
  let (corpus, steals) := engine.corpus.insert input verdict.responsibilities
  let engine := steals.foldl (fun engine steal => engine.note (.stolen id steal))
    { engine with corpus, lastInputSize := input.size }
  let engine := engine.note (.saved id input.description (SaveReason.joined verdict.reasons)
    verdict.responsibilities.size)
  engine.announce (execRate engine.trials (since engine.startTime now))

def publish (engine : Engine σ ρ) (now : Moment) : Result σ ρ Unit :=
  match Storage.writeCoverage engine.storage engine.totalCoverage with
  | (.error cause, storage) => (.error (.storage cause), { engine with storage })
  | (.ok (), storage) =>
    let (result, engine) := { engine with storage }.displayStats now false
    (result.map fun _ => (), engine)

def enroll (engine : Engine σ ρ) (now : Moment) (input : Input) (run : Coverage) (verdict : Verdict)
    (path : String) : Result σ ρ Outcome :=
  let engine := { engine with maxCoverage := max engine.maxCoverage run.nonZeroCount }
  match creditParent engine.corpus input.parent with
  | .error cause => (.error (.notFound cause), engine)
  | .ok corpus =>
    let id := corpus.nextId
    let (result, engine) :=
      ({ engine with corpus }.enter now (sealed input run path) verdict).publish now
    (result.map fun _ => .saved id verdict.reasons, engine)

def save (engine : Engine σ ρ) (now : Moment) (input : Input) (run : Coverage) (verdict : Verdict) :
    Result σ ρ Outcome :=
  if input.isEmpty then (.error (.input .emptyAfterTrim), engine)
  else
    match Storage.persistInput engine.storage engine.corpus.nextId input.bytes
      (metadata input verdict) with
    | (.error cause, storage) => (.error (.storage cause), { engine with storage })
    | (.ok path, storage) => { engine with storage }.enroll now input run verdict path

def ingestInvalidSeed (engine : Engine σ ρ) (now : Moment) (input : Input) (run : Coverage) :
    Result σ ρ Outcome :=
  match input.trim with
  | (.error cause, _) => (.error (.input cause), engine)
  | (.ok (), input) =>
    let (verdict, feedback) := engine.feedback.absorbInvalidSeed run
    { engine with feedback }.save now input run verdict

def ingestJudged (engine : Engine σ ρ) (now : Moment) (input : Input) (run : Coverage)
    (valid : Bool) : Result σ ρ Outcome :=
  let verdict := engine.feedback.assess run valid
  let feedback := engine.feedback.commit run valid
  if verdict.isInteresting then
    match input.trim with
    | (.error cause, _) => (.error (.input cause), engine)
    | (.ok (), input) => { engine with feedback }.save now input run verdict
  else (.ok .discarded, { engine with feedback })

def ingest (engine : Engine σ ρ) (now : Moment) (input : Input) (run : Coverage) (valid : Bool) :
    Result σ ρ Outcome :=
  if valid then
    { engine with validTrials := engine.validTrials + 1 }.ingestJudged now input run true
  else if input.isSeed then engine.ingestInvalidSeed now input run
  else if engine.settings.saveOnlyValid then
    (.ok .ignored, engine.note (.invalidIgnored engine.trials))
  else engine.ingestJudged now input run false

def logTrial (engine : Engine σ ρ) (bytes : Bytes) : Result σ ρ Unit :=
  if engine.logAllInputs then
    match Storage.logTrial engine.storage engine.trials bytes with
    | (.error cause, storage) => (.error (.storage cause), { engine with storage })
    | (.ok (), storage) => (.ok (), { engine with storage })
  else (.ok (), engine)

/-- Takes back an input with the snapshot of its run and whether the run was valid. An input is
trimmed before its run is merged, so that one without bytes leaves no points behind. -/
def reportResult (engine : Engine σ ρ) (now : Moment) (input : Input) (run : Coverage)
    (valid : Bool) : Result σ ρ Outcome :=
  let expected := engine.totalCoverage.size
  if run.size = expected then
    let engine := { engine with trials := engine.trials + 1, lastInputSize := input.size }
    match engine.logTrial input.bytes with
    | (.error error, engine) => (.error error, engine)
    | (.ok (), engine) => engine.ingest now { input with valid } run valid
  else (.error (.coverageSizeMismatch expected run.size), engine)

end Greybox.Engine
