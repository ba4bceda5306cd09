import Greybox.Event
import Greybox.Mutation.Child
import Greybox.Settings
import Greybox.Storage.Basic

namespace Greybox

inductive EngineError where
  | input (cause : InputError)
  | mutation (cause : MutationError)
  | storage (cause : StorageError)
  | notFound (cause : InputNotFound)
  | corpusEmpty
  | responsibilityMismatch (owned covered : Nat)
  | coverageSizeMismatch (expected actual : Nat)
  | poisoned

def EngineError.message : EngineError → String
  | input cause => cause.message
  | mutation cause => cause.message
  | storage cause => cause.message
  | notFound cause => cause.message
  | corpusEmpty => "Corpus is empty, cannot schedule next input"
  | responsibilityMismatch owned covered =>
    s!"Responsibility mismatch: {owned} points owned, {covered} points covered"
  | coverageSizeMismatch expected actual =>
    s!"Coverage snapshot has {actual} counters, expected {expected}"
  | poisoned => "Guidance engine lock was poisoned"

inductive Outcome where
  | saved (id : Nat) (reasons : List SaveReason)
  | discarded
  | ignored
  deriving DecidableEq

/-- A moment, in nanoseconds since some fixed one. -/
abbrev Moment := Nat

/-- A session, over a store of type `σ` and a random stream of type `ρ`. -/
structure Engine (σ ρ : Type) where
  settings : Settings
  maxTrials : Option Nat := none
  maxDuration : Option Duration := none
  logAllInputs : Bool := false
  storage : σ
  random : ρ
  seeds : List Input := []
  corpus : Corpus := ∅
  feedback : Feedback
  scheduler : Scheduler
  maxCoverage : Nat := 0
  trials : Nat := 0
  validTrials : Nat := 0
  favoredLastCycle : Nat := 0
  lastInputSize : Nat := 0
  lastStatusTrials : Option Nat := none
  startTime : Moment
  lastRefresh : Moment
  lastRefreshTrials : Nat := 0
  journal : Array Event := #[]

namespace Engine

variable {σ ρ : Type}

/-- The result of an operation that may fail, and the engine it leaves behind. -/
abbrev Result (σ ρ α : Type) := Except EngineError α × Engine σ ρ

def start (settings : Settings) (storage : σ) (random : ρ) (now : Moment) :
    Except SettingsError (Engine σ ρ) := do
  settings.validate
  return {
    settings, storage, random
    feedback := .start settings.coverageMapSize settings.validityFuzzing
      settings.disableSaveNewCounts
    scheduler := { schedule := settings.schedule }
    startTime := now, lastRefresh := now }

def withBudget (engine : Engine σ ρ) (maxTrials : Option Nat) (maxDuration : Option Duration) :
    Engine σ ρ :=
  { engine with maxTrials, maxDuration }

def withTrialLogging (engine : Engine σ ρ) (logAllInputs : Bool) : Engine σ ρ :=
  { engine with logAllInputs }

def note (engine : Engine σ ρ) (event : Event) : Engine σ ρ :=
  { engine with journal := engine.journal.push event }

def totalCoverage (engine : Engine σ ρ) : Coverage := engine.feedback.total

def validCoverage (engine : Engine σ ρ) : Coverage := engine.feedback.valid

def since (moment now : Moment) : Duration := ⟨now - moment⟩

def hasInput (engine : Engine σ ρ) (now : Moment) : Bool :=
  engine.maxTrials.all (engine.trials < ·) &&
    engine.maxDuration.all fun limit =>
      (since engine.startTime now).nanoseconds < limit.nanoseconds

def stats (engine : Engine σ ρ) (now : Moment) : Stats :=
  let elapsed := since engine.startTime now
  { elapsed
    trials := engine.trials
    validTrials := engine.validTrials
    cycles := engine.scheduler.cycles.toNat
    savedInputs := engine.corpus.size
    favoredInputs := engine.favoredLastCycle
    totalCoverage := engine.totalCoverage.nonZeroCount
    validCoverage := engine.validCoverage.nonZeroCount
    totalPercent := engine.totalCoverage.percent
    validPercent := engine.validCoverage.percent
    intervalRate := execRate (engine.trials - engine.lastRefreshTrials)
      (since engine.lastRefresh now)
    overallRate := execRate engine.trials elapsed }

def addSeed (engine : Engine σ ρ) (seed : Input) : Engine σ ρ :=
  { engine with seeds := engine.seeds ++ [seed] }

end Engine

end Greybox
