import Greybox.Engine.Basic

namespace Greybox.Engine

variable {σ ρ : Type}

def announce (engine : Engine σ ρ) (rate : Float) : Engine σ ρ :=
  if engine.lastStatusTrials = some engine.trials then engine
  else
    { engine with lastStatusTrials := some engine.trials }.note
      (.status engine.trials engine.totalCoverage.nonZeroCount rate engine.lastInputSize)

def dueParent (engine : Engine σ ρ) : Option DueParent :=
  if !engine.seeds.isEmpty || engine.corpus.isEmpty then none
  else
    let scheduler := engine.scheduler
    some ⟨scheduler.cursor, scheduler.children,
      scheduler.targetOf engine.corpus engine.maxCoverage scheduler.cursor⟩

/-- Whether the last refresh is so recent that another is not due. -/
def isFresh (engine : Engine σ ρ) (now : Moment) : Bool :=
  (since engine.lastRefresh now).nanoseconds < engine.settings.refreshPeriod.nanoseconds

def refresh [Storage σ] (engine : Engine σ ρ) (now : Moment) : Result σ ρ Stats :=
  let stats := engine.stats now
  let engine := { engine with lastRefresh := now, lastRefreshTrials := engine.trials }
  let engine := engine.announce stats.intervalRate
  let engine := engine.note (.progress stats engine.dueParent)
  match Storage.appendPlotLine engine.storage stats.plotLine with
  | (.error cause, storage) => (.error (.storage cause), { engine with storage })
  | (.ok (), storage) => (.ok stats, { engine with storage })

/-- Refreshes the report if that is due or forced, and gives the counters reported. -/
def displayStats [Storage σ] (engine : Engine σ ρ) (now : Moment) (force : Bool) :
    Result σ ρ (Option Stats) :=
  if !force && engine.isFresh now then (.ok none, engine)
  else
    let (result, engine) := engine.refresh now
    (result.map some, engine)

end Greybox.Engine
