import Greybox.Engine.Basic

namespace Greybox.Engine

variable {σ ρ : Type}

def favoredInputs (engine : Engine σ ρ) : List Input :=
  engine.corpus.entries.toList.filter (·.favored)

def favoredResponsibility (engine : Engine σ ρ) : Nat :=
  engine.favoredInputs.foldl (fun sum input => sum + input.responsibilityCount) 0

def reviewFavored (engine : Engine σ ρ) : Engine σ ρ :=
  let favored := engine.favoredInputs
  let engine := favored.foldl
    (fun engine input => engine.note (.responsible (input.id.getD 0) input.responsibilityCount))
    (engine.note (.cycleCompleted engine.scheduler.cycles.toNat))
  { engine with favoredLastCycle := favored.length }.note
    (.favoredCounted favored.length engine.totalCoverage.nonZeroCount)

/-- Ends a cycle: counts the favored inputs and checks that they own exactly the covered points. A
mismatch is only reported if several clients share the engine. -/
def completeCycle (engine : Engine σ ρ) : Result σ ρ Unit :=
  let owned := engine.favoredResponsibility
  let covered := engine.totalCoverage.nonZeroCount
  let engine := engine.reviewFavored
  if owned = covered then (.ok (), engine)
  else
    let tolerated := engine.settings.multithreaded
    (if tolerated then .ok () else .error (.responsibilityMismatch owned covered),
      engine.note (.mismatch owned covered tolerated))

def completeCycleIf (engine : Engine σ ρ) (completed : Bool) : Result σ ρ Unit :=
  if completed then engine.completeCycle else (.ok (), engine)

section

variable [WordSource ρ]

def spawn (engine : Engine σ ρ) : Input × Engine σ ρ :=
  let engine := engine.note (.freshGiven engine.trials)
  let (seed, random) := Random.word64 engine.random
  (.fresh engine.settings.limits seed, { engine with random })

def mutate (engine : Engine σ ρ) (parent : Input) : Except MutationError Input × ρ :=
  match Random.chance engine.settings.spliceProbability engine.random with
  | none => (.error (.notAProbability engine.settings.spliceProbability), engine.random)
  | some (true, random) =>
    Mutation.spliceChild engine.settings.limits engine.corpus parent random
  | some (false, random) =>
    Mutation.havocChild engine.settings.havoc engine.settings.limits parent random

def breed (engine : Engine σ ρ) (id : Nat) (parent : Input) : Result σ ρ Input :=
  match engine.mutate parent with
  | (.error cause, random) => (.error (.mutation cause), { engine with random })
  | (.ok child, random) =>
    let engine := { engine with random, scheduler := engine.scheduler.recordChild }
    (.ok child, engine.note (.childGiven engine.trials child.description id))

def derive (engine : Engine σ ρ) : Result σ ρ Input :=
  match engine.scheduler.select engine.corpus engine.maxCoverage with
  | (none, scheduler) => (.error .corpusEmpty, { engine with scheduler })
  | (some selection, scheduler) =>
    match { engine with scheduler }.completeCycleIf selection.completedCycle with
    | (.error error, engine) => (.error error, engine)
    | (.ok (), engine) =>
      match engine.corpus.get? selection.parent with
      | none => (.error (.notFound ⟨selection.parent⟩), engine)
      | some parent => engine.breed selection.parent parent

def nextInput (engine : Engine σ ρ) : Result σ ρ Input :=
  match engine.seeds with
  | seed :: seeds =>
    (.ok seed, { engine with seeds }.note (.seedGiven engine.trials seed.description))
  | [] =>
    if engine.corpus.isEmpty then
      let (input, engine) := engine.spawn
      (.ok input, engine)
    else engine.derive

end

end Greybox.Engine
