import Greybox.Corpus

namespace Greybox

structure PowerSchedule where
  baseline : Nat := 100
  favoredMultiplier : Nat := 40
  deriving DecidableEq

def maxChildren : Nat := UInt64.size - 1

def mulChildren (m n : Nat) : Nat := min maxChildren (m * n)

namespace PowerSchedule

/-- The children due to an input, given the largest coverage of any saved run. Seeds get the
baseline and other inputs their share of it; favored inputs get a multiple. -/
def targetChildren (schedule : PowerSchedule) (input : Input) (maxCoverage : Nat) : Nat :=
  let share :=
    if 0 < maxCoverage ∧ !input.isSeed then
      mulChildren schedule.baseline (input.nonZeroCoverage.getD 0) / maxCoverage
    else schedule.baseline
  if input.favored then mulChildren share schedule.favoredMultiplier else share

end PowerSchedule

structure Scheduler where
  schedule : PowerSchedule := {}
  cursor : Nat := 0
  children : Nat := 0
  /-- Counted in 64 bits: past the largest count it starts over at zero. -/
  cycles : UInt64 := 0
  deriving DecidableEq

structure Selection where
  parent : Nat
  completedCycle : Bool
  deriving DecidableEq

namespace Scheduler

def advance (scheduler : Scheduler) (count : Nat) : Scheduler × Bool :=
  let cursor := (scheduler.cursor + 1) % count
  let wrapped := cursor = 0
  ({ scheduler with
      cursor, children := 0, cycles := if wrapped then scheduler.cycles + 1 else scheduler.cycles },
    wrapped)

def seek (scheduler : Scheduler) (target : Nat → Nat) (count : Nat) (completed : Bool) :
    (steps : Nat) → Scheduler × Bool
  | 0 => (scheduler, completed)
  | steps + 1 =>
    if scheduler.children < target scheduler.cursor then (scheduler, completed)
    else
      let (scheduler, wrapped) := scheduler.advance count
      scheduler.seek target count (completed || wrapped) steps

/-- Picks the parent of the next child among `count` inputs with the given targets; there is none
among no inputs. A cursor past the end starts over. One pass that finds every input at its target
ends where it began. -/
def selectAmong (scheduler : Scheduler) (target : Nat → Nat) (count : Nat) :
    Option Selection × Scheduler :=
  if count = 0 then (none, scheduler)
  else
    let start := { scheduler with
      cursor := if count ≤ scheduler.cursor then 0 else scheduler.cursor }
    let (scheduler, completedCycle) := start.seek target count false count
    (some ⟨scheduler.cursor, completedCycle⟩, scheduler)

def targetOf (scheduler : Scheduler) (corpus : Corpus) (maxCoverage id : Nat) : Nat :=
  match corpus.get? id with
  | some input => scheduler.schedule.targetChildren input maxCoverage
  | none => 0

def select (scheduler : Scheduler) (corpus : Corpus) (maxCoverage : Nat) :
    Option Selection × Scheduler :=
  scheduler.selectAmong (scheduler.targetOf corpus maxCoverage) corpus.size

def recordChild (scheduler : Scheduler) : Scheduler :=
  { scheduler with children := scheduler.children + 1 }

end Scheduler

end Greybox
