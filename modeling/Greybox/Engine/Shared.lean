import Greybox.Engine.Next
import Greybox.Engine.Report

namespace Greybox

/-- An engine that several clients share. Every operation has it to itself from start to end, and
once a client has crashed during one, all further ones are refused. -/
inductive SharedEngine (σ ρ : Type) where
  | sound (engine : Engine σ ρ)
  | poisoned

namespace SharedEngine

variable {σ ρ α : Type}

def withEngine (shared : SharedEngine σ ρ) (operation : Engine σ ρ → α × Engine σ ρ) :
    Except EngineError α × SharedEngine σ ρ :=
  match shared with
  | sound engine =>
    let (result, engine) := operation engine
    (.ok result, sound engine)
  | poisoned => (.error .poisoned, poisoned)

def attempt (shared : SharedEngine σ ρ) (operation : Engine σ ρ → Engine.Result σ ρ α) :
    Except EngineError α × SharedEngine σ ρ :=
  match shared with
  | sound engine =>
    let (result, engine) := operation engine
    (result, sound engine)
  | poisoned => (.error .poisoned, poisoned)

def crash (_ : SharedEngine σ ρ) : SharedEngine σ ρ := poisoned

def nextInput [WordSource ρ] (shared : SharedEngine σ ρ) :
    Except EngineError Input × SharedEngine σ ρ :=
  shared.attempt (·.nextInput)

def reportResult [Storage σ] (shared : SharedEngine σ ρ) (now : Moment) (input : Input)
    (run : Coverage) (valid : Bool) : Except EngineError Outcome × SharedEngine σ ρ :=
  shared.attempt (·.reportResult now input run valid)

def hasInput (shared : SharedEngine σ ρ) (now : Moment) :
    Except EngineError Bool × SharedEngine σ ρ :=
  shared.withEngine fun engine => (engine.hasInput now, engine)

def displayStats [Storage σ] (shared : SharedEngine σ ρ) (now : Moment) (force : Bool) :
    Except EngineError (Option Stats) × SharedEngine σ ρ :=
  shared.attempt (·.displayStats now force)

def stats (shared : SharedEngine σ ρ) (now : Moment) :
    Except EngineError Stats × SharedEngine σ ρ :=
  shared.withEngine fun engine => (engine.stats now, engine)

end SharedEngine

end Greybox
