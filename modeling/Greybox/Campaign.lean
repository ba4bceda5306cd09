import Greybox.Engine.Next
import Greybox.Engine.Report
import Greybox.Target.Basic

namespace Greybox

def EngineError.isTrialError : EngineError → Bool
  | input .emptyAfterTrim => true
  | input (.outOfOrder ..) => true
  | _ => false

namespace Engine

variable {σ ρ : Type} [Storage σ] [WordSource ρ]

def settle : Result σ ρ Outcome → Result σ ρ Unit
  | (.ok _, engine) => (.ok (), engine)
  | (.error error, engine) =>
    if error.isTrialError then (.ok (), engine.note (.trialAborted error.message))
    else (.error error, engine)

def trial (engine : Engine σ ρ) (target : Target) (mapSize : Nat) (now : Moment) :
    Result σ ρ Unit :=
  match engine.nextInput with
  | (.error error, engine) => (.error error, engine)
  | (.ok input, engine) =>
    let (input, execution) := target.execute mapSize input
    settle (engine.reportResult now input execution.coverage execution.status.isValid)

/-- Trials until the budget is used up or one fails; there is no result if neither ever happens. An
input that cannot be saved costs its trial and no more. The clock tells the moment at which a given
number of trials has been done. -/
def fuzz (target : Target) (mapSize : Nat) (clock : Nat → Moment) (engine : Engine σ ρ) :
    Option (Result σ ρ Unit) :=
  let now := clock engine.trials
  if engine.hasInput now then
    match engine.trial target mapSize now with
    | (.error error, engine) => some (.error error, engine)
    | (.ok (), engine) => engine |>.fuzz target mapSize clock
  else some (.ok (), engine)
partial_fixpoint

end Engine

end Greybox
