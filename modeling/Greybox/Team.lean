import Greybox.Campaign
import Greybox.Engine.Shared

namespace Greybox

namespace SharedEngine

variable {σ ρ : Type}

def note (shared : SharedEngine σ ρ) (event : Event) : SharedEngine σ ρ :=
  match shared with
  | sound engine => sound (engine.note event)
  | poisoned => poisoned

end SharedEngine

inductive Client where
  | idle
  | cleared
  | given (input : Input)
  | executed (input : Input) (execution : Execution)
  | stopped
  | failed (error : EngineError)

namespace Client

variable {σ ρ : Type} [Storage σ] [WordSource ρ]

/-- One step of a client. An input that cannot be saved costs its trial and no more; any other error
ends the client. -/
def act (target : Target) (mapSize : Nat) (now : Moment) (shared : SharedEngine σ ρ) :
    Client → Client × SharedEngine σ ρ
  | idle =>
    match shared.hasInput now with
    | (.error error, shared) => (failed error, shared)
    | (.ok more, shared) => (if more then cleared else stopped, shared)
  | cleared =>
    match shared.nextInput with
    | (.error error, shared) => (failed error, shared)
    | (.ok input, shared) => (given input, shared)
  | given input =>
    let (input, execution) := target.execute mapSize input
    (executed input execution, shared)
  | executed input execution =>
    match shared.reportResult now input execution.coverage execution.status.isValid with
    | (.ok _, shared) => (idle, shared)
    | (.error error, shared) =>
      if error.isTrialError then (idle, shared.note (.trialAborted error.message))
      else (failed error, shared)
  | stopped => (stopped, shared)
  | failed error => (failed error, shared)

end Client

structure Turn where
  client : Nat
  now : Moment

/-- Clients that run campaigns on one shared engine. Each call of a client has the engine to itself;
between two calls of one client the others make theirs, and targets run outside the engine. -/
structure Team (σ ρ : Type) where
  shared : SharedEngine σ ρ
  clients : List Client

namespace Team

variable {σ ρ : Type}

def start (engine : Engine σ ρ) (count : Nat) : Team σ ρ :=
  ⟨.sound engine, List.replicate count .idle⟩

variable [Storage σ] [WordSource ρ]

def take (target : Target) (mapSize : Nat) (team : Team σ ρ) (turn : Turn) : Team σ ρ :=
  match team.clients[turn.client]? with
  | none => team
  | some client =>
    let (client, shared) := client.act target mapSize turn.now team.shared
    ⟨shared, team.clients.set turn.client client⟩

def run (team : Team σ ρ) (target : Target) (mapSize : Nat) (turns : List Turn) : Team σ ρ :=
  turns.foldl (take target mapSize) team

end Team

end Greybox
