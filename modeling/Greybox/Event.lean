import Greybox.Corpus
import Greybox.Decimal.Basic
import Greybox.Feedback
import Greybox.Stats
import Greybox.Text.Quoted

namespace Greybox

inductive LogLevel where
  | error
  | warn
  | info
  | debug
  | trace
  deriving DecidableEq

namespace LogLevel

def name : LogLevel → String
  | error => "ERROR"
  | warn => "WARN"
  | info => "INFO"
  | debug => "DEBUG"
  | trace => "TRACE"

def rank : LogLevel → Nat
  | error => 1
  | warn => 2
  | info => 3
  | debug => 4
  | trace => 5

end LogLevel

/-- The parent due for mutation when progress is reported. -/
structure DueParent where
  id : Nat
  children : Nat
  target : Nat
  deriving DecidableEq

inductive Event where
  | queueingSeed (path : String)
  | seedGiven (trial : Nat) (description : String)
  | freshGiven (trial : Nat)
  | childGiven (trial : Nat) (description : String) (parent : Nat)
  | invalidIgnored (trial : Nat)
  | stolen (id : Nat) (steal : Steal)
  | saved (id : Nat) (description reasons : String) (claimed : Nat)
  | status (trials coverage : Nat) (rate : Float) (inputSize : Nat)
  | cycleCompleted (number : Nat)
  | responsible (id owned : Nat)
  | favoredCounted (favored covered : Nat)
  | mismatch (owned covered : Nat) (tolerated : Bool)
  | progress (stats : Stats) (due : Option DueParent)
  | trialAborted (reason : String)
  | noBudget
  | loadingConfig (path : String)
  | loadingDefaultConfig (path : String)
  | noConfig (path : String)
  | randomSeed (seed : Nat)
  | noSeeds
  | seedsQueued (count : Nat)
  | starting (threads : Nat) (outputDir : String)

namespace Event

open Text (quoted quotedPath)

def level : Event → LogLevel
  | mismatch _ _ tolerated => if tolerated then .warn else .error
  | trialAborted _ | noBudget => .warn
  | saved .. | status .. | cycleCompleted _ | favoredCounted .. => .info
  | loadingConfig _ | loadingDefaultConfig _ | noConfig _ | randomSeed _ | noSeeds
  | seedsQueued _ | starting .. => .info
  | queueingSeed _ | stolen .. | responsible .. | progress .. => .debug
  | seedGiven .. | freshGiven _ | childGiven .. | invalidIgnored _ => .trace

def text : Event → String
  | queueingSeed path => s!"Queueing seed {quotedPath path}"
  | seedGiven trial description => s!"Trial {trial}: seed {quoted description}"
  | freshGiven trial => s!"Trial {trial}: fresh input"
  | childGiven trial description parent =>
    s!"Trial {trial}: child {quoted description} of parent {parent}"
  | invalidIgnored trial => s!"Trial {trial}: invalid run ignored"
  | stolen id steal =>
    s!"Input {id} steals responsibility for {steal.point} from input {steal.previous}"
  | saved id description reasons claimed =>
    s!"Saved id_{Decimal.padded 6 id} ({description}) reasons: {reasons}, owns {claimed} points"
  | status trials coverage rate inputSize => statusLine trials coverage rate inputSize
  | cycleCompleted number => s!"Cycle {number} completed"
  | responsible id owned => s!"Input {id} is responsible for {owned} points"
  | favoredCounted favored covered => s!"{favored} favored inputs, {covered} points covered"
  | mismatch owned covered tolerated =>
    if tolerated then
      s!"Saved inputs own {owned} points but {covered} are covered; "
        ++ "coverage was recorded between executions"
    else s!"Responsibility mismatch: {owned} owned, {covered} covered"
  | progress stats due =>
    match due with
    | none => s!"{stats.summary} | parent <seed>"
    | some due => s!"{stats.summary} | parent {due.id} ({due.children}/{due.target} children)"
  | trialAborted reason => s!"Trial aborted: {reason}"
  | noBudget => "No trial or time limit configured; fuzzing until interrupted"
  | loadingConfig path => s!"Loading configuration from specified path: {quotedPath path}"
  | loadingDefaultConfig path =>
    s!"No config file specified via CLI, loading default: {quotedPath path}"
  | noConfig path =>
    s!"No config file specified and default '{path}' not found, using built-in defaults."
  | randomSeed seed => s!"PRNG seed: {seed}"
  | noSeeds => "No seed inputs found, starting from the built-in seed"
  | seedsQueued count => s!"Queued {count} seed inputs"
  | starting threads outputDir =>
    s!"Starting fuzz loop with {threads} thread(s), results in {quotedPath outputDir}"

def line (event : Event) : String := s!"{event.level.name} {event.text}"

end Event

end Greybox
