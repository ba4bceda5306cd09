import Greybox.Feed

namespace Greybox

/-- A terminating target as the tree of its interactions: it pulls bytes and reports hits in any
order, and ends by accepting the input, rejecting it, or crashing. -/
inductive Target where
  | pull (next : Answer → Target)
  | hit (point : Nat) (next : Target)
  | finish (valid : Bool)
  | crash (text : Option String)

inductive Status where
  | valid
  | invalid
  | crash (message : String)
  deriving DecidableEq

def Status.isValid (status : Status) : Bool := status = .valid

structure Execution where
  status : Status
  coverage : Coverage

namespace Target

def run : Target → Feed → Coverage → Status × Feed × Coverage
  | pull next, feed, coverage =>
    let (answer, feed) := feed.next
    run (next answer) feed coverage
  | hit point next, feed, coverage => run next feed (coverage.recordHit point)
  | finish valid, feed, coverage => (if valid then .valid else .invalid, feed, coverage)
  | crash text, feed, coverage => (.crash (text.getD "Unknown panic type"), feed, coverage)

/-- Runs the target on an input from its start, over a fresh map, and gives the input back. -/
def execute (target : Target) (mapSize : Nat) (input : Input) : Input × Execution :=
  let (status, feed, coverage) := target.run (.start input) (.zero mapSize)
  (feed.input, ⟨status, coverage⟩)

end Target

end Greybox
