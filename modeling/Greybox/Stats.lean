import Greybox.Decimal.Basic

namespace Greybox

structure Duration where
  nanoseconds : Nat
  deriving DecidableEq, Inhabited

namespace Duration

def ofSeconds (seconds : Nat) : Duration := ⟨1000000000 * seconds⟩

def ofMilliseconds (milliseconds : Nat) : Duration := ⟨1000000 * milliseconds⟩

def seconds (span : Duration) : Nat := span.nanoseconds / 1000000000

def subseconds (span : Duration) : Nat := span.nanoseconds % 1000000000

def toFloat (span : Duration) : Float :=
  span.seconds.toUInt64.toFloat + span.subseconds.toUInt64.toFloat / 1000000000

/-- The span in its largest unit that is not larger than the span, with two places. -/
def text (span : Duration) : String :=
  let inUnit (nanoseconds : Nat) (unit : String) : String :=
    Decimal.pointed (Decimal.roundDiv (span.nanoseconds * 100) nanoseconds) 2 ++ unit
  if 1000000000 ≤ span.nanoseconds then inUnit 1000000000 "s"
  else if 1000000 ≤ span.nanoseconds then inUnit 1000000 "ms"
  else if 1000 ≤ span.nanoseconds then inUnit 1000 "µs"
  else inUnit 1 "ns"

end Duration

def execRate (trials : Nat) (elapsed : Duration) : Float :=
  let seconds := elapsed.toFloat
  if 0 < seconds then trials.toUInt64.toFloat / seconds else 0

structure Stats where
  elapsed : Duration := ⟨0⟩
  trials : Nat := 0
  validTrials : Nat := 0
  cycles : Nat := 0
  savedInputs : Nat := 0
  favoredInputs : Nat := 0
  totalCoverage : Nat := 0
  validCoverage : Nat := 0
  totalPercent : Float := 0
  validPercent : Float := 0
  intervalRate : Float := 0
  overallRate : Float := 0

namespace Stats

open Decimal (places)

def plotLine (s : Stats) : String :=
  s!"time: {s.elapsed.seconds}, trials: {s.trials}, valid: {s.validTrials}, "
    ++ s!"fuzz_cycle: {s.cycles}, saved_inputs: {s.savedInputs}, total_cov: {places 2 s.totalPercent}%, "
    ++ s!"valid_cov: {places 2 s.validPercent}%, fps: {places 2 s.intervalRate}"

def summary (s : Stats) : String :=
  s!"elapsed {s.elapsed.seconds}s | trials {s.trials} ({s.validTrials} valid) | "
    ++ s!"cycles {s.cycles} | queue {s.savedInputs} ({s.favoredInputs} favored) | "
    ++ s!"cov {s.totalCoverage} ({places 2 s.totalPercent}%) "
    ++ s!"valid {s.validCoverage} ({places 2 s.validPercent}%) | "
    ++ s!"{places 2 s.intervalRate} exec/s ({places 2 s.overallRate} overall)"

end Stats

def statusLine (trials coverage : Nat) (rate : Float) (inputSize : Nat) : String :=
  s!"#{trials}\tNEW\tcov: {coverage} exec/s: {Decimal.places 0 rate} L: {inputSize}"

end Greybox
