import Greybox.Coverage

namespace Greybox

inductive SaveReason where
  | initialSeed
  | newCounts
  | newCoverage
  | newValid
  deriving DecidableEq

namespace SaveReason

def text : SaveReason → String
  | initialSeed => "initial_seed"
  | newCounts => "+count"
  | newCoverage => "+cov"
  | newValid => "+valid"

def joined (reasons : List SaveReason) : String := " ".intercalate (reasons.map text)

end SaveReason

/-- What a run is worth: the points it may claim, and the reasons to save it. -/
structure Verdict where
  responsibilities : PointSet
  reasons : List SaveReason
  deriving DecidableEq

def Verdict.isInteresting (verdict : Verdict) : Bool := !verdict.reasons.isEmpty

/-- The union of all runs and the union of the valid ones, with the rules for saving. A run is
judged by the unions before it is merged into them. -/
structure Feedback where
  total : Coverage
  valid : Coverage
  /-- New points of valid runs are a reason to save. -/
  validityFuzzing : Bool
  /-- New counts alone are no reason to save. -/
  ignoreNewCounts : Bool
  deriving DecidableEq

namespace Feedback

def start (mapSize : Nat) (validityFuzzing ignoreNewCounts : Bool) : Feedback :=
  ⟨.zero mapSize, .zero mapSize, validityFuzzing, ignoreNewCounts⟩

def newValidPoints (feedback : Feedback) (run : Coverage) (valid : Bool) : PointSet :=
  if valid then run.newPoints feedback.valid else ∅

def claims (feedback : Feedback) (run : Coverage) (valid : Bool) : PointSet :=
  run.newPoints feedback.total ∪ feedback.newValidPoints run valid

def assess (feedback : Feedback) (run : Coverage) (valid : Bool) : Verdict :=
  let newTotal := run.newPoints feedback.total
  let newValid := feedback.newValidPoints run valid
  let counts := !feedback.ignoreNewCounts && feedback.total.wouldChange run
  { responsibilities := newTotal ∪ newValid
    reasons :=
      (if counts then [.newCounts] else [])
        ++ (if newTotal.isEmpty then [] else [.newCoverage])
        ++ (if feedback.validityFuzzing && !newValid.isEmpty then [.newValid] else []) }

def commit (feedback : Feedback) (run : Coverage) (valid : Bool) : Feedback :=
  { feedback with
    total := (feedback.total.merge run).1
    valid := if valid then (feedback.valid.merge run).1 else feedback.valid }

def evaluate (feedback : Feedback) (run : Coverage) (valid : Bool) : Verdict × Feedback :=
  (feedback.assess run valid, feedback.commit run valid)

def absorbInvalidSeed (feedback : Feedback) (run : Coverage) : Verdict × Feedback :=
  (⟨feedback.claims run false, [.initialSeed]⟩, feedback.commit run false)

end Feedback

end Greybox
