import Greybox.Coverage
import Greybox.Decimal.Shortest
import Greybox.Input.Generated
import Greybox.Mutation.Havoc
import Greybox.Schedule
import Greybox.Stats

namespace Greybox

structure Settings where
  coverageMapSize : Nat := Coverage.defaultSize
  maxInputSize : Nat := 10240
  generateEofWhenOut : Bool := true
  numChildrenBaseline : Nat := 100
  numChildrenMultiplierFavored : Nat := 40
  spliceProbability : Float := 0.1
  meanMutationCount : Float := 4
  meanMutationSize : Float := 1
  constantMutationSize : Bool := true
  zeroFillProbability : Float := 0.1
  validityFuzzing : Bool := true
  saveOnlyValid : Bool := false
  disableSaveNewCounts : Bool := false
  /-- A mismatch between owned and covered points is a warning and no error. -/
  multithreaded : Bool := true
  statsRefreshMs : Nat := 300

inductive SettingsError where
  | notAProbability (name : String) (value : Float)
  | meanBelowOne (name : String) (value : Float)
  | zeroSize (name : String)

def SettingsError.message : SettingsError → String
  | notAProbability name value =>
    s!"Setting '{name}' must be a probability in [0, 1], got {Decimal.shortest value}"
  | meanBelowOne name value =>
    s!"Setting '{name}' must be at least 1.0, got {Decimal.shortest value}"
  | zeroSize name => s!"Setting '{name}' must be greater than zero"

namespace Settings

def checkProbability (name : String) (value : Float) : Except SettingsError Unit :=
  if Random.IsProbability value then .ok () else .error (.notAProbability name value)

def checkMean (name : String) (value : Float) : Except SettingsError Unit :=
  if value.isNaN || value < 1 then .error (.meanBelowOne name value) else .ok ()

def checkSize (name : String) (value : Nat) : Except SettingsError Unit :=
  if value = 0 then .error (.zeroSize name) else .ok ()

def validate (s : Settings) : Except SettingsError Unit := do
  checkProbability "splice-probability" s.spliceProbability
  checkProbability "zero-fill-probability" s.zeroFillProbability
  checkMean "mean-mutation-count" s.meanMutationCount
  checkMean "mean-mutation-size" s.meanMutationSize
  checkSize "coverage-map-size" s.coverageMapSize
  checkSize "max-input-size" s.maxInputSize

def limits (s : Settings) : Limits := ⟨s.maxInputSize, s.generateEofWhenOut⟩

def schedule (s : Settings) : PowerSchedule :=
  ⟨s.numChildrenBaseline, s.numChildrenMultiplierFavored⟩

def havoc (s : Settings) : Havoc :=
  ⟨s.meanMutationCount, s.meanMutationSize, s.constantMutationSize, s.zeroFillProbability⟩

def refreshPeriod (s : Settings) : Duration := .ofMilliseconds s.statsRefreshMs

end Settings

end Greybox
