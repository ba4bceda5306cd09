import Greybox.Settings
import Greybox.Text.Quoted
import Greybox.Toml.Document

namespace Greybox

structure FuzzerSettings where
  maxTrials : Option Nat := none
  maxDurationSeconds : Option Nat := none
  threads : Nat := 1
  rngSeed : Option Nat := none

def FuzzerSettings.maxDuration (settings : FuzzerSettings) : Option Duration :=
  settings.maxDurationSeconds.map .ofSeconds

structure CorpusSettings where
  outputDir : String := "./fuzz-results"
  seedPaths : List String := []
  logAllInputs : Bool := false

structure Config where
  fuzzer : FuzzerSettings := {}
  corpus : CorpusSettings := {}
  guidance : Settings := {}

inductive ConfigError where
  | unreadable (path reason : String)
  | malformed (path : String)
  | refused (path : String) (cause : SettingsError)

def ConfigError.message : ConfigError → String
  | unreadable path reason => s!"Failed to read config file at {Text.quotedPath path}: {reason}"
  | malformed path => s!"Failed to parse TOML from config file {Text.quotedPath path}"
  | refused path cause => s!"Invalid configuration in {Text.quotedPath path}: {cause.message}"

namespace Config

open Toml (Value Entries)

def natural : Value → Option Nat
  | .integer (.ofNat n) => some n
  | _ => none

def float : Value → Option Float
  | .integer n => some (if n < 0 then -n.natAbs.toUInt64.toFloat else n.natAbs.toUInt64.toFloat)
  | .float x => some x
  | _ => none

def boolean : Value → Option Bool
  | .boolean b => some b
  | _ => none

def string : Value → Option String
  | .string s => some s
  | _ => none

def strings : Value → Option (List String)
  | .array items => items.mapM string
  | _ => none

structure Field (α : Type) where
  name : String
  apply : α → Value → Option α

def field {α β : Type} (name : String) (read : Value → Option β) (put : α → β → α) : Field α :=
  ⟨name, fun settings value => (read value).map (put settings)⟩

def fuzzerFields : List (Field FuzzerSettings) := [
  field "max-trials" natural fun s v => { s with maxTrials := some v },
  field "max-duration-secs" natural fun s v => { s with maxDurationSeconds := some v },
  field "threads" natural fun s v => { s with threads := v },
  field "rng-seed" natural fun s v => { s with rngSeed := some v }]

def corpusFields : List (Field CorpusSettings) := [
  field "output-dir" string fun s v => { s with outputDir := v },
  field "seed-paths" strings fun s v => { s with seedPaths := v },
  field "log-all-inputs" boolean fun s v => { s with logAllInputs := v }]

def guidanceFields : List (Field Settings) := [
  field "coverage-map-size" natural fun s v => { s with coverageMapSize := v },
  field "max-input-size" natural fun s v => { s with maxInputSize := v },
  field "generate-eof-when-out" boolean fun s v => { s with generateEofWhenOut := v },
  field "num-children-baseline" natural fun s v => { s with numChildrenBaseline := v },
  field "num-children-multiplier-favored" natural fun s v =>
    { s with numChildrenMultiplierFavored := v },
  field "splice-probability" float fun s v => { s with spliceProbability := v },
  field "mean-mutation-count" float fun s v => { s with meanMutationCount := v },
  field "mean-mutation-size" float fun s v => { s with meanMutationSize := v },
  field "constant-mutation-size" boolean fun s v => { s with constantMutationSize := v },
  field "zero-fill-probability" float fun s v => { s with zeroFillProbability := v },
  field "validity-fuzzing" boolean fun s v => { s with validityFuzzing := v },
  field "save-only-valid" boolean fun s v => { s with saveOnlyValid := v },
  field "disable-save-new-counts" boolean fun s v => { s with disableSaveNewCounts := v },
  field "multithreaded" boolean fun s v => { s with multithreaded := v },
  field "stats-refresh-ms" natural fun s v => { s with statsRefreshMs := v }]

def applyEntry {α : Type} (fields : List (Field α)) (current : α) (entry : String × Value) :
    Option α := do
  let field ← fields.find? (·.name = entry.1)
  field.apply current entry.2

/-- Applies the items of an array, which may stand for a section, to the fields in order. Items
beyond the fields are ignored. -/
def applyItems {α : Type} : List (Field α) → α → List Value → Option α
  | field :: fields, current, item :: items => do
    applyItems fields (← field.apply current item) items
  | _, current, _ => some current

def readSection {α : Type} (fields : List (Field α)) (defaults : α) : Value → Option α
  | .table _ entries => entries.foldlM (applyEntry fields) defaults
  | .array items => applyItems fields defaults items
  | .tables items => applyItems fields defaults (items.map (.table .header))
  | _ => none

def sections : List (Field Config) := [
  field "fuzzer" (readSection fuzzerFields {}) fun c v => { c with fuzzer := v },
  field "corpus" (readSection corpusFields {}) fun c v => { c with corpus := v },
  field "guidance" (readSection guidanceFields {}) fun c v => { c with guidance := v }]

def ofText (text : String) : Option Config := do
  (← Toml.parse text).foldlM (applyEntry sections) {}

def ofFileText (path text : String) : Except ConfigError Config :=
  match ofText text with
  | none => .error (.malformed path)
  | some config =>
    match config.guidance.validate with
    | .error cause => .error (.refused path cause)
    | .ok () => .ok config

def ofFileBytes (path : String) (bytes : Bytes) : Except ConfigError Config :=
  match String.fromUTF8? ⟨bytes⟩ with
  | none => .error (.unreadable path "stream did not contain valid UTF-8")
  | some text => ofFileText path text

end Config

end Greybox
