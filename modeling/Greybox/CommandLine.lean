import Greybox.Campaign
import Greybox.Config
import Greybox.SeedFiles
import Greybox.Random.ChaCha
import Greybox.Storage.Disk
import Greybox.Target.Demo

namespace Greybox

structure Options where
  configFile : Option String := none
  maxTrials : Option Nat := none
  maxDurationSeconds : Option Nat := none
  outputDir : Option String := none
  seeds : List String := []
  threads : Option Nat := none
  rngSeed : Option Nat := none
  deriving DecidableEq

namespace Options

def number? (text : String) : Option Nat :=
  let digits := match text.toList with
    | '+' :: rest => rest
    | digits => digits
  if digits.isEmpty || !digits.all Char.isDigit then none
  else
    let n := Toml.Scanner.number 10 digits
    if n < UInt64.size then some n else none

/-- The first value of an option; a second one is refused. -/
def once {α : Type} (current : Option α) (value : Option α) : Option (Option α) :=
  match current, value with
  | none, some value => some (some value)
  | _, _ => none

def path? (text : String) : Option String := if text.isEmpty then none else some text

def set (options : Options) (name value : String) : Option Options :=
  match name with
  | "config-file" => do
    return { options with configFile := ← once options.configFile (path? value) }
  | "max-trials" => do return { options with maxTrials := ← once options.maxTrials (number? value) }
  | "max-duration-secs" => do
    return { options with maxDurationSeconds := ← once options.maxDurationSeconds (number? value) }
  | "output-dir" => do return { options with outputDir := ← once options.outputDir (path? value) }
  | "seed" => do return { options with seeds := options.seeds ++ [← path? value] }
  | "threads" => do return { options with threads := ← once options.threads (number? value) }
  | "rng-seed" => do return { options with rngSeed := ← once options.rngSeed (number? value) }
  | _ => none

def longName? : Char → Option String
  | 'c' => some "config-file"
  | 'n' => some "max-trials"
  | 'd' => some "max-duration-secs"
  | 'o' => some "output-dir"
  | 's' => some "seed"
  | 't' => some "threads"
  | _ => none

def named? (argument : String) : Option (String × Option String) :=
  match argument.toList with
  | '-' :: '-' :: name =>
    let value := name.dropWhile (· ≠ '=')
    some (.ofList (name.takeWhile (· ≠ '=')),
      if value.isEmpty then none else some (.ofList (value.drop 1)))
  | '-' :: letter :: value => do
    let name ← longName? letter
    return (name, match value with
      | [] => none
      | '=' :: value => some (.ofList value)
      | value => some (.ofList value))
  | _ => none

def isValue (argument : String) : Bool := argument = "-" || !argument.startsWith "-"

/-- Reads arguments one after the other. Every option takes one value, there are no others, and a
mark that ends the options may only stand at the end. -/
def parseFrom (options : Options) : List String → Option Options
  | [] => some options
  | argument :: rest =>
    if argument = "--" then if rest.isEmpty then some options else none
    else
      match named? argument, rest with
      | some (name, some value), rest => do parseFrom (← options.set name value) rest
      | some (name, none), value :: rest =>
        if isValue value then do parseFrom (← options.set name value) rest else none
      | _, _ => none

def parse (arguments : List String) : Option Options := parseFrom {} arguments

def applyTo (options : Options) (config : Config) : Config :=
  let fuzzer := config.fuzzer
  let threads := options.threads.getD fuzzer.threads
  { fuzzer :=
      { maxTrials := options.maxTrials <|> fuzzer.maxTrials
        maxDurationSeconds := options.maxDurationSeconds <|> fuzzer.maxDurationSeconds
        threads
        rngSeed := options.rngSeed <|> fuzzer.rngSeed }
    corpus := { config.corpus with
      outputDir := options.outputDir.getD config.corpus.outputDir
      seedPaths := if options.seeds.isEmpty then config.corpus.seedPaths else options.seeds }
    guidance := { config.guidance with
      multithreaded := config.guidance.multithreaded || 1 < threads } }

end Options

inductive CommandError where
  | usage
  | config (cause : ConfigError)
  | storage (cause : StorageError)
  | engine (cause : EngineError)

def CommandError.message : CommandError → String
  | usage => "the arguments are not well formed"
  | config cause => cause.message
  | storage cause => cause.message
  | engine cause => cause.message

namespace CommandLine

def defaultConfigFile : String := "covfuzz.toml"

def readConfig (tree : FileTree) (path : String) : Except ConfigError Config :=
  match tree.read path with
  | .error cause => .error (.unreadable path cause.message)
  | .ok bytes => Config.ofFileBytes path bytes

def loadConfig (tree : FileTree) (options : Options) : Event × Except ConfigError Config :=
  match options.configFile with
  | some path => (.loadingConfig path, readConfig tree path)
  | none =>
    if tree.pathExists defaultConfigFile then
      (.loadingDefaultConfig defaultConfigFile, readConfig tree defaultConfigFile)
    else (.noConfig defaultConfigFile, .ok {})

def configPath (options : Options) : String := options.configFile.getD defaultConfigFile

def effectivePlaces (tree : FileTree) (options : Options) : CorpusSettings :=
  (options.applyTo ((loadConfig tree options).2.toOption.getD {})).corpus

abbrev DiskEngine := Engine DiskStore ChaCha

def engineOf (config : Config) (store : DiskStore) (rngSeed : Nat) (now : Moment) :
    Except SettingsError DiskEngine := do
  let engine ← Engine.start config.guidance store (ChaCha.ofSeed rngSeed.toUInt64) now
  return (engine.withBudget config.fuzzer.maxTrials config.fuzzer.maxDuration).withTrialLogging
    config.corpus.logAllInputs

def queueSeeds (engine : DiskEngine) (paths : List String) : Engine.Result DiskStore ChaCha Unit :=
  match engine.addSeedPaths engine.storage.tree paths with
  | (.error error, engine) => (.error error, engine)
  | (.ok 0, engine) =>
    (.ok (), (engine.note .noSeeds).addSeed
      (.ofSeed (.ofSource "<builtin>" (.ofBytes Demo.builtinSeed))))
  | (.ok count, engine) => (.ok (), engine.note (.seedsQueued count))

/-- What a command has come to: the tree it left, what it logged, and its result. -/
structure Report (α : Type) where
  tree : FileTree
  journal : Array Event
  result : Except CommandError α

structure Campaign where
  engine : DiskEngine
  config : Config

def Campaign.mapSize (campaign : Campaign) : Nat := campaign.config.guidance.coverageMapSize

def announcements (config : Config) (rngSeed : Nat) : List Event :=
  (if config.fuzzer.maxTrials.isNone && config.fuzzer.maxDurationSeconds.isNone then [.noBudget]
    else []) ++ [.randomSeed rngSeed]

def launch (tree : FileTree) (config : Config) (rngSeed : Nat) (now : Moment)
    (journal : Array Event) : Report Campaign :=
  match DiskStore.prepare tree config.corpus.outputDir config.corpus.logAllInputs with
  | (.error cause, tree) => ⟨tree, journal, .error (.storage cause)⟩
  | (.ok store, tree) =>
    match engineOf config store rngSeed now with
    | .error cause =>
      ⟨tree, journal, .error (.config (.refused config.corpus.outputDir cause))⟩
    | .ok engine =>
      match queueSeeds { engine with journal } config.corpus.seedPaths with
      | (.error error, engine) => ⟨tree, engine.journal, .error (.engine error)⟩
      | (.ok (), engine) =>
        let engine := engine.note (.starting (max 1 config.fuzzer.threads) config.corpus.outputDir)
        ⟨tree, engine.journal, .ok ⟨engine, config⟩⟩

/-- Prepares the campaign that options describe. The engine's stream is selected by `entropy` unless
the configuration selects it. -/
def setUp (tree : FileTree) (options : Options) (entropy : Nat) (now : Moment) : Report Campaign :=
  match loadConfig tree options with
  | (event, .error cause) => ⟨tree, #[event], .error (.config cause)⟩
  | (event, .ok config) =>
    let config := options.applyTo config
    let rngSeed := config.fuzzer.rngSeed.getD entropy
    launch tree config rngSeed now (event :: announcements config rngSeed).toArray

def Campaign.trial (campaign : Campaign) (now : Moment) : Engine.Result DiskStore ChaCha Unit :=
  campaign.engine.trial Demo.target campaign.mapSize now

def Campaign.finish (campaign : Campaign) (now : Moment) : Engine.Result DiskStore ChaCha Stats :=
  let (result, engine) := campaign.engine.displayStats now true
  (result.map fun _ => engine.stats now, engine)

def closing (elapsed : Duration) (stats : Stats) : String :=
  s!"\nFuzz loop finished in {elapsed.text}.\n{stats.summary}\n"

/-- What comes of a campaign; nothing if its budget is never used up. -/
def Campaign.run (campaign : Campaign) (clock : Nat → Moment) : Option (Report String) := do
  let ofEngine {α : Type} (engine : DiskEngine) (result : Except EngineError α) : Report α :=
    ⟨engine.storage.tree, engine.journal, match result with
      | .ok value => .ok value
      | .error error => .error (.engine error)⟩
  let started := clock campaign.engine.trials
  return match ← campaign.engine.fuzz Demo.target campaign.mapSize clock with
    | (.error error, engine) => ofEngine engine (.error error)
    | (.ok (), engine) =>
      let now := clock engine.trials
      let (result, engine) := { campaign with engine }.finish now
      ofEngine engine (result.map (closing (Engine.since started now)))

def exitCode : Except CommandError String → UInt32
  | .error .usage => 2
  | .error _ => 1
  | .ok _ => 0

def run (tree : FileTree) (arguments : List String) (entropy : Nat) (clock : Nat → Moment) :
    Option (Report String) :=
  match Options.parse arguments with
  | none => some ⟨tree, #[], .error .usage⟩
  | some options =>
    let ready := setUp tree options entropy (clock 0)
    match ready.result with
    | .error error => some ⟨ready.tree, ready.journal, .error error⟩
    | .ok campaign => campaign.run clock

end CommandLine

end Greybox
