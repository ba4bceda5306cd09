import Greybox.Proofs.Engine.Next
import Greybox.Proofs.Engine.Report
import Greybox.Random.ChaCha

namespace Greybox

structure Report where
  input : Input
  run : Coverage
  valid : Bool
  result : Except EngineError Outcome

structure Session (σ ρ : Type) where
  engine : Engine σ ρ
  outstanding : List Input := []
  reports : List Report := []

/-- What the surroundings of an engine do. -/
structure Conduct where
  seeds : SeedInput → Prop
  /-- What may be reported for an input that was handed out: the input as it comes back, the
  snapshot of its run, and whether that was valid. -/
  reports : (handed returned : Input) → (run : Coverage) → (valid : Bool) → Prop

namespace Conduct

/-- Any seeds are queued, any bytes are pulled from an input, and any result is reported for it. -/
def any : Conduct := ⟨fun _ => True, fun handed returned _ _ => handed.Pulls returned⟩

def OnlyPulls (conduct : Conduct) : Prop :=
  ∀ handed returned run valid, conduct.reports handed returned run valid → handed.Pulls returned

theorem onlyPulls_any : any.OnlyPulls := fun _ _ _ _ h => h

end Conduct

namespace Session

variable {σ ρ : Type}

def addSeed (session : Session σ ρ) (seed : SeedInput) : Session σ ρ :=
  { session with engine := session.engine.addSeed (.ofSeed seed) }

def nextInput [WordSource ρ] (session : Session σ ρ) : Session σ ρ :=
  { session with
    engine := session.engine.nextInput.2
    outstanding := session.outstanding ++ session.engine.nextInput.1.toOption.toList }

variable [Storage σ]

def report (session : Session σ ρ) (outstanding : List Input) (now : Moment) (input : Input)
    (run : Coverage) (valid : Bool) : Session σ ρ :=
  { engine := (session.engine.reportResult now input run valid).2
    outstanding
    reports := session.reports ++
      [⟨input, run, valid, (session.engine.reportResult now input run valid).1⟩] }

def displayStats (session : Session σ ρ) (now : Moment) (force : Bool) : Session σ ρ :=
  { session with engine := (session.engine.displayStats now force).2 }

omit [Storage σ] in
theorem mem_outstanding {session : Session σ ρ} {before after : List Input} {handed : Input}
    (h : session.outstanding = before ++ handed :: after) : handed ∈ session.outstanding := by
  rw [h]
  exact List.mem_append_right before List.mem_cons_self

variable [WordSource ρ]

/-- One operation of a session, whether it succeeds or not. -/
inductive Step (conduct : Conduct) : Session σ ρ → Session σ ρ → Prop
  | addSeed {session : Session σ ρ} {seed : SeedInput} (hseed : conduct.seeds seed) :
      Step conduct session (session.addSeed seed)
  | nextInput {session : Session σ ρ} : Step conduct session session.nextInput
  | report {session : Session σ ρ} {before after : List Input} {handed input : Input}
      {run : Coverage} {valid : Bool} (now : Moment)
      (hhanded : session.outstanding = before ++ handed :: after)
      (hreports : conduct.reports handed input run valid) :
      Step conduct session (session.report (before ++ after) now input run valid)
  | displayStats {session : Session σ ρ} (now : Moment) (force : Bool) :
      Step conduct session (session.displayStats now force)

theorem Step.findings {conduct : Conduct} {session session' : Session σ ρ}
    (h : Step conduct session session') :
    session'.engine.findings = session.engine.findings ∨
      ∃ before handed after input run valid result,
        session.outstanding = before ++ handed :: after ∧
        conduct.reports handed input run valid ∧
        session.engine.Reports input run valid result session'.engine.findings := by
  cases h with
  | addSeed => exact .inl rfl
  | nextInput =>
    obtain ⟨random, scheduler, favored, journal, hengine⟩ :=
      Engine.schedules_nextInput session.engine
    rw [Session.nextInput, hengine]
    exact .inl rfl
  | report now hhanded hreports =>
    rename_i before after handed input run valid
    obtain ⟨findings, hresult, hreaches⟩ :=
      Engine.reportResult_reports session.engine now input run valid
    rw [← hreaches.findings] at hresult
    exact .inr ⟨before, handed, after, input, run, valid, _, hhanded, hreports, hresult⟩
  | displayStats now force =>
    exact .inl (Engine.displayStats_progresses session.engine now force).findings

/-- The state of a session that began with the given settings and store. Several inputs may be out
at a time, and each is reported once at most. -/
inductive Reachable (conduct : Conduct) (settings : Settings) (storage : σ) : Session σ ρ → Prop
  | start {random : ρ} {now : Moment} {engine : Engine σ ρ} (maxTrials : Option Nat)
      (maxDuration : Option Duration) (logAllInputs : Bool)
      (hstart : Engine.start settings storage random now = .ok engine) :
      Reachable conduct settings storage
        { engine := (engine.withBudget maxTrials maxDuration).withTrialLogging logAllInputs }
  | step {session session' : Session σ ρ} (h : Reachable conduct settings storage session)
      (hstep : Step conduct session session') : Reachable conduct settings storage session'

omit [WordSource ρ]

def sampleSettings : Settings := { coverageMapSize := 4, multithreaded := false }

def sampleSeed : SeedInput := .ofSource "seed" (.ofBytes #[7])

def sampleInput : Input := ((Input.ofSeed sampleSeed).next 0).2

def sampleRun : Coverage := ⟨#[0, 1, 0, 0]⟩

def sampleStart (storage : σ) : Session σ ChaCha where
  engine :=
    { settings := sampleSettings
      storage
      random := .ofSeed 0
      feedback := .start 4 true false
      scheduler := { schedule := sampleSettings.schedule }
      startTime := 0
      lastRefresh := 0 }

/-- The small session at its start, with a budget of trials. -/
def sampleLimited (storage : σ) (maxTrials : Nat) : Session σ ChaCha where
  engine := (sampleStart storage).engine.withBudget (some maxTrials) none

theorem sampleLimited_reachable {conduct : Conduct} (storage : σ) (maxTrials : Nat) :
    Reachable conduct sampleSettings storage (sampleLimited storage maxTrials) := by
  have haccepted : Engine.start sampleSettings storage (ChaCha.ofSeed 0) 0 =
    .ok (sampleStart storage).engine := rfl
  exact .start (some maxTrials) none false haccepted

def sampleGiven (storage : σ) : Session σ ChaCha :=
  ((sampleStart storage).addSeed sampleSeed).nextInput

omit [Storage σ] in
theorem sampleGiven_outstanding (storage : σ) :
    (sampleGiven storage).outstanding = [] ++ Input.ofSeed sampleSeed :: [] := rfl

theorem sampleGiven_reachable {conduct : Conduct} (storage : σ) (hseed : conduct.seeds sampleSeed) :
    Reachable conduct sampleSettings storage (sampleGiven storage) := by
  have haccepted : Engine.start sampleSettings storage (ChaCha.ofSeed 0) 0 =
    .ok (sampleStart storage).engine := rfl
  have hstart : Reachable conduct sampleSettings storage (sampleStart storage) :=
    .start none none false haccepted
  exact (hstart.step (.addSeed hseed)).step .nextInput

/-- The session in which the seed is handed out twice and hits the same point twice, in runs of the
given validity. -/
def sampleTwice (storage : σ) (valid valid' : Bool) : Session σ ChaCha :=
  let given := ((sampleGiven storage).addSeed sampleSeed).nextInput
  (given.report [.ofSeed sampleSeed] 0 sampleInput sampleRun valid).report [] 0 sampleInput sampleRun
    valid'

theorem sampleTwice_reachable (storage : σ) (valid valid' : Bool) :
    Reachable .any sampleSettings storage (sampleTwice storage valid valid') := by
  let given := ((sampleGiven storage).addSeed sampleSeed).nextInput
  let reported := given.report [.ofSeed sampleSeed] 0 sampleInput sampleRun valid
  have hgiven : Reachable .any sampleSettings storage given :=
    ((sampleGiven_reachable storage trivial).step (.addSeed trivial)).step .nextInput
  have hpulls : (Input.ofSeed sampleSeed).Pulls sampleInput := .next 0 .refl
  have hboth : given.outstanding = [] ++ Input.ofSeed sampleSeed :: [.ofSeed sampleSeed] := rfl
  have hlast : reported.outstanding = [] ++ Input.ofSeed sampleSeed :: [] := rfl
  exact (hgiven.step (.report 0 hboth hpulls)).step (.report 0 hlast hpulls)

end Session

end Greybox
