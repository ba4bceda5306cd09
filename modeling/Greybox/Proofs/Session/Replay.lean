import Greybox.Proofs.Session.Sound
import Greybox.Proofs.Target.Replay
import Greybox.Storage.Memory

namespace Greybox

/-- Every input is executed once and comes back with its execution. Seeds are fresh, and reading
them does not fail. -/
def Conduct.executing (target : Target) (mapSize : Nat) : Conduct where
  seeds seed := ∃ origin source, source.Reliable ∧ seed = .ofSource origin source
  reports handed returned run valid := ∃ status,
    target.execute mapSize handed = (returned, ⟨status, run⟩) ∧ valid = status.isValid

theorem Conduct.onlyPulls_executing (target : Target) (mapSize : Nat) :
    (executing target mapSize).OnlyPulls := by
  rintro handed returned run valid ⟨status, hexecute, -⟩
  have hpulls := target.run_pulls (.start handed) (.zero mapSize)
  have hreturned : (target.execute mapSize handed).1 = returned := congrArg Prod.fst hexecute
  rwa [← hreturned]

theorem Conduct.Issues.delivered {target : Target} {mapSize saved : Nat} {limits : Limits}
    {input : Input} (h : (executing target mapSize).Issues limits saved input) :
    input.stream.Delivered [] := by
  cases h with
  | seed hseed =>
    obtain ⟨origin, source, hreliable, rfl⟩ := hseed
    refine ⟨rfl, ?_⟩
    intro source' hsource
    cases hsource
    exact hreliable
  | fresh | child => exact ⟨rfl, List.take_zero⟩

/-- Executing the target on a fresh seed over the bytes of the entry gives the stored snapshot and
validity, and uses up the bytes. -/
def Input.Reproduces (target : Target) (mapSize : Nat) (entry : Input) : Prop :=
  ∀ origin, ∃ replayed status run,
    target.execute mapSize (.ofSeed (.ofSource origin (.ofBytes entry.bytes))) =
      (replayed, ⟨status, run⟩) ∧
    entry.coverage = some run ∧ entry.valid = status.isValid ∧
    replayed.bytes = entry.bytes ∧ replayed.requested = entry.size

namespace Input.Reproduces

variable {target : Target} {mapSize : Nat}

theorem stable (target : Target) (mapSize : Nat) :
    Corpus.Stable fun _ entry => entry.Reproduces target mapSize where
  release _ h := h
  credit _ h := h

theorem of_execute {handed returned trimmed : Input} {run : Coverage} {valid : Bool} {id : Nat}
    {claims : PointSet} (path : String) (hhanded : handed.stream.Delivered [])
    (hreports : (Conduct.executing target mapSize).reports handed returned run valid)
    (htrim : Input.trim { returned with valid } = (.ok (), trimmed)) :
    ((Engine.sealed trimmed run path).asEntry id claims).Reproduces target mapSize := by
  obtain ⟨status, hexecute, rfl⟩ := hreports
  intro origin
  obtain ⟨replayed, hreplay, hbytes, hrequested⟩ :=
    target.execute_replays mapSize hhanded origin
  rw [hexecute] at hreplay hbytes hrequested
  obtain rfl := eq_of_trim htrim
  exact ⟨replayed, status, run, hreplay, rfl, rfl, hbytes, hrequested⟩

end Input.Reproduces

namespace Session

variable {σ ρ : Type} [Storage σ] [WordSource ρ] {target : Target} {mapSize : Nat}
  {settings : Settings} {storage : σ} {session session' : Session σ ρ}

theorem Step.reproduces (hstep : Step (.executing target mapSize) session session')
    (hsound : session.Sound (.executing target mapSize) settings storage)
    (h : session.engine.corpus.Each fun _ entry => entry.Reproduces target mapSize) :
    session'.engine.corpus.Each fun _ entry => entry.Reproduces target mapSize := by
  rcases hstep.findings with hsame | ⟨_, handed, _, _, _, _, _, hhanded, hreports, hresult⟩
  · have hcorpus : session'.engine.corpus = session.engine.corpus :=
      congrArg Findings.corpus hsame
    rwa [hcorpus]
  · have hdelivered := (hsound.outstanding handed (mem_outstanding hhanded)).delivered
    apply hresult.enrolls.each h (Input.Reproduces.stable target mapSize)
    intro trimmed path htrim
    exact .of_execute path hdelivered hreports htrim

/-- In a session that runs one target on every input, executing the target on the bytes of a saved
input gives the snapshot and the validity it was saved with, and uses up the bytes. -/
theorem Reachable.saved_inputs_reproduce
    (h : Reachable (.executing target settings.coverageMapSize) settings storage session) :
    session.engine.corpus.Each fun _ entry =>
      entry.Reproduces target settings.coverageMapSize := by
  induction h with
  | start maxTrials maxDuration logAllInputs hstart =>
    obtain ⟨-, rfl⟩ := eq_of_start hstart
    exact Corpus.each_empty
  | step hreachable hstep ih =>
    exact hstep.reproduces (hreachable.sound (Conduct.onlyPulls_executing _ _)) ih

def sampleTarget : Target := .pull fun
  | .byte _ => .hit 1 (.finish true)
  | _ => .finish false

def executed : Session MemoryStore ChaCha :=
  let (returned, execution) := sampleTarget.execute 4 (.ofSeed sampleSeed)
  (sampleGiven ∅).report [] 0 returned execution.coverage execution.status.isValid

theorem saved_inputs_reproduce_executed :
    ∃ entry, executed.engine.corpus.get? 0 = some entry ∧
      entry.Reproduces sampleTarget sampleSettings.coverageMapSize := by
  have hgiven : Reachable (.executing sampleTarget sampleSettings.coverageMapSize) sampleSettings ∅
      (sampleGiven (∅ : MemoryStore)) :=
    sampleGiven_reachable ∅ ⟨_, _, ByteSource.reliable_ofBytes _, rfl⟩
  have hexecuted : Reachable (.executing sampleTarget sampleSettings.coverageMapSize) sampleSettings ∅
      executed :=
    hgiven.step (.report 0 (sampleGiven_outstanding ∅) ⟨_, rfl, rfl⟩)
  have hsaved : 0 < executed.engine.corpus.size := by decide +kernel
  obtain ⟨entry, hentry⟩ := Corpus.exists_get? hsaved
  exact ⟨entry, hentry, hexecuted.saved_inputs_reproduce 0 entry hentry⟩

end Session

end Greybox
