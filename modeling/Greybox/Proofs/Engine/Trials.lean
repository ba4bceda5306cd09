import Greybox.Proofs.Engine.Deposit
import Greybox.Proofs.Engine.StatusLines

namespace Greybox

namespace Input

theorem error_of_trim {input : Input} {cause : InputError} (h : input.trim.1 = .error cause) :
    cause = .emptyAfterTrim := by
  cases hstream : input.stream with
  | generated generated =>
    simp only [trim, hstream, Stream.trim, GeneratedInput.trim] at h
    split at h <;> simp_all
  | seed seed =>
    simp only [trim, hstream, Stream.trim, SeedInput.trim] at h
    split at h <;> simp_all

end Input

namespace Engine

open Storage (NeverFails)

variable {σ ρ : Type} {engine : Engine σ ρ} {input : Input} {run : Coverage} {valid : Bool}

theorem trials_nextInput [WordSource ρ] (engine : Engine σ ρ) :
    engine.nextInput.2.trials = engine.trials := by
  obtain ⟨random, scheduler, favored, journal, hengine⟩ := schedules_nextInput engine
  rw [hengine]

def budget (engine : Engine σ ρ) : Option Nat × Option Duration :=
  (engine.maxTrials, engine.maxDuration)

theorem budget_nextInput [WordSource ρ] (engine : Engine σ ρ) :
    engine.nextInput.2.budget = engine.budget := by
  obtain ⟨random, scheduler, favored, journal, hengine⟩ := schedules_nextInput engine
  rw [hengine]
  rfl

theorem hasInput_of_budget {n : Nat} (h : engine.budget = (some n, none)) (now : Moment) :
    engine.hasInput now = decide (engine.trials < n) := by
  obtain ⟨htrials, hduration⟩ := Prod.mk.inj h
  simp [hasInput, htrials, hduration]

variable [Storage σ]

theorem budget_reportResult (engine : Engine σ ρ) (now : Moment) (input : Input) (run : Coverage)
    (valid : Bool) :
    (engine.reportResult now input run valid).2.budget = engine.budget := by
  obtain ⟨findings, -, hreaches⟩ := reportResult_reports engine now input run valid
  exact congrArg (fun course => (course.maxTrials, course.maxDuration)) hreaches.course

theorem trials_reportResult (now : Moment) (input : Input) (valid : Bool)
    (hsize : run.size = engine.totalCoverage.size) :
    (engine.reportResult now input run valid).2.trials = engine.trials + 1 :=
  (reportResult_announces engine now input run valid hsize).trials

theorem Takes.findings_of_error {findings findings' : Findings} {store later : σ}
    {error : EngineError} (h : Takes findings store input run valid (.error error) findings' later) :
    findings' = findings := by
  cases h
  rfl

/-- Over a store that never fails, the only report of a saved parent's child to fail is that of an
input without a byte. -/
theorem error_of_reportResult {now : Moment} {error : EngineError}
    (hstore : NeverFails engine.storage) (hsize : run.size = engine.totalCoverage.size)
    (hparent : ∀ parent, input.parent = some parent → parent < engine.corpus.size)
    (h : (engine.reportResult now input run valid).1 = .error error) :
    error = .input .emptyAfterTrim := by
  obtain ⟨findings, hreports, hreaches⟩ := reportResult_reports engine now input run valid
  have htakes := reportResult_takes hstore now run valid hparent
  rw [h] at hreports htakes
  have hkept : findings = engine.findings := hreaches.findings.symm.trans htakes.findings_of_error
  have hcounted : NeverFails (engine.counted input).storage := hstore
  obtain ⟨hlogged, hrecords⟩ := logTrial_records hcounted input.bytes
  cases hreports with
  | mismatched hother => exact absurd hsize hother
  | unlogged hsize hlog =>
    rw [hlog] at hlogged
    cases hlogged
  | ingested hsize hlog hingests =>
    rw [hlog] at hrecords
    cases hingests with
    | empty hverdict hinteresting htrim => rw [Input.error_of_trim htrim]
    | trimmed hverdict hinteresting htrim hsaves =>
      rename_i verdict trimmed
      cases hsaves with
      | lost hrefused =>
        have hlater := hstore.of_leads hrecords.leads
        obtain ⟨path, kept, hkeeps⟩ := hlater.answers.persistInput engine.corpus.nextId
          trimmed.bytes (metadata trimmed verdict)
        cases hrefused.symm.trans hkeeps
      | orphaned hstored horphan =>
        obtain rfl := Input.eq_of_trim htrim
        exact absurd horphan (creditParent_ne_error hparent)
      | saved hstored hcredit hresult =>
        -- A failure after the input was saved would have left the corpus as it was.
        have hcorpus := congrArg (fun findings => findings.corpus.size) hkept
        simp only [Findings.save, Corpus.size_insert, size_creditParent hcredit] at hcorpus
        exact absurd hcorpus (Nat.succ_ne_self _)

end Engine

end Greybox
