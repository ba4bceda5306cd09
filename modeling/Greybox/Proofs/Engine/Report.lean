import Greybox.Engine.Report
import Greybox.Proofs.Input
import Greybox.Proofs.Storage.Calls

namespace Greybox

/-- What a session has found out, which only reports change. -/
structure Findings where
  corpus : Corpus
  feedback : Feedback
  maxCoverage : Nat

def Findings.merge (findings : Findings) (run : Coverage) (valid : Bool) : Findings :=
  { findings with feedback := findings.feedback.commit run valid }

def Findings.save (findings : Findings) (corpus : Corpus) (input : Input) (run : Coverage)
    (verdict : Verdict) (path : String) : Findings :=
  { findings with
    corpus := (corpus.insert (Engine.sealed input run path) verdict.responsibilities).1
    maxCoverage := max findings.maxCoverage run.nonZeroCount }

/-- What decides the coming inputs besides the findings, and what ends the session. No report
changes it. -/
structure Course (ρ : Type) where
  settings : Settings
  maxTrials : Option Nat
  maxDuration : Option Duration
  logAllInputs : Bool
  random : ρ
  seeds : List Input
  scheduler : Scheduler
  favoredLastCycle : Nat
  startTime : Moment

namespace Engine

variable {σ ρ : Type}

def findings (engine : Engine σ ρ) : Findings :=
  ⟨engine.corpus, engine.feedback, engine.maxCoverage⟩

def course (engine : Engine σ ρ) : Course ρ :=
  ⟨engine.settings, engine.maxTrials, engine.maxDuration, engine.logAllInputs, engine.random,
    engine.seeds, engine.scheduler, engine.favoredLastCycle, engine.startTime⟩

variable [Storage σ] {engine engine' engine'' : Engine σ ρ} {findings : Findings}
  {input trimmed : Input} {run : Coverage} {valid : Bool} {verdict : Verdict}

/-- From the first engine the second is reached with the given findings, on the same course, and by
calls to the store. -/
structure Reaches (engine : Engine σ ρ) (findings : Findings) (engine' : Engine σ ρ) : Prop where
  findings : engine'.findings = findings
  course : engine'.course = engine.course
  storage : Storage.Leads engine.storage engine'.storage

/-- Nothing but the store and the record of progress changes. -/
abbrev Progresses (engine engine' : Engine σ ρ) : Prop := engine.Reaches engine.findings engine'

theorem Progresses.refl (engine : Engine σ ρ) : engine.Progresses engine := ⟨rfl, rfl, .refl⟩

theorem Progresses.trans (h : engine.Progresses engine') (h' : engine'.Reaches findings engine'') :
    engine.Reaches findings engine'' :=
  ⟨h'.findings, h'.course.trans h.course, h.storage.trans h'.storage⟩

theorem Reaches.progress (h : engine.Reaches findings engine') (h' : engine'.Progresses engine'') :
    engine.Reaches findings engine'' :=
  ⟨h'.findings.trans h.findings, h'.course.trans h.course, h.storage.trans h'.storage⟩

theorem note_progresses (engine : Engine σ ρ) (event : Event) :
    engine.Progresses (engine.note event) := ⟨rfl, rfl, .refl⟩

theorem notes_progresses {α : Type} (engine : Engine σ ρ) (events : List α) (event : α → Event) :
    engine.Progresses (events.foldl (fun engine e => engine.note (event e)) engine) := by
  induction events generalizing engine with
  | nil => exact .refl engine
  | cons e events ih => exact (note_progresses engine (event e)).trans (ih _)

theorem announce_progresses (engine : Engine σ ρ) (rate : Float) :
    engine.Progresses (engine.announce rate) := by
  rw [announce]
  split
  · exact .refl engine
  · exact ⟨rfl, rfl, .refl⟩

theorem store_progresses {store : σ} (h : Storage.Leads engine.storage store) :
    engine.Progresses { engine with storage := store } := ⟨rfl, rfl, h⟩

theorem refresh_progresses (engine : Engine σ ρ) (now : Moment) :
    engine.Progresses (engine.refresh now).2 := by
  unfold refresh
  extract_lets stats started announced reported
  have hstarted : engine.Progresses started := ⟨rfl, rfl, .refl⟩
  have hreported : engine.Progresses reported :=
    (hstarted.progress (announce_progresses started _)).progress (note_progresses announced _)
  clear_value reported
  split <;> rename_i hcall <;>
    exact hreported.progress (store_progresses (.single (.appendPlotLine hcall)))

theorem displayStats_progresses (engine : Engine σ ρ) (now : Moment) (force : Bool) :
    engine.Progresses (engine.displayStats now force).2 := by
  rw [displayStats]
  split
  · exact .refl engine
  · exact refresh_progresses engine now

theorem publish_progresses (engine : Engine σ ρ) (now : Moment) :
    engine.Progresses (engine.publish now).2 := by
  rw [publish]
  split <;> rename_i storage hcall
  · exact store_progresses (.single (.writeCoverage hcall))
  · have hwritten : engine.Progresses { engine with storage } :=
      store_progresses (.single (.writeCoverage hcall))
    have hshown := hwritten.progress (displayStats_progresses _ now false)
    split
    rename_i hresult
    rwa [hresult] at hshown

theorem logTrial_progresses (engine : Engine σ ρ) (bytes : Bytes) :
    engine.Progresses (engine.logTrial bytes).2 := by
  rw [logTrial]
  split
  · split <;> rename_i hcall <;> exact store_progresses (.single (.logTrial hcall))
  · exact .refl engine

def FailsByStore {α : Type} (result : Except EngineError α) : Prop :=
  ∃ cause, result = .error (.storage cause)

theorem FailsByStore.map {α β : Type} {result : Except EngineError α} (h : FailsByStore result)
    (f : α → β) : FailsByStore (result.map f) := by
  obtain ⟨cause, rfl⟩ := h
  exact ⟨cause, rfl⟩

theorem displayStats_result (engine : Engine σ ρ) (now : Moment) (force : Bool) :
    (∃ shown, (engine.displayStats now force).1 = .ok shown) ∨
      FailsByStore (engine.displayStats now force).1 := by
  rw [displayStats]
  split
  · exact .inl ⟨none, rfl⟩
  · unfold refresh
    extract_lets stats started announced reported
    -- Only the last call can fail, whatever was reported before it.
    clear_value reported
    split
    all_goals
      rename_i heq
      split at heq <;> cases heq
    · exact .inr ⟨_, rfl⟩
    · exact .inl ⟨some stats, rfl⟩

theorem publish_result (engine : Engine σ ρ) (now : Moment) :
    (engine.publish now).1 = .ok () ∨ FailsByStore (engine.publish now).1 := by
  rw [publish]
  split <;> rename_i storage hcall
  · exact .inr ⟨_, rfl⟩
  · split
    rename_i result shown hresult
    have hshown := displayStats_result { engine with storage } now false
    rw [hresult] at hshown
    rcases hshown with ⟨stats, rfl⟩ | hfails
    · exact .inl rfl
    · exact .inr (hfails.map _)

theorem enter_reaches (engine : Engine σ ρ) (now : Moment) (input : Input) (verdict : Verdict) :
    engine.Reaches
      { engine.findings with corpus := (engine.corpus.insert input verdict.responsibilities).1 }
      (engine.enter now input verdict) := by
  rw [enter]
  generalize engine.corpus.insert input verdict.responsibilities = inserted
  obtain ⟨corpus, steals⟩ := inserted
  have hentered : engine.Reaches { engine.findings with corpus }
      { engine with corpus, lastInputSize := input.size } := ⟨rfl, rfl, .refl⟩
  have hstolen := hentered.progress (notes_progresses _ steals (.stolen engine.corpus.nextId))
  exact (hstolen.progress (note_progresses _ _)).progress (announce_progresses _ _)

inductive Saves (findings : Findings) (store : σ) (input : Input) (run : Coverage)
    (verdict : Verdict) : Except EngineError Outcome → Findings → Prop
  /-- The store refuses the input. -/
  | lost {cause : StorageError} {later : σ}
      (hstore : Storage.persistInput store findings.corpus.nextId input.bytes
        (metadata input verdict) = (.error cause, later)) :
      Saves findings store input run verdict (.error (.storage cause)) findings
  /-- The parent of the input is not in the corpus. -/
  | orphaned {path : String} {later : σ} {cause : InputNotFound}
      (hstore : Storage.persistInput store findings.corpus.nextId input.bytes
        (metadata input verdict) = (.ok path, later))
      (hparent : creditParent findings.corpus input.parent = .error cause) :
      Saves findings store input run verdict (.error (.notFound cause))
        { findings with maxCoverage := max findings.maxCoverage run.nonZeroCount }
  /-- The input is in the corpus, even if the progress then cannot be written down. -/
  | saved {path : String} {later : σ} {corpus : Corpus} {result : Except EngineError Outcome}
      (hstore : Storage.persistInput store findings.corpus.nextId input.bytes
        (metadata input verdict) = (.ok path, later))
      (hparent : creditParent findings.corpus input.parent = .ok corpus)
      (hresult : result = .ok (.saved corpus.nextId verdict.reasons) ∨ FailsByStore result) :
      Saves findings store input run verdict result
        (findings.save corpus input run verdict path)

theorem enroll_orphan {cause : InputNotFound} (engine : Engine σ ρ) (now : Moment) (run : Coverage)
    (verdict : Verdict) (path : String)
    (hparent : creditParent engine.corpus input.parent = .error cause) :
    engine.enroll now input run verdict path = (.error (.notFound cause),
      { engine with maxCoverage := max engine.maxCoverage run.nonZeroCount }) := by
  rw [enroll]
  simp only [hparent]

theorem enroll_reaches {corpus : Corpus} (engine : Engine σ ρ) (now : Moment) (run : Coverage)
    (verdict : Verdict) (path : String)
    (hparent : creditParent engine.corpus input.parent = .ok corpus) :
    engine.Reaches (engine.findings.save corpus input run verdict path)
      (engine.enroll now input run verdict path).2 := by
  let credited : Engine σ ρ := { engine with
    corpus, maxCoverage := max engine.maxCoverage run.nonZeroCount }
  have hentered := enter_reaches credited now (sealed input run path) verdict
  have hreaches := hentered.progress (publish_progresses _ now)
  rw [enroll]
  simp only [hparent]
  exact ⟨hreaches.findings, hreaches.course, hreaches.storage⟩

theorem enroll_result {corpus : Corpus} (engine : Engine σ ρ) (now : Moment) (run : Coverage)
    (verdict : Verdict) (path : String)
    (hparent : creditParent engine.corpus input.parent = .ok corpus) :
    (engine.enroll now input run verdict path).1 = .ok (.saved corpus.nextId verdict.reasons) ∨
      FailsByStore (engine.enroll now input run verdict path).1 := by
  let credited : Engine σ ρ := { engine with
    corpus, maxCoverage := max engine.maxCoverage run.nonZeroCount }
  have hresult := publish_result (credited.enter now (sealed input run path) verdict) now
  rw [enroll]
  simp only [hparent]
  rcases hresult with hok | hfails
  · exact .inl (congrArg (Except.map fun _ => Outcome.saved corpus.nextId verdict.reasons) hok)
  · exact .inr (hfails.map _)

theorem save_saves (engine : Engine σ ρ) (now : Moment) (run : Coverage) (verdict : Verdict)
    (hinput : input.isEmpty = false) :
    ∃ findings,
      Saves engine.findings engine.storage input run verdict (engine.save now input run verdict).1
        findings ∧
      engine.Reaches findings (engine.save now input run verdict).2 := by
  rw [save]
  rw [hinput, if_neg Bool.false_ne_true]
  split <;> rename_i storage hstore
  · exact ⟨_, .lost hstore, store_progresses (.single (.persistInput hstore))⟩
  · rename_i path
    have hpersisted : engine.Progresses { engine with storage } :=
      store_progresses (.single (.persistInput hstore))
    cases hparent : creditParent engine.corpus input.parent with
    | error cause =>
      rw [enroll_orphan { engine with storage } now run verdict path hparent]
      exact ⟨_, .orphaned hstore hparent, rfl, rfl, hpersisted.storage⟩
    | ok corpus =>
      have hresult := enroll_result { engine with storage } now run verdict path hparent
      have hreaches := enroll_reaches { engine with storage } now run verdict path hparent
      exact ⟨_, .saved hstore hparent hresult, hpersisted.trans hreaches⟩

def verdict? (findings : Findings) (saveOnlyValid : Bool) (input : Input) (run : Coverage)
    (valid : Bool) : Option Verdict :=
  if valid then some (findings.feedback.assess run true)
  else if input.isSeed then some (findings.feedback.absorbInvalidSeed run).1
  else if saveOnlyValid then none
  else some (findings.feedback.assess run false)

theorem eq_of_verdict? {saveOnlyValid : Bool}
    (h : verdict? findings saveOnlyValid input run valid = some verdict) :
    verdict = findings.feedback.assess run valid ∨
      valid = false ∧ input.isSeed = true ∧
        verdict = (findings.feedback.absorbInvalidSeed run).1 := by
  rw [verdict?] at h
  cases valid with
  | true => exact .inl (Option.some.inj h).symm
  | false =>
    simp only [Bool.false_eq_true, if_false] at h
    split at h <;> rename_i hseed
    · exact .inr ⟨rfl, hseed, (Option.some.inj h).symm⟩
    · split at h
      · cases h
      · exact .inl (Option.some.inj h).symm

theorem responsibilities_of_verdict? {saveOnlyValid : Bool}
    (h : verdict? findings saveOnlyValid input run valid = some verdict) :
    verdict.responsibilities = findings.feedback.claims run valid := by
  rcases eq_of_verdict? h with rfl | ⟨rfl, -, rfl⟩
  · rfl
  · rfl

inductive Ingests (findings : Findings) (saveOnlyValid : Bool) (store : σ) (input : Input)
    (run : Coverage) (valid : Bool) : Except EngineError Outcome → Findings → Prop
  | ignored (hverdict : verdict? findings saveOnlyValid input run valid = none) :
      Ingests findings saveOnlyValid store input run valid (.ok .ignored) findings
  | discarded {verdict : Verdict}
      (hverdict : verdict? findings saveOnlyValid input run valid = some verdict)
      (hdull : verdict.isInteresting = false) :
      Ingests findings saveOnlyValid store input run valid (.ok .discarded)
        (findings.merge run valid)
  | empty {verdict : Verdict} {cause : InputError}
      (hverdict : verdict? findings saveOnlyValid input run valid = some verdict)
      (hinteresting : verdict.isInteresting = true) (htrim : input.trim.1 = .error cause) :
      Ingests findings saveOnlyValid store input run valid (.error (.input cause)) findings
  | trimmed {verdict : Verdict} {trimmed : Input} {result : Except EngineError Outcome}
      {findings' : Findings}
      (hverdict : verdict? findings saveOnlyValid input run valid = some verdict)
      (hinteresting : verdict.isInteresting = true) (htrim : input.trim = (.ok (), trimmed))
      (hsaves : Saves (findings.merge run valid) store trimmed run verdict result findings') :
      Ingests findings saveOnlyValid store input run valid result findings'

theorem ingestJudged_ingests (engine : Engine σ ρ) (now : Moment) (saveOnlyValid : Bool)
    (hverdict : verdict? engine.findings saveOnlyValid input run valid =
      some (engine.feedback.assess run valid)) :
    ∃ findings,
      Ingests engine.findings saveOnlyValid engine.storage input run valid
        (engine.ingestJudged now input run valid).1 findings ∧
      engine.Reaches findings (engine.ingestJudged now input run valid).2 := by
  unfold ingestJudged
  simp only
  cases hinteresting : (engine.feedback.assess run valid).isInteresting with
  | false => exact ⟨_, .discarded hverdict hinteresting, rfl, rfl, .refl⟩
  | true =>
    simp only [if_true]
    split <;> rename_i htrim
    · exact ⟨_, .empty hverdict hinteresting (congrArg Prod.fst htrim), Progresses.refl engine⟩
    · obtain ⟨findings, hsaves, hreaches⟩ := save_saves
        { engine with feedback := engine.feedback.commit run valid } now run
        (engine.feedback.assess run valid) (Input.isEmpty_of_trim htrim)
      exact ⟨findings, .trimmed hverdict hinteresting htrim hsaves, hreaches.findings,
        hreaches.course, hreaches.storage⟩

theorem ingestInvalidSeed_ingests (engine : Engine σ ρ) (now : Moment) (saveOnlyValid : Bool)
    (hverdict : verdict? engine.findings saveOnlyValid input run false =
      some (engine.feedback.absorbInvalidSeed run).1) :
    ∃ findings,
      Ingests engine.findings saveOnlyValid engine.storage input run false
        (engine.ingestInvalidSeed now input run).1 findings ∧
      engine.Reaches findings (engine.ingestInvalidSeed now input run).2 := by
  rw [ingestInvalidSeed]
  split <;> rename_i htrim
  · exact ⟨_, .empty hverdict rfl (congrArg Prod.fst htrim), Progresses.refl engine⟩
  · obtain ⟨findings, hsaves, hreaches⟩ := save_saves
      { engine with feedback := engine.feedback.commit run false } now run
      (engine.feedback.absorbInvalidSeed run).1 (Input.isEmpty_of_trim htrim)
    exact ⟨findings, .trimmed hverdict rfl htrim hsaves, hreaches.findings, hreaches.course,
      hreaches.storage⟩

theorem ingest_ingests (engine : Engine σ ρ) (now : Moment) (input : Input) (run : Coverage)
    (valid : Bool) :
    ∃ findings,
      Ingests engine.findings engine.settings.saveOnlyValid engine.storage input run valid
        (engine.ingest now input run valid).1 findings ∧
      engine.Reaches findings (engine.ingest now input run valid).2 := by
  rw [ingest]
  cases valid with
  | true =>
    have hverdict : verdict? engine.findings engine.settings.saveOnlyValid input run true =
        some (engine.feedback.assess run true) := rfl
    obtain ⟨findings, hingests, hreaches⟩ := ingestJudged_ingests
      { engine with validTrials := engine.validTrials + 1 } now _ hverdict
    exact ⟨findings, hingests, hreaches.findings, hreaches.course, hreaches.storage⟩
  | false =>
    simp only [Bool.false_eq_true, if_false]
    split <;> rename_i hseed
    · exact ingestInvalidSeed_ingests engine now _ (by simp [verdict?, hseed, findings])
    · split <;> rename_i honly
      · exact ⟨_, .ignored (by simp [verdict?, hseed, honly]), note_progresses engine _⟩
      · exact ingestJudged_ingests engine now _ (by simp [verdict?, hseed, honly, findings])

def counted (engine : Engine σ ρ) (input : Input) : Engine σ ρ :=
  { engine with trials := engine.trials + 1, lastInputSize := input.size }

/-- What becomes of the findings when an input is taken back. -/
inductive Reports (engine : Engine σ ρ) (input : Input) (run : Coverage) (valid : Bool) :
    Except EngineError Outcome → Findings → Prop
  | mismatched (hsize : run.size ≠ engine.totalCoverage.size) :
      Reports engine input run valid
        (.error (.coverageSizeMismatch engine.totalCoverage.size run.size)) engine.findings
  | unlogged {error : EngineError} {later : Engine σ ρ}
      (hsize : run.size = engine.totalCoverage.size)
      (hlog : (engine.counted input).logTrial input.bytes = (.error error, later)) :
      Reports engine input run valid (.error error) engine.findings
  | ingested {logged : Engine σ ρ} {result : Except EngineError Outcome} {findings : Findings}
      (hsize : run.size = engine.totalCoverage.size)
      (hlog : (engine.counted input).logTrial input.bytes = (.ok (), logged))
      (hingests : Ingests engine.findings engine.settings.saveOnlyValid logged.storage
        { input with valid } run valid result findings) :
      Reports engine input run valid result findings

theorem reportResult_reports (engine : Engine σ ρ) (now : Moment) (input : Input) (run : Coverage)
    (valid : Bool) :
    ∃ findings,
      engine.Reports input run valid (engine.reportResult now input run valid).1 findings ∧
      engine.Reaches findings (engine.reportResult now input run valid).2 := by
  rw [reportResult]
  simp only
  split <;> rename_i hsize
  · have hcounted : engine.Progresses (engine.counted input) := ⟨rfl, rfl, .refl⟩
    have hlogged := hcounted.progress (logTrial_progresses _ input.bytes)
    split <;> rename_i later hlog <;> rw [counted, hlog] at hlogged
    · exact ⟨_, .unlogged hsize hlog, hlogged⟩
    · obtain ⟨findings, hingests, hreaches⟩ :=
        ingest_ingests later now { input with valid } run valid
      have hsettings : later.settings = engine.settings := congrArg Course.settings hlogged.course
      rw [hlogged.findings, hsettings] at hingests
      exact ⟨findings, .ingested hsize hlog hingests, Progresses.trans hlogged hreaches⟩
  · exact ⟨_, .mismatched hsize, Progresses.refl engine⟩

end Engine

end Greybox
