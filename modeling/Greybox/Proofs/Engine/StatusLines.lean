import Greybox.Proofs.Engine.Next
import Greybox.Proofs.Engine.Ownership
import Greybox.Proofs.StatusLog

namespace Greybox.Engine

variable {σ ρ : Type}

def statusLines (engine : Engine σ ρ) : List StatusLine :=
  engine.journal.toList.filterMap Event.statusLine?

def statusLog (engine : Engine σ ρ) : StatusLog :=
  ⟨engine.statusLines, engine.trials, engine.lastStatusTrials⟩

def statusLine (engine : Engine σ ρ) (rate : Float) : StatusLine :=
  ⟨engine.trials, engine.totalCoverage.nonZeroCount, rate, engine.lastInputSize⟩

theorem statusLog_note {event : Event} (engine : Engine σ ρ) (h : event.statusLine? = none) :
    (engine.note event).statusLog = engine.statusLog := by
  simp [statusLog, statusLines, note, h]

theorem statusLog_notes {α : Type} (engine : Engine σ ρ) (events : List α) (event : α → Event)
    (h : ∀ e, (event e).statusLine? = none) :
    (events.foldl (fun engine e => engine.note (event e)) engine).statusLog = engine.statusLog := by
  induction events generalizing engine with
  | nil => rfl
  | cons e events ih => exact (ih _).trans (statusLog_note engine (h e))

theorem statusLog_announce (engine : Engine σ ρ) (rate : Float) :
    (engine.announce rate).statusLog = engine.statusLog.announce (engine.statusLine rate) := by
  rw [announce, StatusLog.announce]
  change (if engine.lastStatusTrials = some engine.trials then _ else _ : Engine σ ρ).statusLog =
    if engine.lastStatusTrials = some engine.trials then _ else _
  split
  · rfl
  · simp [statusLog, statusLines, note, Event.statusLine?, statusLine]

theorem statusLog_reviewFavored (engine : Engine σ ρ) :
    engine.reviewFavored.statusLog = engine.statusLog := by
  have hnotes := statusLog_notes (engine.note (.cycleCompleted engine.scheduler.cycles.toNat))
    engine.favoredInputs (fun input => .responsible (input.id.getD 0) input.responsibilityCount)
    fun _ => rfl
  exact (statusLog_note _ rfl).trans (hnotes.trans (statusLog_note engine rfl))

theorem statusLog_completeCycleIf (engine : Engine σ ρ) (completed : Bool) :
    (engine.completeCycleIf completed).2.statusLog = engine.statusLog := by
  rw [completeCycleIf]
  split
  · simp only [completeCycle]
    split
    · exact statusLog_reviewFavored engine
    · exact (statusLog_note _ rfl).trans (statusLog_reviewFavored engine)
  · rfl

section

variable [WordSource ρ]

theorem statusLog_breed (engine : Engine σ ρ) (id : Nat) (parent : Input) :
    (engine.breed id parent).2.statusLog = engine.statusLog := by
  rw [breed]
  split
  · rfl
  · exact statusLog_note _ rfl

theorem statusLog_derive (engine : Engine σ ρ) :
    engine.derive.2.statusLog = engine.statusLog := by
  rw [derive]
  split
  · rfl
  · rename_i selection scheduler hselect
    have hcycle := statusLog_completeCycleIf { engine with scheduler } selection.completedCycle
    split <;> rename_i heq <;> rw [heq] at hcycle
    · exact hcycle
    · split
      · exact hcycle
      · exact (statusLog_breed _ _ _).trans hcycle

theorem statusLog_nextInput (engine : Engine σ ρ) :
    engine.nextInput.2.statusLog = engine.statusLog := by
  rw [nextInput]
  split
  · exact statusLog_note _ rfl
  · split
    · exact statusLog_note engine rfl
    · exact statusLog_derive engine

end

variable [Storage σ]

theorem statusLog_refresh (engine : Engine σ ρ) (now : Moment) :
    (engine.refresh now).2.statusLog =
      engine.statusLog.announce (engine.statusLine (engine.stats now).intervalRate) := by
  unfold refresh
  extract_lets stats started announced reported
  have hreported : reported.statusLog =
      engine.statusLog.announce (engine.statusLine stats.intervalRate) :=
    (statusLog_note announced rfl).trans (statusLog_announce started _)
  clear_value reported
  split <;> exact hreported

/-- A refresh is forced, or the last one was at least the refresh period ago. -/
def RefreshDue (engine : Engine σ ρ) (now : Moment) (force : Bool) : Prop :=
  force = true ∨
    engine.settings.refreshPeriod.nanoseconds ≤ (since engine.lastRefresh now).nanoseconds

omit [Storage σ] in
theorem refreshDue_iff {engine : Engine σ ρ} {now : Moment} {force : Bool} :
    engine.RefreshDue now force ↔ ¬ (!force && engine.isFresh now) = true := by
  rw [RefreshDue, isFresh]
  cases force <;> simp

theorem displayStats_of_not_due {engine : Engine σ ρ} {now : Moment} {force : Bool}
    (h : ¬ engine.RefreshDue now force) : engine.displayStats now force = (.ok none, engine) := by
  rw [refreshDue_iff, Classical.not_not] at h
  rw [displayStats, if_pos h]

theorem displayStats_of_due {engine : Engine σ ρ} {now : Moment} {force : Bool}
    (h : engine.RefreshDue now force) : engine.displayStats now force =
      ((engine.refresh now).1.map some, (engine.refresh now).2) := by
  rw [refreshDue_iff] at h
  rw [displayStats, if_neg h]

theorem sound_displayStats (engine : Engine σ ρ) (now : Moment) (force : Bool)
    (h : engine.statusLog.Sound) : (engine.displayStats now force).2.statusLog.Sound := by
  by_cases hdue : engine.RefreshDue now force
  · rw [displayStats_of_due hdue, statusLog_refresh]
    exact h.announce rfl
  · rwa [displayStats_of_not_due hdue]

theorem statusLog_displayStats_of_last {engine : Engine σ ρ}
    (h : engine.statusLog.last = some engine.statusLog.trials) (now : Moment) (force : Bool) :
    (engine.displayStats now force).2.statusLog = engine.statusLog := by
  by_cases hdue : engine.RefreshDue now force
  · rw [displayStats_of_due hdue]
    exact (statusLog_refresh engine now).trans (StatusLog.announce_of_last h _)
  · rw [displayStats_of_not_due hdue]

theorem displayStats_eq_ok_none (engine : Engine σ ρ) (now : Moment) (force : Bool) :
    (engine.displayStats now force).1 = .ok none ↔ ¬ engine.RefreshDue now force := by
  by_cases hdue : engine.RefreshDue now force
  · rw [displayStats_of_due hdue]
    cases hresult : (engine.refresh now).1 <;> simp [hdue, Except.map]
  · rw [displayStats_of_not_due hdue]
    exact iff_of_true rfl hdue

theorem statusLines_refresh {engine : Engine σ ρ} (hsound : engine.statusLog.Sound) (now : Moment) :
    ((∃ line ∈ engine.statusLines, line.trials = engine.trials) ∧
      (engine.refresh now).2.statusLines = engine.statusLines) ∨
    ((∀ line ∈ engine.statusLines, line.trials ≠ engine.trials) ∧
      ∃ rate, (engine.refresh now).2.statusLines =
        engine.statusLines ++ [engine.statusLine rate]) := by
  have hlines := congrArg StatusLog.lines (statusLog_refresh engine now)
  rcases hsound.lines_announce (engine.statusLine (engine.stats now).intervalRate) with
    ⟨hold, hsame⟩ | ⟨hnew, hmore⟩
  · exact .inl ⟨hold, hlines.trans hsame⟩
  · exact .inr ⟨hnew, _, hlines.trans hmore⟩

omit [Storage σ] in
theorem statusLog_enter (engine : Engine σ ρ) (now : Moment) (input : Input) (verdict : Verdict) :
    (engine.enter now input verdict).statusLog = engine.statusLog.announce
      ⟨engine.trials, engine.totalCoverage.nonZeroCount,
        execRate engine.trials (since engine.startTime now), input.size⟩ := by
  rw [enter]
  generalize engine.corpus.insert input verdict.responsibilities = inserted
  obtain ⟨corpus, steals⟩ := inserted
  let moved : Engine σ ρ := { engine with corpus, lastInputSize := input.size }
  have hnotes := statusLog_notes moved steals (.stolen engine.corpus.nextId) fun _ => rfl
  obtain ⟨journal, hstolen⟩ := exists_notes moved steals (.stolen engine.corpus.nextId)
  simp only
  rw [hstolen] at hnotes ⊢
  rw [statusLog_announce]
  -- Of the moved engine the line tells, as the notes change only the journal.
  exact congrArg (StatusLog.announce · _) ((statusLog_note _ rfl).trans hnotes)

theorem statusLog_publish (engine : Engine σ ρ) (now : Moment)
    (hlogged : engine.statusLog.last = some engine.statusLog.trials) :
    (engine.publish now).2.statusLog = engine.statusLog := by
  rw [publish]
  split <;> rename_i storage hcall
  · rfl
  · have hlogged' : { engine with storage }.statusLog.last =
        some { engine with storage }.statusLog.trials := hlogged
    exact statusLog_displayStats_of_last hlogged' now false

theorem statusLog_enroll {corpus : Corpus} (engine : Engine σ ρ) (now : Moment) (input : Input)
    (run : Coverage) (verdict : Verdict) (path : String)
    (hparent : creditParent engine.corpus input.parent = .ok corpus) :
    (engine.enroll now input run verdict path).2.statusLog = engine.statusLog.announce
      ⟨engine.trials, engine.totalCoverage.nonZeroCount,
        execRate engine.trials (since engine.startTime now), input.size⟩ := by
  let credited : Engine σ ρ := { engine with
    corpus, maxCoverage := max engine.maxCoverage run.nonZeroCount }
  have hentered := statusLog_enter credited now (sealed input run path) verdict
  have hlogged : (credited.enter now (sealed input run path) verdict).statusLog.last =
      some (credited.enter now (sealed input run path) verdict).statusLog.trials := by
    rw [hentered, StatusLog.last_announce, StatusLog.trials_announce]
  rw [enroll]
  simp only [hparent]
  exact (statusLog_publish _ now hlogged).trans hentered

theorem statusLog_logTrial (engine : Engine σ ρ) (bytes : Bytes) :
    (engine.logTrial bytes).2.statusLog = engine.statusLog := by
  rw [logTrial]
  split
  · split <;> rfl
  · rfl

/-- What becomes of the status lines when an input with the given bytes is taken in, given the
corpus before and the number of points covered by then. -/
inductive Announces (log : StatusLog) (corpus : Corpus) (covered : Nat) (bytes : Bytes) :
    Except EngineError Outcome → Engine σ ρ → Prop
  | quiet {result : Except EngineError Outcome} {after : Engine σ ρ}
      (hresult : ∀ id reasons, result ≠ .ok (.saved id reasons))
      (hcorpus : after.corpus.size = corpus.size) (hlog : after.statusLog = log) :
      Announces log corpus covered bytes result after
  | saved {result : Except EngineError Outcome} {after : Engine σ ρ} {entry : Input} {rate : Float}
      (hcorpus : after.corpus.size = corpus.size + 1)
      (hentry : after.corpus.get? corpus.size = some entry) (hbytes : entry.bytes = bytes)
      (hlog : after.statusLog = log.announce ⟨log.trials, covered, rate, bytes.size⟩) :
      Announces log corpus covered bytes result after

section

variable {log : StatusLog} {corpus : Corpus} {covered : Nat} {bytes : Bytes}
  {result : Except EngineError Outcome} {after : Engine σ ρ}

omit [Storage σ] in
theorem Announces.of_error {error : EngineError} (hcorpus : after.corpus.size = corpus.size)
    (hlog : after.statusLog = log) :
    Announces log corpus covered bytes (.error error) after := .quiet (by simp) hcorpus hlog

omit [Storage σ] in
theorem Announces.sound (h : Announces log corpus covered bytes result after)
    (hsound : log.Sound) : after.statusLog.Sound := by
  cases h with
  | quiet hresult hcorpus hlog => rwa [hlog]
  | saved hcorpus hentry hbytes hlog =>
    rw [hlog]
    exact hsound.announce rfl

omit [Storage σ] in
theorem Announces.trials (h : Announces log corpus covered bytes result after) :
    after.trials = log.trials := by
  cases h with
  | quiet hresult hcorpus hlog => exact congrArg StatusLog.trials hlog
  | saved hcorpus hentry hbytes hlog =>
    exact (congrArg StatusLog.trials hlog).trans (log.trials_announce _)

theorem enroll_announces (engine : Engine σ ρ) (now : Moment) (input : Input) (run : Coverage)
    (verdict : Verdict) (path : String) :
    Announces engine.statusLog engine.corpus engine.totalCoverage.nonZeroCount input.bytes
      (engine.enroll now input run verdict path).1 (engine.enroll now input run verdict path).2 := by
  cases hparent : creditParent engine.corpus input.parent with
  | error cause =>
    rw [enroll_orphan engine now run verdict path hparent]
    exact .of_error rfl rfl
  | ok corpus =>
    have hreaches := enroll_reaches engine now run verdict path hparent
    have hcorpus : (engine.enroll now input run verdict path).2.corpus =
        (corpus.insert (sealed input run path) verdict.responsibilities).1 :=
      congrArg Findings.corpus hreaches.findings
    have hsize : corpus.size = engine.corpus.size := size_creditParent hparent
    have hentry : (engine.enroll now input run verdict path).2.corpus.get? engine.corpus.size =
        some ((sealed input run path).asEntry engine.corpus.size verdict.responsibilities) := by
      rw [hcorpus, Corpus.get?_insert, if_pos hsize.symm]
    refine .saved ?_ hentry rfl (statusLog_enroll engine now input run verdict path hparent)
    rw [hcorpus, Corpus.size_insert, hsize]

theorem save_announces (engine : Engine σ ρ) (now : Moment) (input : Input) (run : Coverage)
    (verdict : Verdict) :
    Announces engine.statusLog engine.corpus engine.totalCoverage.nonZeroCount input.bytes
      (engine.save now input run verdict).1 (engine.save now input run verdict).2 := by
  rw [save]
  split
  · exact .of_error rfl rfl
  · split
    · exact .of_error rfl rfl
    · rename_i path storage hstore
      exact enroll_announces { engine with storage } now input run verdict path

theorem ingestInvalidSeed_announces (engine : Engine σ ρ) (now : Moment) (input : Input)
    (run : Coverage) :
    Announces engine.statusLog engine.corpus (engine.totalCoverage.merge run).1.nonZeroCount
      input.trim.2.bytes (engine.ingestInvalidSeed now input run).1
      (engine.ingestInvalidSeed now input run).2 := by
  rw [ingestInvalidSeed]
  split <;> rename_i htrim
  · exact .of_error rfl rfl
  · obtain rfl := Input.eq_of_trim htrim
    exact save_announces { engine with feedback := (engine.feedback.absorbInvalidSeed run).2 } now _
      run _

theorem ingestJudged_announces (engine : Engine σ ρ) (now : Moment) (input : Input)
    (run : Coverage) (valid : Bool) :
    Announces engine.statusLog engine.corpus (engine.totalCoverage.merge run).1.nonZeroCount
      input.trim.2.bytes (engine.ingestJudged now input run valid).1
      (engine.ingestJudged now input run valid).2 := by
  unfold ingestJudged
  simp only
  split
  · split <;> rename_i htrim
    · exact .of_error rfl rfl
    · obtain rfl := Input.eq_of_trim htrim
      exact save_announces { engine with feedback := engine.feedback.commit run valid } now _ run _
  · exact .quiet (by simp) rfl rfl

theorem ingest_announces (engine : Engine σ ρ) (now : Moment) (input : Input) (run : Coverage)
    (valid : Bool) :
    Announces engine.statusLog engine.corpus (engine.totalCoverage.merge run).1.nonZeroCount
      input.trim.2.bytes (engine.ingest now input run valid).1
      (engine.ingest now input run valid).2 := by
  rw [ingest]
  split
  · exact ingestJudged_announces { engine with validTrials := engine.validTrials + 1 } now input run
      true
  · split
    · exact ingestInvalidSeed_announces engine now input run
    · split
      · exact .quiet (by simp) rfl (statusLog_note engine rfl)
      · exact ingestJudged_announces engine now input run false

theorem reportResult_announces (engine : Engine σ ρ) (now : Moment) (input : Input)
    (run : Coverage) (valid : Bool) (hsize : run.size = engine.totalCoverage.size) :
    Announces engine.statusLog.count engine.corpus (engine.totalCoverage.merge run).1.nonZeroCount
      input.trim.2.bytes (engine.reportResult now input run valid).1
      (engine.reportResult now input run valid).2 := by
  have hlogged := logTrial_progresses (engine.counted input) input.bytes
  have hlog := statusLog_logTrial (engine.counted input) input.bytes
  rw [reportResult]
  simp only [hsize, if_true]
  split <;> rename_i later hlater <;> rw [counted, hlater] at hlogged hlog
  · exact .of_error (congrArg (·.corpus.size) hlogged.findings) hlog
  · have hingested := ingest_announces later now { input with valid } run valid
    have hcorpus : later.corpus = engine.corpus := congrArg Findings.corpus hlogged.findings
    have hfeedback : later.feedback = engine.feedback := congrArg Findings.feedback hlogged.findings
    rw [hlog, hcorpus, totalCoverage, hfeedback] at hingested
    exact hingested

theorem reportResult_of_size_ne (engine : Engine σ ρ) (now : Moment) (input : Input)
    (run : Coverage) (valid : Bool) (hsize : run.size ≠ engine.totalCoverage.size) :
    engine.reportResult now input run valid =
      (.error (.coverageSizeMismatch engine.totalCoverage.size run.size), engine) := by
  rw [reportResult]
  simp only [hsize, if_false]

theorem statusLines_reportResult {engine : Engine σ ρ} {now : Moment} {input : Input}
    {run : Coverage} {valid : Bool} (hsound : engine.statusLog.Sound)
    (h : engine.reportResult now input run valid = (result, after)) :
    ((∀ id reasons, result ≠ .ok (.saved id reasons)) ∧
      after.corpus.size = engine.corpus.size ∧ after.statusLines = engine.statusLines) ∨
    (after.corpus.size = engine.corpus.size + 1 ∧
      ∃ entry rate, after.corpus.get? engine.corpus.size = some entry ∧
        entry.bytes = input.trim.2.bytes ∧
        after.statusLines = engine.statusLines ++
          [⟨engine.trials + 1, (engine.totalCoverage.merge run).1.nonZeroCount, rate,
            entry.size⟩]) := by
  by_cases hsize : run.size = engine.totalCoverage.size
  · have hannounces := reportResult_announces engine now input run valid hsize
    rw [h] at hannounces
    cases hannounces with
    | quiet hresult hcorpus hlog => exact .inl ⟨hresult, hcorpus, congrArg StatusLog.lines hlog⟩
    | saved hcorpus hentry hbytes hlog =>
      rename_i entry rate
      refine .inr ⟨hcorpus, entry, rate, hentry, hbytes, ?_⟩
      rw [Input.size, hbytes]
      exact (congrArg StatusLog.lines hlog).trans (hsound.lines_announce_count _)
  · rw [reportResult_of_size_ne engine now input run valid hsize] at h
    cases h
    exact .inl ⟨by simp, rfl, rfl⟩

theorem sound_reportResult (engine : Engine σ ρ) (now : Moment) (input : Input) (run : Coverage)
    (valid : Bool) (h : engine.statusLog.Sound) :
    (engine.reportResult now input run valid).2.statusLog.Sound := by
  by_cases hsize : run.size = engine.totalCoverage.size
  · exact (reportResult_announces engine now input run valid hsize).sound h.count
  · rwa [reportResult_of_size_ne engine now input run valid hsize]

end

end Greybox.Engine
