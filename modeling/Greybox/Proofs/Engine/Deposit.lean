import Greybox.Proofs.Corpus
import Greybox.Proofs.Engine.Ownership

namespace Greybox.Engine

open Storage (NeverFails Records Deposits)

variable {σ ρ : Type} [Storage σ] {engine : Engine σ ρ} {findings findings' : Findings}
  {store logged later : σ} {input : Input} {run : Coverage} {valid : Bool} {verdict : Verdict}
  {credited : Corpus} {result : Except EngineError Outcome}

omit [Storage σ] in
theorem storage_announce (engine : Engine σ ρ) (rate : Float) :
    (engine.announce rate).storage = engine.storage := by
  rw [announce]
  split <;> rfl

omit [Storage σ] in
theorem storage_notes {α : Type} (engine : Engine σ ρ) (events : List α) (event : α → Event) :
    (events.foldl (fun engine e => engine.note (event e)) engine).storage = engine.storage := by
  induction events generalizing engine with
  | nil => rfl
  | cons e events ih => exact ih (engine.note (event e))

omit [Storage σ] in
theorem storage_enter (engine : Engine σ ρ) (now : Moment) (input : Input) (verdict : Verdict) :
    (engine.enter now input verdict).storage = engine.storage := by
  rw [enter]
  generalize engine.corpus.insert input verdict.responsibilities = inserted
  obtain ⟨corpus, steals⟩ := inserted
  exact (storage_announce _ _).trans (storage_notes _ steals (.stolen engine.corpus.nextId))

theorem refresh_records (hstore : NeverFails engine.storage) (now : Moment) :
    ∃ stats, (engine.refresh now).1 = .ok stats ∧
      Records engine.storage (engine.refresh now).2.storage := by
  unfold refresh
  extract_lets stats started announced reported
  have hreported : reported.storage = engine.storage := storage_announce started _
  clear_value reported
  obtain ⟨later, hcall⟩ := hstore.answers.appendPlotLine stats.plotLine
  simp only [hreported, hcall]
  exact ⟨stats, rfl, .single (.appendPlotLine hcall)⟩

theorem displayStats_records (hstore : NeverFails engine.storage) (now : Moment) (force : Bool) :
    ∃ shown, (engine.displayStats now force).1 = .ok shown ∧
      Records engine.storage (engine.displayStats now force).2.storage := by
  rw [displayStats]
  split
  · exact ⟨none, rfl, .refl⟩
  · obtain ⟨stats, hstats, hrecords⟩ := refresh_records hstore now
    exact ⟨some stats, congrArg (Except.map some) hstats, hrecords⟩

theorem logTrial_records (hstore : NeverFails engine.storage) (bytes : Bytes) :
    (engine.logTrial bytes).1 = .ok () ∧
      Records engine.storage (engine.logTrial bytes).2.storage := by
  rw [logTrial]
  split
  · obtain ⟨later, hcall⟩ := hstore.answers.logTrial engine.trials bytes
    rw [hcall]
    exact ⟨rfl, .single (.logTrial hcall)⟩
  · exact ⟨rfl, .refl⟩

theorem publish_records (hstore : NeverFails engine.storage) (now : Moment) :
    (engine.publish now).1 = .ok () ∧ ∃ written,
      Storage.writeCoverage engine.storage engine.totalCoverage = (.ok (), written) ∧
      Records written (engine.publish now).2.storage := by
  obtain ⟨written, hcall⟩ := hstore.answers.writeCoverage engine.totalCoverage
  let covered : Engine σ ρ := { engine with storage := written }
  have hcovered : NeverFails covered.storage := hstore.of_leads (.single (.writeCoverage hcall))
  obtain ⟨shown, hshown, hrecords⟩ := displayStats_records hcovered now false
  rw [publish]
  simp only [hcall]
  exact ⟨congrArg (Except.map fun _ => ()) hshown, written, rfl, hrecords⟩

theorem enroll_records (hstore : NeverFails engine.storage) (now : Moment) (run : Coverage)
    (verdict : Verdict) (path : String)
    (hcredit : creditParent engine.corpus input.parent = .ok credited) :
    (engine.enroll now input run verdict path).1 =
        .ok (.saved engine.corpus.nextId verdict.reasons) ∧ ∃ written,
      Storage.writeCoverage engine.storage engine.totalCoverage = (.ok (), written) ∧
      Records written (engine.enroll now input run verdict path).2.storage := by
  let ready : Engine σ ρ := { engine with
    corpus := credited, maxCoverage := max engine.maxCoverage run.nonZeroCount }
  let entered := ready.enter now (sealed input run path) verdict
  have hentered : entered.storage = engine.storage := storage_enter ready now _ verdict
  have htotal : entered.totalCoverage = engine.totalCoverage :=
    congrArg (fun findings => findings.feedback.total) (enter_reaches ready now _ verdict).findings
  obtain ⟨hresult, written, hcall, hrecords⟩ := publish_records (hentered ▸ hstore) now
  rw [hentered, htotal] at hcall
  have hid : credited.nextId = engine.corpus.nextId := size_creditParent hcredit
  rw [enroll]
  simp only [hcredit, hid]
  exact ⟨congrArg (Except.map fun _ => Outcome.saved engine.corpus.nextId verdict.reasons) hresult,
    written, hcall, hrecords⟩

theorem save_deposits (hstore : NeverFails engine.storage) (now : Moment) (run : Coverage)
    (verdict : Verdict) (hinput : input.isEmpty = false)
    (hcredit : creditParent engine.corpus input.parent = .ok credited) :
    (engine.save now input run verdict).1 = .ok (.saved engine.corpus.nextId verdict.reasons) ∧
      Deposits engine.storage engine.corpus.nextId input.bytes (metadata input verdict)
        engine.totalCoverage (engine.save now input run verdict).2.storage ∧
      ∃ path, (engine.save now input run verdict).2.findings =
        engine.findings.save credited input run verdict path := by
  obtain ⟨path, kept, hcall⟩ := hstore.answers.persistInput engine.corpus.nextId input.bytes
    (metadata input verdict)
  let stored : Engine σ ρ := { engine with storage := kept }
  have hstored : NeverFails stored.storage := hstore.of_leads (.single (.persistInput hcall))
  obtain ⟨hresult, written, hwrite, hrecords⟩ :=
    enroll_records hstored now run verdict path hcredit
  have hreaches := enroll_reaches stored now run verdict path hcredit
  rw [save]
  rw [hinput, if_neg Bool.false_ne_true]
  simp only [hcall]
  exact ⟨hresult, .intro hcall hwrite hrecords, path, hreaches.findings⟩

/-- What becomes of the findings and of a store that never fails when an input is taken back. -/
inductive Takes (findings : Findings) (store : σ) (input : Input) (run : Coverage) (valid : Bool) :
    Except EngineError Outcome → Findings → σ → Prop
  | rejected {error : EngineError} {later : σ} (hrecords : Records store later) :
      Takes findings store input run valid (.error error) findings later
  | ignored {later : σ} (hinvalid : valid = false) (hrecords : Records store later) :
      Takes findings store input run valid (.ok .ignored) findings later
  | discarded {later : σ} (hsize : run.size = findings.feedback.total.size)
      (hdull : (findings.feedback.assess run valid).isInteresting = false)
      (hrecords : Records store later) :
      Takes findings store input run valid (.ok .discarded) (findings.merge run valid) later
  | saved {verdict : Verdict} {trimmed : Input} {credited : Corpus} {path : String}
      {logged later : σ} (hsize : run.size = findings.feedback.total.size)
      (hclaims : verdict.responsibilities = findings.feedback.claims run valid)
      (htrim : input.trim = (.ok (), trimmed))
      (hcredit : creditParent findings.corpus trimmed.parent = .ok credited)
      (hrecords : Records store logged)
      (hdeposits : Deposits logged findings.corpus.nextId trimmed.bytes (metadata trimmed verdict)
        (findings.feedback.commit run valid).total later) :
      Takes findings store input run valid (.ok (.saved findings.corpus.nextId verdict.reasons))
        ((findings.merge run valid).save credited trimmed run verdict path) later

theorem Takes.of_records (h : Takes findings logged input run valid result findings' later)
    (hlogged : Records store logged) :
    Takes findings store input run valid result findings' later := by
  cases h with
  | rejected hrecords => exact .rejected (hlogged.trans hrecords)
  | ignored hinvalid hrecords => exact .ignored hinvalid (hlogged.trans hrecords)
  | discarded hsize hdull hrecords => exact .discarded hsize hdull (hlogged.trans hrecords)
  | saved hsize hclaims htrim hcredit hrecords hdeposits =>
    exact .saved hsize hclaims htrim hcredit (hlogged.trans hrecords) hdeposits

section

variable (hstore : NeverFails engine.storage) (now : Moment)
  (hsize : run.size = engine.feedback.total.size)
  (hparent : ∀ parent, input.parent = some parent → parent < engine.corpus.size)

include hstore hsize hparent

theorem save_takes {trimmed : Input}
    (hclaims : verdict.responsibilities = engine.feedback.claims run valid)
    (htrim : input.trim = (.ok (), trimmed)) :
    let merged := { engine with feedback := engine.feedback.commit run valid }
    Takes engine.findings engine.storage input run valid (merged.save now trimmed run verdict).1
      (merged.save now trimmed run verdict).2.findings
      (merged.save now trimmed run verdict).2.storage := by
  intro merged
  obtain ⟨credited, hcredit⟩ : ∃ credited, creditParent engine.corpus trimmed.parent = .ok credited := by
    obtain rfl := Input.eq_of_trim htrim
    cases hcredit : creditParent engine.corpus input.parent with
    | error cause => exact absurd hcredit (creditParent_ne_error hparent)
    | ok credited => exact ⟨credited, hcredit⟩
  have hmerged : NeverFails merged.storage := hstore
  have hcredit : creditParent merged.corpus trimmed.parent = .ok credited := hcredit
  obtain ⟨hresult, hdeposits, path, hfindings⟩ :=
    save_deposits hmerged now run verdict (Input.isEmpty_of_trim htrim) hcredit
  rw [hresult, hfindings]
  exact .saved hsize hclaims htrim hcredit .refl hdeposits

theorem ingestJudged_takes :
    Takes engine.findings engine.storage input run valid
      (engine.ingestJudged now input run valid).1 (engine.ingestJudged now input run valid).2.findings
      (engine.ingestJudged now input run valid).2.storage := by
  unfold ingestJudged
  simp only
  cases hinteresting : (engine.feedback.assess run valid).isInteresting with
  | false => exact .discarded hsize hinteresting .refl
  | true =>
    simp only [if_true]
    split <;> rename_i htrim
    · exact .rejected .refl
    · exact save_takes hstore now hsize hparent rfl htrim

theorem ingestInvalidSeed_takes :
    Takes engine.findings engine.storage input run false
      (engine.ingestInvalidSeed now input run).1 (engine.ingestInvalidSeed now input run).2.findings
      (engine.ingestInvalidSeed now input run).2.storage := by
  rw [ingestInvalidSeed]
  split <;> rename_i htrim
  · exact .rejected .refl
  · exact save_takes hstore now hsize hparent rfl htrim

theorem ingest_takes :
    Takes engine.findings engine.storage input run valid (engine.ingest now input run valid).1
      (engine.ingest now input run valid).2.findings
      (engine.ingest now input run valid).2.storage := by
  rw [ingest]
  cases valid with
  | true =>
    let counted : Engine σ ρ := { engine with validTrials := engine.validTrials + 1 }
    have hcounted : NeverFails counted.storage := hstore
    exact ingestJudged_takes hcounted now hsize hparent
  | false =>
    simp only [Bool.false_eq_true, if_false]
    split
    · exact ingestInvalidSeed_takes hstore now hsize hparent
    · split
      · exact .ignored rfl .refl
      · exact ingestJudged_takes hstore now hsize hparent

end

theorem reportResult_takes (hstore : NeverFails engine.storage) (now : Moment) (run : Coverage)
    (valid : Bool) (hparent : ∀ parent, input.parent = some parent → parent < engine.corpus.size) :
    Takes engine.findings engine.storage { input with valid } run valid
      (engine.reportResult now input run valid).1
      (engine.reportResult now input run valid).2.findings
      (engine.reportResult now input run valid).2.storage := by
  have hcounted : NeverFails (engine.counted input).storage := hstore
  obtain ⟨hresult, hrecords⟩ := logTrial_records hcounted input.bytes
  have hprogress := logTrial_progresses (engine.counted input) input.bytes
  rw [reportResult]
  simp only
  split <;> rename_i hsize
  · split <;> rename_i logged hlog <;> rw [counted, hlog] at hresult hrecords hprogress
    · cases hresult
    · have hfindings : logged.findings = engine.findings := hprogress.findings
      have hcorpus : logged.corpus = engine.corpus := congrArg Findings.corpus hfindings
      have htotal : run.size = logged.feedback.total.size := by
        rw [hsize]
        exact congrArg (fun findings => findings.feedback.total.size) hfindings.symm
      have hlogged : NeverFails logged.storage := hstore.of_leads hrecords.leads
      have htakes : Takes logged.findings logged.storage { input with valid } run valid
          (logged.ingest now { input with valid } run valid).1
          (logged.ingest now { input with valid } run valid).2.findings
          (logged.ingest now { input with valid } run valid).2.storage :=
        ingest_takes hlogged now htotal (hcorpus ▸ hparent)
      rw [hfindings] at htakes
      exact htakes.of_records hrecords
  · exact .rejected .refl

end Greybox.Engine
