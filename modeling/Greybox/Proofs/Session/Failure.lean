import Greybox.Proofs.Session.Sound
import Greybox.Storage.Memory

namespace Greybox

theorem Findings.merge_eq_iff {findings : Findings} {run : Coverage} {valid : Bool} :
    findings.merge run valid = findings ↔
      findings.feedback.commit run valid = findings.feedback := by
  constructor
  · intro h
    exact congrArg Findings.feedback h
  · intro h
    rw [merge, h]

namespace Engine

variable {σ ρ : Type} [Storage σ] {engine : Engine σ ρ} {findings : Findings} {input : Input}
  {run : Coverage} {valid : Bool} {error : EngineError} {answer answer' : Except StorageError String}

/-- The report goes as far as giving the input to the store, which answers. -/
inductive Submits (engine : Engine σ ρ) (input : Input) (run : Coverage) (valid : Bool) :
    Except StorageError String → Prop
  | intro {logged : Engine σ ρ} {verdict : Verdict} {trimmed : Input}
      {answer : Except StorageError String} {later : σ}
      (hsize : run.size = engine.totalCoverage.size)
      (hlog : (engine.counted input).logTrial input.bytes = (.ok (), logged))
      (hverdict : verdict? engine.findings engine.settings.saveOnlyValid { input with valid } run
        valid = some verdict)
      (hinteresting : verdict.isInteresting = true)
      (htrim : Input.trim { input with valid } = (.ok (), trimmed))
      (hstore : Storage.persistInput logged.storage engine.corpus.nextId trimmed.bytes
        (metadata trimmed verdict) = (answer, later)) :
      Submits engine input run valid answer

theorem Submits.size_eq (h : engine.Submits input run valid answer) :
    run.size = engine.totalCoverage.size := by
  cases h with
  | intro hsize => exact hsize

theorem Submits.unique (h : engine.Submits input run valid answer)
    (h' : engine.Submits input run valid answer') : answer = answer' := by
  cases h with
  | intro _ hlog hverdict _ htrim hstore =>
    cases h' with
    | intro _ hlog' hverdict' _ htrim' hstore' =>
      cases hlog.symm.trans hlog'
      cases hverdict.symm.trans hverdict'
      cases htrim.symm.trans htrim'
      exact congrArg Prod.fst (hstore.symm.trans hstore')

/-- What a failed report leaves behind. -/
inductive Fails (engine : Engine σ ρ) (input : Input) (run : Coverage) (valid : Bool) :
    Findings → Prop
  | early (hnone : ∀ answer, ¬ engine.Submits input run valid answer) :
      Fails engine input run valid engine.findings
  | refused {cause : StorageError} (hsubmits : engine.Submits input run valid (.error cause)) :
      Fails engine input run valid (engine.findings.merge run valid)
  | late {path : String} {credited : Corpus} {trimmed : Input} {verdict : Verdict}
      (hsubmits : engine.Submits input run valid (.ok path))
      (hclaims : verdict.responsibilities = engine.feedback.claims run valid)
      (hparent : creditParent engine.corpus trimmed.parent = .ok credited) :
      Fails engine input run valid
        ((engine.findings.merge run valid).save credited trimmed run verdict path)

theorem Reports.fails (h : engine.Reports input run valid (.error error) findings)
    (hsaved : ∀ parent, input.parent = some parent → parent < engine.corpus.size) :
    engine.Fails input run valid findings := by
  cases h with
  | mismatched hsize =>
    apply Fails.early
    rintro answer ⟨hsize', -⟩
    exact hsize hsize'
  | unlogged hsize hlog =>
    apply Fails.early
    rintro answer ⟨-, hlog', -⟩
    cases hlog.symm.trans hlog'
  | ingested hsize hlog hingests =>
    cases hingests with
    | empty hverdict hinteresting htrim =>
      apply Fails.early
      rintro answer ⟨-, -, -, -, htrim', -⟩
      rw [htrim'] at htrim
      cases htrim
    | trimmed hverdict hinteresting htrim hsaves =>
      rename_i verdict trimmed
      cases hsaves with
      | lost hstore => exact .refused (.intro hsize hlog hverdict hinteresting htrim hstore)
      | orphaned hstore horphan =>
        obtain rfl := Input.eq_of_trim htrim
        exact absurd horphan (creditParent_ne_error hsaved)
      | saved hstore hcredit hresult =>
        exact .late (.intro hsize hlog hverdict hinteresting htrim hstore)
          (responsibilities_of_verdict? hverdict) hcredit

/-- A failed report changes nothing if and only if the input was not given to the store, or was
refused after a run that adds nothing to the covered points and their classes. -/
theorem Fails.unchanged_iff (h : engine.Fails input run valid findings) :
    findings = engine.findings ↔ ∀ answer, engine.Submits input run valid answer →
      (∃ cause, answer = .error cause) ∧
        engine.feedback.commit run valid = engine.feedback := by
  cases h with
  | early hnone =>
    refine iff_of_true rfl ?_
    intro answer hsubmits
    exact absurd hsubmits (hnone answer)
  | refused hsubmits =>
    rw [Findings.merge_eq_iff]
    constructor
    · intro hcommit answer hanswer
      exact ⟨⟨_, hanswer.unique hsubmits⟩, hcommit⟩
    · intro hall
      exact (hall _ hsubmits).2
  | late hsubmits hclaims hparent =>
    refine iff_of_false ?_ ?_
    · intro heq
      have hsize := congrArg (fun findings => findings.corpus.size) heq
      simp only [Findings.save, Corpus.size_insert, size_creditParent hparent] at hsize
      exact Nat.succ_ne_self _ hsize
    · intro hall
      obtain ⟨⟨cause, hcause⟩, -⟩ := hall _ hsubmits
      cases hcause

theorem Fails.eq_of_refusal {cause : StorageError} (h : engine.Fails input run valid findings)
    (hsubmits : engine.Submits input run valid (.error cause)) :
    findings = engine.findings.merge run valid := by
  cases h with
  | early hnone => exact absurd hsubmits (hnone _)
  | refused => rfl
  | late hkept => cases hkept.unique hsubmits

theorem Fails.of_kept {path : String} (h : engine.Fails input run valid findings)
    (hsubmits : engine.Submits input run valid (.ok path)) :
    findings.corpus.size = engine.corpus.size + 1 ∧
      (engine.findings.OwnsCovered → findings.OwnsCovered) := by
  cases h with
  | early hnone => exact absurd hsubmits (hnone _)
  | refused hrefused => cases hrefused.unique hsubmits
  | late _ hclaims hparent =>
    constructor
    · rw [Findings.save, Corpus.size_insert, size_creditParent hparent]
    · intro howns
      exact Findings.ownsCovered_save _ howns hsubmits.size_eq hclaims hparent

end Engine

namespace Session

variable {σ ρ : Type} [Storage σ] [WordSource ρ] {settings : Settings} {storage : σ}
  {session : Session σ ρ} {before after : List Input} {handed input : Input} {run : Coverage}
  {valid : Bool} {now : Moment} {error : EngineError} {engine' : Engine σ ρ}

/-- A failed report changes the findings exactly if the store was asked to keep the input and either
kept it or refused it after a run that added something. A refusal leaves the points that the run
covered first without an owner; an input that was kept is saved as if nothing had failed. -/
theorem Reachable.failed_report (h : Reachable .any settings storage session)
    (hhanded : session.outstanding = before ++ handed :: after) (hpulls : handed.Pulls input)
    (hreport : session.engine.reportResult now input run valid = (.error error, engine')) :
    engine'.course = session.engine.course ∧
    (engine'.findings = session.engine.findings ↔
      ∀ answer, session.engine.Submits input run valid answer →
        (∃ cause, answer = .error cause) ∧
          session.engine.feedback.commit run valid = session.engine.feedback) ∧
    (∀ cause, session.engine.Submits input run valid (.error cause) →
      engine'.findings = session.engine.findings.merge run valid ∧
      ∀ p, session.engine.totalCoverage.get p = 0 → run.get p ≠ 0 →
        engine'.totalCoverage.get p ≠ 0 ∧ engine'.corpus.owner? p = none) ∧
    (∀ path, session.engine.Submits input run valid (.ok path) →
      engine'.corpus.size = session.engine.corpus.size + 1 ∧
      (session.engine.findings.OwnsCovered → engine'.findings.OwnsCovered)) := by
  have hsound := h.sound Conduct.onlyPulls_any
  obtain ⟨findings, hreports, hreaches⟩ :=
    Engine.reportResult_reports session.engine now input run valid
  rw [hreport] at hreports hreaches
  obtain rfl := hreaches.findings
  have hfails := hreports.fails fun _ => hsound.parent_lt hhanded hpulls
  refine ⟨hreaches.course, hfails.unchanged_iff, ?_, ?_⟩
  · intro cause hsubmits
    have hmerged := hfails.eq_of_refusal hsubmits
    have hcorpus : engine'.corpus = session.engine.corpus := congrArg Findings.corpus hmerged
    have hfeedback : engine'.feedback = session.engine.feedback.commit run valid :=
      congrArg Findings.feedback hmerged
    refine ⟨hmerged, ?_⟩
    intro p hfresh hhit
    constructor
    · rw [Engine.totalCoverage, hfeedback]
      exact (Feedback.get_total_commit_ne_zero_iff hsubmits.size_eq).2 (.inr hhit)
    · rw [hcorpus]
      cases howner : session.engine.corpus.owner? p with
      | none => rfl
      | some id => exact absurd hfresh (hsound.covered p id howner)
  · intro path hsubmits
    exact hfails.of_kept hsubmits

def refusing : Session (RefusingStore MemoryStore) ChaCha :=
  sampleGiven { inner := ∅, refused := [.persist] }

theorem refusing_submits : refusing.engine.Submits sampleInput sampleRun true
    (.error (.refused .persist)) := by
  have hlog : (refusing.engine.counted sampleInput).logTrial sampleInput.bytes =
    (.ok (), refusing.engine.counted sampleInput) := rfl
  have hverdict : Engine.verdict? refusing.engine.findings false { sampleInput with valid := true }
    sampleRun true = some (refusing.engine.feedback.assess sampleRun true) := rfl
  have htrim : Input.trim { sampleInput with valid := true } =
    (.ok (), (Input.trim { sampleInput with valid := true }).2) := rfl
  have hinteresting : (refusing.engine.feedback.assess sampleRun true).isInteresting = true := by
    decide +kernel
  exact .intro rfl hlog hverdict hinteresting htrim rfl

theorem refusing_fails :
    ∃ error, (refusing.engine.reportResult 0 sampleInput sampleRun true).1 = .error error := by
  have hfails : (refusing.engine.reportResult 0 sampleInput sampleRun true).1.isOk = false := by
    decide +kernel
  cases hresult : (refusing.engine.reportResult 0 sampleInput sampleRun true).1 with
  | error error => exact ⟨error, rfl⟩
  | ok outcome =>
    rw [hresult] at hfails
    cases hfails

/-- The store refuses the seed after its run was merged, which leaves point 1 without an owner. -/
theorem failed_report_refusing :
    ∃ error engine', refusing.engine.reportResult 0 sampleInput sampleRun true =
        (.error error, engine') ∧
      engine'.findings ≠ refusing.engine.findings ∧
      engine'.totalCoverage.get 1 ≠ 0 ∧ engine'.corpus.owner? 1 = none := by
  have hreachable : Reachable .any sampleSettings _ refusing := sampleGiven_reachable _ trivial
  have hpulls : (Input.ofSeed sampleSeed).Pulls sampleInput := .next 0 .refl
  obtain ⟨error, herror⟩ := refusing_fails
  have hreport : refusing.engine.reportResult 0 sampleInput sampleRun true =
    (.error error, (refusing.engine.reportResult 0 sampleInput sampleRun true).2) :=
    Prod.ext herror rfl
  obtain ⟨-, -, hrefused, -⟩ :=
    hreachable.failed_report (sampleGiven_outstanding _) hpulls hreport
  obtain ⟨-, hpoint⟩ := hrefused _ refusing_submits
  have hfresh : refusing.engine.totalCoverage.get 1 = 0 := by decide +kernel
  have hhit : sampleRun.get 1 ≠ 0 := by decide +kernel
  refine ⟨_, _, hreport, ?_, hpoint 1 hfresh hhit⟩
  intro heq
  have htotal := congrArg (fun findings => findings.feedback.total.get 1) heq
  exact (hpoint 1 hfresh hhit).1 (htotal.trans hfresh)

end Session

end Greybox
