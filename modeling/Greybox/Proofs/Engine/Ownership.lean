import Greybox.Proofs.Corpus
import Greybox.Proofs.Engine.Report
import Greybox.Proofs.Feedback

namespace Greybox

variable {corpus corpus' : Corpus} {input : Input} {run : Coverage} {claims : PointSet}
  {P : Nat → Input → Prop}

namespace Engine

section

variable {parent : Option Nat} (h : creditParent corpus parent = .ok corpus')

include h

theorem size_creditParent : corpus'.size = corpus.size := by
  cases parent with
  | none => cases h; rfl
  | some parent => exact Corpus.size_recordOffspring h

theorem owner?_creditParent (p : Nat) : corpus'.owner? p = corpus.owner? p := by
  cases parent with
  | none => cases h; rfl
  | some parent => exact Corpus.owner?_recordOffspring h p

theorem each_creditParent (hcorpus : corpus.Each P) (hstable : Corpus.Stable P) :
    corpus'.Each P := by
  cases parent with
  | none => cases h; exact hcorpus
  | some parent => exact Corpus.each_recordOffspring h hcorpus hstable

theorem lockstep_creditParent (hcorpus : corpus.Lockstep) : corpus'.Lockstep := by
  cases parent with
  | none => cases h; exact hcorpus
  | some parent => exact Corpus.lockstep_recordOffspring hcorpus h

theorem readings_creditParent {α : Type} {f : Input → α} (hf : Corpus.Fixed f) :
    corpus'.readings f = corpus.readings f := by
  cases parent with
  | none => cases h; rfl
  | some parent => exact Corpus.readings_recordOffspring hf h

end

theorem creditParent_ne_error {parent : Option Nat} {cause : InputNotFound}
    (h : ∀ id, parent = some id → id < corpus.size) :
    creditParent corpus parent ≠ .error cause := by
  intro herror
  cases parent with
  | none => cases herror
  | some id => cases (Corpus.recordOffspring_eq_ok (h id rfl)).symm.trans herror

end Engine

open Engine (creditParent sealed)

inductive Corpus.Enrolls (corpus : Corpus) (input : Input) (run : Coverage) (claims : PointSet) :
    Corpus → Prop
  | kept : Enrolls corpus input run claims corpus
  | entered {credited : Corpus} {trimmed : Input} {path : String}
      (hparent : creditParent corpus trimmed.parent = .ok credited)
      (htrim : input.trim = (.ok (), trimmed)) :
      Enrolls corpus input run claims (credited.insert (sealed trimmed run path) claims).1

namespace Corpus.Enrolls

variable (h : corpus.Enrolls input run claims corpus')

include h

theorem size_le : corpus.size ≤ corpus'.size := by
  cases h with
  | kept => exact Nat.le_refl _
  | entered hparent htrim =>
    rw [size_insert, Engine.size_creditParent hparent]
    exact Nat.le_succ _

theorem lockstep (hcorpus : corpus.Lockstep) : corpus'.Lockstep := by
  cases h with
  | kept => exact hcorpus
  | entered hparent htrim => exact lockstep_insert (Engine.lockstep_creditParent hparent hcorpus) _ _

theorem each (hcorpus : corpus.Each P) (hstable : Stable P)
    (hnew : ∀ trimmed path, input.trim = (.ok (), trimmed) →
      P corpus.size ((sealed trimmed run path).asEntry corpus.size claims)) : corpus'.Each P := by
  cases h with
  | kept => exact hcorpus
  | entered hparent htrim =>
    apply each_insert (Engine.each_creditParent hparent hcorpus hstable) hstable
    rw [Engine.size_creditParent hparent]
    exact hnew _ _ htrim

end Corpus.Enrolls

/-- What a saved input is like under its id. -/
structure Input.IsEntry (id : Nat) (entry : Input) : Prop where
  hasId : entry.id = some id
  hasBytes : entry.isEmpty = false
  parent : ∀ parent, entry.parent = some parent → parent < id
  favored : ∀ p, entry.Owns p → entry.favored = true
  snapshot : ∃ run, entry.coverage = some run ∧ ∀ p, entry.Owns p → run.get p ≠ 0

theorem Input.IsEntry.stable : Corpus.Stable Input.IsEntry where
  release p h :=
    ⟨h.hasId, h.hasBytes, h.parent, fun q hq => h.favored q (owns_release.1 hq).1, by
      obtain ⟨run, hrun, hhit⟩ := h.snapshot
      exact ⟨run, hrun, fun q hq => hhit q (owns_release.1 hq).1⟩⟩
  credit n h := ⟨h.hasId, h.hasBytes, h.parent, h.favored, h.snapshot⟩

theorem Input.IsEntry.of_trim {trimmed : Input} {id : Nat} (path : String)
    (htrim : input.trim = (.ok (), trimmed)) (hclaims : ∀ p ∈ claims, run.get p ≠ 0)
    (hparent : ∀ parent, input.parent = some parent → parent < id) :
    IsEntry id ((sealed trimmed run path).asEntry id claims) := by
  have hbytes : trimmed.isEmpty = false := isEmpty_of_trim htrim
  have hkept : trimmed.parent = input.parent := by
    rw [eq_of_trim htrim]
    rfl
  refine ⟨rfl, hbytes, ?_, ?_, run, rfl, ?_⟩
  · intro parent h
    exact hparent parent (hkept.symm.trans h)
  · intro p hp
    have hmem : p ∈ claims := owns_asEntry.1 hp
    have hempty : claims.isEmpty = false :=
      Bool.eq_false_iff.2 fun h => PointSet.isEmpty_iff.1 h p hmem
    simp only [asEntry, hempty, Bool.not_false]
  · intro p hp
    exact hclaims p (owns_asEntry.1 hp)

theorem Corpus.Enrolls.isEntry (h : corpus.Enrolls input run claims corpus')
    (hcorpus : corpus.Each Input.IsEntry) (hclaims : ∀ p ∈ claims, run.get p ≠ 0)
    (hparent : ∀ parent, input.parent = some parent → parent < corpus.size) :
    corpus'.Each Input.IsEntry :=
  h.each hcorpus Input.IsEntry.stable fun _ path htrim => .of_trim path htrim hclaims hparent

namespace Engine

variable {σ ρ : Type} [Storage σ] {engine : Engine σ ρ} {findings findings' : Findings} {store : σ}
  {saveOnlyValid valid : Bool} {verdict : Verdict} {result : Except EngineError Outcome}

theorem Ingests.enrolls (h : Ingests findings saveOnlyValid store input run valid result findings') :
    findings.corpus.Enrolls input run (findings.feedback.claims run valid) findings'.corpus := by
  cases h with
  | ignored | discarded | empty => exact .kept
  | trimmed hverdict hinteresting htrim hsaves =>
    cases hsaves with
    | lost | orphaned => exact .kept
    | saved hstore hparent hresult =>
      have hclaims := responsibilities_of_verdict? hverdict
      simp only [Findings.save, hclaims]
      exact .entered hparent htrim

theorem Reports.enrolls (h : engine.Reports input run valid result findings) :
    engine.corpus.Enrolls { input with valid } run (engine.feedback.claims run valid)
      findings.corpus := by
  cases h with
  | mismatched | unlogged => exact .kept
  | ingested hsize hlog hingests => exact hingests.enrolls

theorem Reports.feedback (h : engine.Reports input run valid result findings) :
    findings.feedback = engine.feedback ∨ run.size = engine.totalCoverage.size ∧
      findings.feedback = engine.feedback.commit run valid := by
  cases h with
  | mismatched | unlogged => exact .inl rfl
  | ingested hsize hlog hingests =>
    cases hingests with
    | ignored | empty => exact .inl rfl
    | discarded => exact .inr ⟨hsize, rfl⟩
    | trimmed hverdict hinteresting htrim hsaves =>
      cases hsaves with
      | lost | orphaned | saved => exact .inr ⟨hsize, rfl⟩

theorem Reports.total_size (h : engine.Reports input run valid result findings) :
    findings.feedback.total.size = engine.totalCoverage.size := by
  rcases h.feedback with hsame | ⟨-, hmerged⟩
  · rw [hsame]
    rfl
  · rw [hmerged]
    exact Feedback.size_total_commit _ _ _

end Engine

def Findings.OwnsOnlyCovered (findings : Findings) : Prop :=
  ∀ p id, findings.corpus.owner? p = some id → findings.feedback.total.get p ≠ 0

theorem Findings.ownsOnlyCovered_merge {findings : Findings} (valid : Bool)
    (howns : findings.OwnsOnlyCovered) (hsize : run.size = findings.feedback.total.size) :
    (findings.merge run valid).OwnsOnlyCovered := by
  intro p id howner
  exact (Feedback.get_total_commit_ne_zero_iff hsize).2 (.inl (howns p id howner))

theorem Findings.ownsOnlyCovered_save {findings : Findings} {credited : Corpus} {verdict : Verdict}
    {parent : Option Nat} (path : String) (howns : findings.OwnsOnlyCovered)
    (hclaims : ∀ p ∈ verdict.responsibilities, findings.feedback.total.get p ≠ 0)
    (hparent : creditParent findings.corpus parent = .ok credited) :
    (findings.save credited input run verdict path).OwnsOnlyCovered := by
  intro p id howner
  simp only [Findings.save, Corpus.owner?_insert, Engine.owner?_creditParent hparent] at howner
  by_cases hp : p ∈ verdict.responsibilities
  · exact hclaims p hp
  · rw [if_neg hp] at howner
    exact howns p id howner

/-- The points with an owner are exactly the covered ones. -/
def Findings.OwnsCovered (findings : Findings) : Prop :=
  ∀ p, (∃ id, findings.corpus.owner? p = some id) ↔ findings.feedback.total.get p ≠ 0

theorem Findings.ownsCovered_start (mapSize : Nat) (validityFuzzing ignoreNewCounts : Bool) :
    Findings.OwnsCovered ⟨∅, .start mapSize validityFuzzing ignoreNewCounts, 0⟩ := by
  intro p
  simp [Feedback.start]

theorem Findings.ownsCovered_save {findings : Findings} {credited : Corpus} {verdict : Verdict}
    {valid : Bool} {parent : Option Nat} (path : String) (howns : findings.OwnsCovered)
    (hsize : run.size = findings.feedback.total.size)
    (hclaims : verdict.responsibilities = findings.feedback.claims run valid)
    (hparent : creditParent findings.corpus parent = .ok credited) :
    ((findings.merge run valid).save credited input run verdict path).OwnsCovered := by
  intro p
  simp only [Findings.save, Findings.merge, hclaims, Corpus.owner?_insert,
    Engine.owner?_creditParent hparent]
  rw [Feedback.get_total_commit_ne_zero_iff_claims hsize, ← howns p]
  by_cases hp : p ∈ findings.feedback.claims run valid <;> simp [hp]

namespace Engine

variable {σ ρ : Type} [Storage σ] {engine : Engine σ ρ} {findings findings' : Findings} {store : σ}
  {saveOnlyValid valid : Bool} {verdict : Verdict} {result : Except EngineError Outcome}

theorem eq_assess_of_verdict? (h : verdict? findings saveOnlyValid input run valid = some verdict)
    (hdull : verdict.isInteresting = false) : verdict = findings.feedback.assess run valid := by
  rcases eq_of_verdict? h with hjudged | ⟨-, -, rfl⟩
  · exact hjudged
  · -- an invalid seed is never dull
    cases hdull

theorem Ingests.ownsOnlyCovered
    (h : Ingests findings saveOnlyValid store input run valid result findings')
    (hsize : run.size = findings.feedback.total.size) (howns : findings.OwnsOnlyCovered) :
    findings'.OwnsOnlyCovered := by
  have hmerged := Findings.ownsOnlyCovered_merge valid howns hsize
  cases h with
  | ignored | empty => exact howns
  | discarded => exact hmerged
  | trimmed hverdict hinteresting htrim hsaves =>
    cases hsaves with
    | lost | orphaned => exact hmerged
    | saved hstored hcredit hresult =>
      apply Findings.ownsOnlyCovered_save _ hmerged _ hcredit
      intro p hp
      rw [responsibilities_of_verdict? hverdict] at hp
      exact (Feedback.get_total_commit_ne_zero_iff_claims hsize).2 (.inr hp)

theorem Reports.ownsOnlyCovered (h : engine.Reports input run valid result findings)
    (howns : engine.findings.OwnsOnlyCovered) : findings.OwnsOnlyCovered := by
  cases h with
  | mismatched | unlogged => exact howns
  | ingested hsize hlog hingests => exact hingests.ownsOnlyCovered hsize howns

theorem Ingests.ownsCovered
    (h : Ingests findings saveOnlyValid store input run valid result findings')
    (hsize : run.size = findings.feedback.total.size) (hstore : Storage.KeepsInputs store)
    (hparent : ∀ parent, input.parent = some parent → parent < findings.corpus.size)
    (howns : findings.OwnsCovered) : findings'.OwnsCovered := by
  cases h with
  | ignored | empty => exact howns
  | discarded hverdict hdull =>
    obtain rfl := eq_assess_of_verdict? hverdict hdull
    intro p
    refine (howns p).trans ?_
    -- The run is merged although nobody claims its points, so it must not cover new ones.
    exact (Feedback.get_total_commit_ne_zero_iff_of_not_interesting hsize hdull).symm
  | trimmed hverdict hinteresting htrim hsaves =>
    rename_i verdict trimmed
    cases hsaves with
    | lost hrefused =>
      obtain ⟨path, hpath⟩ := hstore store .refl
        findings.corpus.nextId trimmed.bytes (metadata trimmed verdict)
      rw [show (findings.merge run valid).corpus = findings.corpus from rfl] at hrefused
      rw [hrefused] at hpath
      cases hpath
    | orphaned hstored horphan =>
      obtain rfl := Input.eq_of_trim htrim
      exact absurd horphan (creditParent_ne_error hparent)
    | saved hstored hcredit hresult =>
      exact Findings.ownsCovered_save _ howns hsize (responsibilities_of_verdict? hverdict) hcredit

/-- No report separates the owned points from the covered ones while the store takes every input,
whatever else it refuses. -/
theorem Reports.ownsCovered (h : engine.Reports input run valid result findings)
    (hstore : Storage.KeepsInputs engine.storage)
    (hparent : ∀ parent, input.parent = some parent → parent < engine.corpus.size)
    (howns : engine.findings.OwnsCovered) : findings.OwnsCovered := by
  cases h with
  | mismatched | unlogged => exact howns
  | ingested hsize hlog hingests =>
    have hlogged := logTrial_progresses (engine.counted input) input.bytes
    rw [hlog] at hlogged
    exact hingests.ownsCovered hsize (hstore.of_leads hlogged.storage) hparent howns

end Engine

end Greybox
