import Greybox.Proofs.Session.Ownership
import Greybox.Proofs.Session.Succession
import Greybox.Proofs.Session.Union

namespace Greybox

open Storage (NeverFails)

namespace Report

def hits (p : Nat) (report : Report) : Bool := report.run.get p != 0

/-- The first accepted report of a valid run that hit the point, else the first of any run that
did. -/
def claimant (reports : List Report) (p : Nat) : Option Report :=
  ((accepted reports).find? fun report => report.valid && report.hits p).or
    ((accepted reports).find? (·.hits p))

variable {reports : List Report} {report : Report} {feedback : Feedback} {p : Nat}

theorem mem_of_claimant (h : claimant reports p = some report) : report ∈ accepted reports := by
  rcases Option.or_eq_some_iff.1 h with hvalid | ⟨-, hany⟩
  · exact List.mem_of_find?_eq_some hvalid
  · exact List.mem_of_find?_eq_some hany

theorem find?_hits_eq_none (h : feedback.Unites reports) :
    (accepted reports).find? (·.hits p) = none ↔ feedback.total.get p = 0 := by
  rw [h.total, Coverage.classes_eq_zero_iff, List.find?_eq_none]
  simp [runs, hits]

theorem find?_valid_hits_eq_none (h : feedback.Unites reports) :
    (accepted reports).find? (fun report => report.valid && report.hits p) = none ↔
      feedback.valid.get p = 0 := by
  rw [h.valid, Coverage.classes_eq_zero_iff, List.find?_eq_none]
  simp only [validRuns, hits, List.forall_mem_map, List.mem_filter, Bool.and_eq_true, bne_iff_ne,
    not_and, Classical.not_not, and_imp]

theorem valid_of_claimant (h : feedback.Unites reports) (hclaimant : claimant reports p = some report) :
    report.valid = true ↔ feedback.valid.get p ≠ 0 := by
  rw [Ne, ← find?_valid_hits_eq_none h]
  rcases Option.or_eq_some_iff.1 hclaimant with hfirst | ⟨hnone, hfirst⟩
  · have hvalid := List.find?_some hfirst
    rw [Bool.and_eq_true] at hvalid
    exact iff_of_true hvalid.1 (by simp [hfirst])
  · have hhit := List.find?_some hfirst
    have hinvalid := List.find?_eq_none.1 hnone report (List.mem_of_find?_eq_some hfirst)
    rw [Bool.and_eq_true] at hinvalid
    exact iff_of_false (fun hvalid => hinvalid ⟨hvalid, hhit⟩) (not_not_intro hnone)

theorem claimant_reject (hreport : report.isAccepted = false) (p : Nat) :
    claimant (reports ++ [report]) p = claimant reports p := by
  simp [claimant, accepted_concat, hreport]

theorem claimant_accept (h : feedback.Unites reports) (hreport : report.isAccepted = true) (p : Nat) :
    claimant (reports ++ [report]) p =
      if p ∈ feedback.claims report.run report.valid then some report else claimant reports p := by
  have htotal := find?_hits_eq_none (p := p) h
  have hvalid := find?_valid_hits_eq_none (p := p) h
  have hboth : (accepted reports).find? (·.hits p) = none →
      (accepted reports).find? (fun report => report.valid && report.hits p) = none := by
    intro hnone
    rw [List.find?_eq_none] at hnone ⊢
    intro other hother hhit
    exact hnone other hother (Bool.and_eq_true_iff.1 hhit).2
  have hhits : report.hits p = true ↔ report.run.get p ≠ 0 := bne_iff_ne
  simp only [claimant, accepted_concat, hreport, if_true, List.find?_append, Feedback.mem_claims,
    ← htotal, ← hvalid, ← hhits]
  -- What is left is which of the earlier hits there are, and whether the new run is one.
  generalize (accepted reports).find? (·.hits p) = hit? at *
  generalize (accepted reports).find? (fun report => report.valid && report.hits p) = valid? at *
  cases hhit : report.hits p with
  | false => simp [hhit]
  | true =>
    cases hit? with
    | none =>
      rw [hboth rfl]
      cases hrun : report.valid <;> simp [hhit, hrun]
    | some earlier => cases valid? <;> cases hrun : report.valid <;> simp [hhit, hrun]

end Report

open Report (claimant)

/-- The entry came of the report: it has the bytes that trimming left, and the snapshot and the
validity of the run. -/
structure Input.StemsFrom (entry : Input) (report : Report) : Prop where
  bytes : entry.bytes = report.input.trim.2.bytes
  coverage : entry.coverage = some report.run
  valid : entry.valid = report.valid

def Report.ExplainsEntry (reports : List Report) (id : Nat) (entry : Input) : Prop :=
  ∀ report ∈ reports, report.savedId? = some id → entry.StemsFrom report

theorem Report.stable_explainsEntry (reports : List Report) :
    Corpus.Stable (ExplainsEntry reports) := by
  constructor
  · intro id entry p h report hreport hid
    have hstems := h report hreport hid
    exact ⟨hstems.bytes, hstems.coverage, hstems.valid⟩
  · intro id entry n h report hreport hid
    have hstems := h report hreport hid
    exact ⟨hstems.bytes, hstems.coverage, hstems.valid⟩

theorem Report.explainsEntry_concat {reports : List Report} {report : Report} {id : Nat}
    {entry : Input} : ExplainsEntry (reports ++ [report]) id entry ↔
      ExplainsEntry reports id entry ∧ (report.savedId? = some id → entry.StemsFrom report) := by
  rw [ExplainsEntry, List.forall_mem_append, List.forall_mem_singleton]
  rfl

/-- What was reported as saved is in the corpus. -/
structure Corpus.Files (corpus : Corpus) (reports : List Report) : Prop where
  saved : ∀ report ∈ reports, ∀ id, report.savedId? = some id → id < corpus.size
  entries : corpus.Each (Report.ExplainsEntry reports)

namespace Corpus.Files

variable {corpus credited : Corpus} {reports : List Report} {report : Report}

theorem skip (h : corpus.Files reports) (hreport : report.savedId? = none) :
    corpus.Files (reports ++ [report]) := by
  constructor
  · rw [List.forall_mem_append, List.forall_mem_singleton]
    refine ⟨h.saved, ?_⟩
    intro id hid
    cases hreport.symm.trans hid
  · intro id entry hentry
    refine Report.explainsEntry_concat.2 ⟨h.entries id entry hentry, ?_⟩
    intro hid
    cases hreport.symm.trans hid

theorem file (h : corpus.Files reports) (path : String) (claims : PointSet)
    (hreport : report.savedId? = some corpus.size)
    (hcredit : Engine.creditParent corpus report.input.parent = .ok credited) :
    (credited.insert (Engine.sealed { report.input.trim.2 with valid := report.valid } report.run path)
      claims).1.Files (reports ++ [report]) := by
  have hsize : credited.size = corpus.size := Engine.size_creditParent hcredit
  constructor
  · rw [List.forall_mem_append, List.forall_mem_singleton, size_insert, hsize]
    constructor
    · intro other hother id hid
      exact Nat.lt_succ_of_lt (h.saved other hother id hid)
    · intro id hid
      obtain rfl := Option.some.inj (hreport.symm.trans hid)
      exact Nat.lt_succ_self _
  · apply each_insert _ (Report.stable_explainsEntry _)
    · rw [hsize]
      refine Report.explainsEntry_concat.2 ⟨?_, fun _ => ⟨rfl, rfl, rfl⟩⟩
      -- No earlier report was given the new id.
      intro other hother hid
      exact absurd (h.saved other hother _ hid) (Nat.lt_irrefl _)
    · apply Engine.each_creditParent hcredit _ (Report.stable_explainsEntry _)
      intro id entry hentry
      refine Report.explainsEntry_concat.2 ⟨h.entries id entry hentry, ?_⟩
      intro hid
      obtain rfl := Option.some.inj (hreport.symm.trans hid)
      exact absurd (get?_lt hentry) (Nat.lt_irrefl _)

end Corpus.Files

namespace Report.Takes

variable {σ : Type} [Storage σ] {findings findings' : Findings} {store later : σ}
  {report : Report} {reports : List Report}

theorem files (h : report.Takes findings store findings' later)
    (hfiles : findings.corpus.Files reports) : findings'.corpus.Files (reports ++ [report]) := by
  obtain ⟨input, run, valid, result⟩ := report
  cases h with
  | rejected | ignored | discarded => exact hfiles.skip rfl
  | saved hsize hclaims htrim hcredit hrecords hdeposits =>
    obtain rfl := Input.eq_of_trim htrim
    exact hfiles.file _ _ rfl hcredit

theorem owner?_eq (h : report.Takes findings store findings' later)
    (hunites : findings.feedback.Unites reports)
    (hvalidity : findings.feedback.validityFuzzing = true)
    (howner : ∀ p, findings.corpus.owner? p = (claimant reports p).bind savedId?) (p : Nat) :
    findings'.corpus.owner? p = (claimant (reports ++ [report]) p).bind savedId? := by
  obtain ⟨input, run, valid, result⟩ := report
  cases h with
  | rejected | ignored =>
    rw [claimant_reject rfl]
    exact howner p
  | discarded hsize hdull =>
    rw [claimant_accept hunites rfl,
      if_neg (Feedback.not_mem_claims_of_not_interesting hvalidity hdull)]
    exact howner p
  | saved hsize hclaims htrim hcredit hrecords hdeposits =>
    rw [claimant_accept hunites rfl]
    simp only [Findings.save, Corpus.owner?_insert, hclaims, Engine.owner?_creditParent hcredit,
      Engine.size_creditParent hcredit]
    by_cases hp : p ∈ findings.feedback.claims run valid
    · rw [if_pos hp, if_pos hp]
      rfl
    · rw [if_neg hp, if_neg hp]
      exact howner p

end Report.Takes

namespace Session

variable {σ ρ : Type} [Storage σ] [WordSource ρ] {conduct : Conduct} {settings : Settings}
  {storage : σ} {session middle later : Session σ ρ}

theorem Reachable.files (h : Reachable conduct settings storage session)
    (hpulls : conduct.OnlyPulls) (hstore : NeverFails storage) :
    session.engine.corpus.Files session.reports := by
  refine h.takes_induction (P := fun findings _ reports => findings.corpus.Files reports) hpulls
    hstore ⟨?_, Corpus.each_empty⟩ ?_ ?_
  · intro report hreport
    cases hreport
  · intro findings store later reports hfiles _
    exact hfiles
  · intro session report findings later _ htakes hfiles
    exact htakes.files hfiles

theorem Reachable.owner?_eq_claimant (h : Reachable conduct settings storage session)
    (hpulls : conduct.OnlyPulls) (hstore : NeverFails storage)
    (hvalidity : settings.validityFuzzing = true) (p : Nat) :
    session.engine.corpus.owner? p = (claimant session.reports p).bind Report.savedId? := by
  refine h.takes_induction (P := fun findings _ reports =>
    ∀ p, findings.corpus.owner? p = (claimant reports p).bind Report.savedId?) hpulls hstore ?_ ?_ ?_
    p
  · intro p
    exact Corpus.owner?_empty p
  · intro findings store later reports howner _
    exact howner
  · intro session report findings later hreachable htakes howner
    exact htakes.owner?_eq (hreachable.unites hpulls hstore)
      (hreachable.obeys.validityFuzzing.trans hvalidity) howner

/-- The owner of a point changes at most once, and only from an entry with an invalid run to one
with a valid run. If new points of valid runs are a reason to save, the owner is at every moment the
input of the first accepted valid run that hit the point, or of the first accepted run if there was
no valid one; and so its run is valid exactly if valid runs have covered the point. -/
theorem Reachable.owner?_history (h : Reachable .any settings storage session)
    (hstore : NeverFails storage) :
    (∀ p a middle later, session.engine.corpus.owner? p = some a → session.Leads .any middle →
      middle.Leads .any later → ∃ b, middle.engine.corpus.owner? p = some b ∧ (b ≠ a →
        (∃ old new, session.engine.corpus.get? a = some old ∧ old.valid = false ∧
          middle.engine.corpus.get? b = some new ∧ new.valid = true) ∧
        later.engine.corpus.owner? p = some b)) ∧
    (settings.validityFuzzing = true → ∀ p, session.engine.totalCoverage.get p ≠ 0 →
      ∃ id entry report, session.engine.corpus.owner? p = some id ∧
        session.engine.corpus.get? id = some entry ∧
        (entry.valid = true ↔ session.engine.validCoverage.get p ≠ 0) ∧
        claimant session.reports p = some report ∧ report.savedId? = some id ∧
        entry.StemsFrom report) := by
  have hpulls := Conduct.onlyPulls_any
  constructor
  · intro p a middle later howner hmiddle hlater
    exact h.owner?_settles hpulls hstore howner hmiddle hlater
  · intro hvalidity p hcovered
    -- The owner was saved for the report of the claimant, so its validity is the claimant's.
    obtain ⟨id, howner⟩ := (h.ownsCovered hpulls hstore.keepsInputs p).2 hcovered
    have hclaimed := (h.owner?_eq_claimant hpulls hstore hvalidity p).symm.trans howner
    obtain ⟨report, hclaimant, hid⟩ := Option.bind_eq_some_iff.1 hclaimed
    have hmem : report ∈ session.reports := List.mem_of_mem_filter (Report.mem_of_claimant hclaimant)
    have hfiles := h.files hpulls hstore
    obtain ⟨entry, hentry⟩ := Corpus.exists_get? (hfiles.saved report hmem id hid)
    have hstems : entry.StemsFrom report := hfiles.entries id entry hentry report hmem hid
    refine ⟨id, entry, report, howner, hentry, ?_, hclaimant, hid, hstems⟩
    rw [hstems.valid]
    exact Report.valid_of_claimant (h.unites hpulls hstore) hclaimant

theorem owner?_history_twice : ∃ entry report,
    (sampleTwice (∅ : MemoryStore) false true).engine.corpus.owner? 1 = some 1 ∧
    (sampleTwice (∅ : MemoryStore) false true).engine.corpus.get? 1 = some entry ∧
    entry.valid = true ∧ report.savedId? = some 1 ∧ entry.StemsFrom report := by
  obtain ⟨-, hclaimants⟩ := (sampleTwice_reachable (∅ : MemoryStore) false true).owner?_history
    (MemoryStore.neverFails ∅)
  have hcovered : (sampleTwice (∅ : MemoryStore) false true).engine.totalCoverage.get 1 ≠ 0 := by
    decide +kernel
  have hvalid : (sampleTwice (∅ : MemoryStore) false true).engine.validCoverage.get 1 ≠ 0 := by
    decide +kernel
  have howner : (sampleTwice (∅ : MemoryStore) false true).engine.corpus.owner? 1 = some 1 := by
    decide +kernel
  obtain ⟨id, entry, report, hid, hentry, hiff, -, hsaved, hstems⟩ := hclaimants rfl 1 hcovered
  obtain rfl : id = 1 := Option.some.inj (hid.symm.trans howner)
  exact ⟨entry, report, howner, hentry, hiff.2 hvalid, hsaved, hstems⟩

end Session

end Greybox
