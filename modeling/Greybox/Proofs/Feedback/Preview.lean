import Greybox.Proofs.Coverage.Seen
import Greybox.Proofs.Feedback

namespace Greybox.Feedback

variable {feedback : Feedback} {run : Coverage} {valid again : Bool} {size p : Nat}

inductive Reachable (size : Nat) : Feedback → Prop
  | start (validityFuzzing ignoreNewCounts : Bool) :
      Reachable size (.start size validityFuzzing ignoreNewCounts)
  | evaluate {feedback : Feedback} (h : Reachable size feedback) (run : Coverage)
      (hsize : run.size = size) (valid : Bool) : Reachable size (feedback.evaluate run valid).2
  | commit {feedback : Feedback} (h : Reachable size feedback) (run : Coverage)
      (hsize : run.size = size) (valid : Bool) : Reachable size (feedback.commit run valid)
  | absorb {feedback : Feedback} (h : Reachable size feedback) (run : Coverage)
      (hsize : run.size = size) : Reachable size (feedback.absorbInvalidSeed run).2

theorem Reachable.sizes (h : Reachable size feedback) :
    feedback.total.size = size ∧ feedback.valid.size = size := by
  induction h with
  | start => exact ⟨Coverage.size_zero _, Coverage.size_zero _⟩
  | evaluate _ run _ valid ih | commit _ run _ valid ih =>
    exact ⟨(size_total_commit _ _ _).trans ih.1, (size_valid_commit _ _ _).trans ih.2⟩
  | absorb _ run _ ih =>
    exact ⟨(size_total_commit _ _ _).trans ih.1, (size_valid_commit _ _ _).trans ih.2⟩

theorem newCounts_mem_reasons : .newCounts ∈ (feedback.assess run valid).reasons ↔
    feedback.ignoreNewCounts = false ∧ feedback.total.wouldChange run = true := by
  simp [assess]

theorem newCoverage_mem_reasons : .newCoverage ∈ (feedback.assess run valid).reasons ↔
    ∃ p, p ∈ run.newPoints feedback.total := by
  simp [assess, ← Bool.not_eq_true, PointSet.isEmpty_iff]

theorem newValid_mem_reasons : .newValid ∈ (feedback.assess run valid).reasons ↔
    feedback.validityFuzzing = true ∧ ∃ p, p ∈ feedback.newValidPoints run valid := by
  simp [assess, ← Bool.not_eq_true, PointSet.isEmpty_iff]

theorem nonZeroCount_valid_lt_commit_iff (hsize : run.size = feedback.valid.size) :
    feedback.valid.nonZeroCount < (feedback.commit run valid).valid.nonZeroCount ↔
      ∃ p, p ∈ feedback.newValidPoints run valid := by
  cases valid with
  | true => exact Coverage.nonZeroCount_lt_merge_iff hsize
  | false => simp [commit, newValidPoints]

theorem get_valid_commit_ne_zero_iff (hsize : run.size = feedback.valid.size) :
    (feedback.commit run valid).valid.get p ≠ 0 ↔
      feedback.valid.get p ≠ 0 ∨ valid = true ∧ run.get p ≠ 0 := by
  cases valid with
  | true => exact (Coverage.get_merge_ne_zero_iff hsize).trans (by simp)
  | false => simp [commit]

theorem mem_claims_iff_commit (htotal : run.size = feedback.total.size)
    (hvalid : run.size = feedback.valid.size) :
    p ∈ feedback.claims run valid ↔
      (feedback.total.get p = 0 ∧ (feedback.commit run valid).total.get p ≠ 0) ∨
      (feedback.valid.get p = 0 ∧ (feedback.commit run valid).valid.get p ≠ 0) := by
  rw [mem_claims, get_total_commit_ne_zero_iff htotal, get_valid_commit_ne_zero_iff hvalid]
  constructor
  · rintro ⟨hhit, hfresh | ⟨hrun, hfresh⟩⟩
    · exact .inl ⟨hfresh, .inr hhit⟩
    · exact .inr ⟨hfresh, .inr ⟨hrun, hhit⟩⟩
  · rintro (⟨hfresh, hcovered | hhit⟩ | ⟨hfresh, hcovered | ⟨hrun, hhit⟩⟩)
    · exact absurd hfresh hcovered
    · exact ⟨hhit, .inl hfresh⟩
    · exact absurd hfresh hcovered
    · exact ⟨hhit, .inr ⟨hrun, hfresh⟩⟩

theorem assess_commit (htotal : run.size = feedback.total.size)
    (hvalid : run.size = feedback.valid.size) (hagain : again = true → valid = true) :
    (feedback.commit run valid).assess run again = ⟨∅, []⟩ := by
  have hcounts : (feedback.commit run valid).total.wouldChange run = false :=
    Coverage.wouldChange_merge _ _
  have hnew : run.newPoints (feedback.commit run valid).total = ∅ := by
    rw [PointSet.eq_empty_iff]
    intro p hp
    obtain ⟨hhit, hfresh⟩ := Coverage.mem_newPoints.1 hp
    exact (get_total_commit_ne_zero_iff htotal).2 (.inr hhit) hfresh
  have hnewValid : (feedback.commit run valid).newValidPoints run again = ∅ := by
    cases again with
    | false => rfl
    | true =>
      rw [PointSet.eq_empty_iff]
      intro p hp
      obtain ⟨hhit, hfresh⟩ := Coverage.mem_newPoints.1 hp
      exact (get_valid_commit_ne_zero_iff hvalid).2 (.inr ⟨hagain rfl, hhit⟩) hfresh
  have hempty : (∅ : PointSet).isEmpty = true := rfl
  have hunion : (∅ ∪ ∅ : PointSet) = ∅ := PointSet.eq_empty_iff.2 (by simp)
  simp [assess, hcounts, hnew, hnewValid, hempty, hunion]

/-- The verdict on a run tells what merging it will do. There is a reason for each of the two unions
that will have more points, and one if any class is new where these matter; the points to claim are
those that will be covered first in one of the unions. Once merged, the run gives no reason and
claims nothing. -/
theorem Reachable.assess_previews_commit (h : Reachable size feedback) (hsize : run.size = size)
    (valid : Bool) :
    let later := feedback.commit run valid
    let verdict := feedback.assess run valid
    (.newCounts ∈ verdict.reasons ↔
      feedback.ignoreNewCounts = false ∧ later.total ≠ feedback.total) ∧
    (.newCoverage ∈ verdict.reasons ↔
      feedback.total.nonZeroCount < later.total.nonZeroCount) ∧
    (.newValid ∈ verdict.reasons ↔ feedback.validityFuzzing = true ∧
      feedback.valid.nonZeroCount < later.valid.nonZeroCount) ∧
    (∀ p, p ∈ verdict.responsibilities ↔
      (feedback.total.get p = 0 ∧ later.total.get p ≠ 0) ∨
      (feedback.valid.get p = 0 ∧ later.valid.get p ≠ 0)) ∧
    verdict.responsibilities = feedback.claims run valid ∧
    later.assess run valid = ⟨∅, []⟩ ∧ later.assess run false = ⟨∅, []⟩ := by
  intro later verdict
  obtain ⟨htotal, hvalid⟩ := h.sizes
  replace htotal : run.size = feedback.total.size := hsize.trans htotal.symm
  replace hvalid : run.size = feedback.valid.size := hsize.trans hvalid.symm
  refine ⟨?_, ?_, ?_, ?_, rfl, ?_, ?_⟩
  · rw [newCounts_mem_reasons, ← Coverage.merge_ne_self_iff]
    rfl
  · rw [newCoverage_mem_reasons, ← Coverage.nonZeroCount_lt_merge_iff htotal]
    rfl
  · rw [newValid_mem_reasons, nonZeroCount_valid_lt_commit_iff hvalid]
  · intro p
    exact mem_claims_iff_commit htotal hvalid
  · exact assess_commit htotal hvalid id
  · exact assess_commit htotal hvalid (absurd · Bool.false_ne_true)

theorem assess_previews_commit_sample :
    let feedback := (start 2 true false).commit ⟨#[1, 0]⟩ false
    let run : Coverage := ⟨#[2, 1]⟩
    let verdict := feedback.assess run true
    Reachable 2 feedback ∧ run.size = 2 ∧
      verdict.reasons = [.newCounts, .newCoverage, .newValid] ∧
      feedback.total.nonZeroCount < (feedback.commit run true).total.nonZeroCount ∧
      feedback.valid.nonZeroCount < (feedback.commit run true).valid.nonZeroCount ∧
      (feedback.commit run true).assess run false = ⟨∅, []⟩ := by
  intro feedback run verdict
  have hreachable : Reachable 2 feedback := .commit (.start true false) ⟨#[1, 0]⟩ rfl false
  have hsize : run.size = 2 := rfl
  have hreasons : verdict.reasons = [.newCounts, .newCoverage, .newValid] := by decide +kernel
  obtain ⟨-, htotal, hvalid, -, -, -, hagain⟩ := hreachable.assess_previews_commit hsize true
  have hcoverage : SaveReason.newCoverage ∈ verdict.reasons := by simp [hreasons]
  have hvalidity : SaveReason.newValid ∈ verdict.reasons := by simp [hreasons]
  exact ⟨hreachable, hsize, hreasons, htotal.1 hcoverage, (hvalid.1 hvalidity).2, hagain⟩

end Greybox.Feedback
