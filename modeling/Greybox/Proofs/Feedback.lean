import Greybox.Feedback
import Greybox.Proofs.Coverage.Union
import Greybox.Settings

namespace Greybox.Feedback

variable {feedback : Feedback} {run : Coverage} {valid : Bool} {p : Nat}

@[simp] theorem size_total_commit (feedback : Feedback) (run : Coverage) (valid : Bool) :
    (feedback.commit run valid).total.size = feedback.total.size :=
  Coverage.size_merge _ _

@[simp] theorem size_valid_commit (feedback : Feedback) (run : Coverage) (valid : Bool) :
    (feedback.commit run valid).valid.size = feedback.valid.size := by
  cases valid with
  | true => exact Coverage.size_merge _ _
  | false => rfl

@[simp] theorem responsibilities_assess (feedback : Feedback) (run : Coverage) (valid : Bool) :
    (feedback.assess run valid).responsibilities = feedback.claims run valid := rfl

@[simp] theorem absorbInvalidSeed_eq (feedback : Feedback) (run : Coverage) :
    feedback.absorbInvalidSeed run =
      (⟨feedback.claims run false, [.initialSeed]⟩, feedback.commit run false) := rfl

theorem mem_claims : p ∈ feedback.claims run valid ↔
    run.get p ≠ 0 ∧ (feedback.total.get p = 0 ∨ valid = true ∧ feedback.valid.get p = 0) := by
  rw [claims, newValidPoints]
  rw [PointSet.mem_union]
  cases valid with
  | false => simp [Coverage.mem_newPoints]
  | true => simp [Coverage.mem_newPoints, and_or_left]

theorem get_ne_zero_of_mem_claims (h : p ∈ feedback.claims run valid) : run.get p ≠ 0 :=
  (mem_claims.1 h).1

theorem get_total_commit_ne_zero_iff (hsize : run.size = feedback.total.size) :
    (feedback.commit run valid).total.get p ≠ 0 ↔ feedback.total.get p ≠ 0 ∨ run.get p ≠ 0 :=
  Coverage.get_merge_ne_zero_iff hsize

theorem get_total_commit_ne_zero_iff_claims (hsize : run.size = feedback.total.size) :
    (feedback.commit run valid).total.get p ≠ 0 ↔
      feedback.total.get p ≠ 0 ∨ p ∈ feedback.claims run valid := by
  rw [get_total_commit_ne_zero_iff hsize, mem_claims]
  by_cases h : feedback.total.get p = 0 <;> simp [h]

theorem isInteresting_assess_eq_false_iff :
    (feedback.assess run valid).isInteresting = false ↔
      (feedback.ignoreNewCounts = false → feedback.total.wouldChange run = false) ∧
      (∀ p, p ∉ run.newPoints feedback.total) ∧
      (feedback.validityFuzzing = true → ∀ p, p ∉ feedback.newValidPoints run valid) := by
  rw [← PointSet.isEmpty_iff, ← PointSet.isEmpty_iff]
  simp only [Verdict.isInteresting, assess, Bool.not_eq_false', List.isEmpty_iff,
    List.append_eq_nil_iff, and_assoc]
  -- One reason for each of the three conditions.
  refine and_congr ?_ (and_congr ?_ ?_)
  · cases feedback.ignoreNewCounts <;> simp
  · simp
  · cases feedback.validityFuzzing <;> simp

theorem isInteresting_assess_iff :
    (feedback.assess run valid).isInteresting = true ↔
      (feedback.ignoreNewCounts = false ∧ feedback.total.wouldChange run = true) ∨
      (∃ p, p ∈ run.newPoints feedback.total) ∨
      (feedback.validityFuzzing = true ∧ ∃ p, p ∈ feedback.newValidPoints run valid) := by
  rw [← Bool.not_eq_false, isInteresting_assess_eq_false_iff]
  simp only [Classical.not_and_iff_not_or_not, Classical.not_imp, Classical.not_forall,
    Classical.not_not, Bool.not_eq_false]

theorem get_total_ne_zero_of_not_interesting
    (h : (feedback.assess run valid).isInteresting = false) (hp : run.get p ≠ 0) :
    feedback.total.get p ≠ 0 := by
  intro hzero
  exact (isInteresting_assess_eq_false_iff.1 h).2.1 p (Coverage.mem_newPoints.2 ⟨hp, hzero⟩)

/-- Where new points of valid runs matter, a dull run has nothing to claim. -/
theorem not_mem_claims_of_not_interesting (hvalidity : feedback.validityFuzzing = true)
    (h : (feedback.assess run valid).isInteresting = false) : p ∉ feedback.claims run valid := by
  obtain ⟨-, htotal, hvalid⟩ := isInteresting_assess_eq_false_iff.1 h
  rw [claims, PointSet.mem_union]
  rintro (hp | hp)
  · exact htotal p hp
  · exact hvalid hvalidity p hp

/-- Where new counts matter, merging a dull run changes nothing. -/
theorem total_commit_of_not_interesting (hcounts : feedback.ignoreNewCounts = false)
    (h : (feedback.assess run valid).isInteresting = false) :
    (feedback.commit run valid).total = feedback.total :=
  Coverage.merge_eq_self ((isInteresting_assess_eq_false_iff.1 h).1 hcounts)

theorem get_total_commit_ne_zero_iff_of_not_interesting (hsize : run.size = feedback.total.size)
    (h : (feedback.assess run valid).isInteresting = false) :
    (feedback.commit run valid).total.get p ≠ 0 ↔ feedback.total.get p ≠ 0 := by
  rw [get_total_commit_ne_zero_iff hsize]
  exact or_iff_left_of_imp (get_total_ne_zero_of_not_interesting h)

/-- Feedback over maps of the size and by the rules that the settings ask for. -/
structure Obeys (feedback : Feedback) (settings : Settings) : Prop where
  total_size : feedback.total.size = settings.coverageMapSize
  valid_size : feedback.valid.size = settings.coverageMapSize
  validityFuzzing : feedback.validityFuzzing = settings.validityFuzzing
  ignoreNewCounts : feedback.ignoreNewCounts = settings.disableSaveNewCounts

theorem obeys_start (settings : Settings) :
    (start settings.coverageMapSize settings.validityFuzzing settings.disableSaveNewCounts).Obeys
      settings :=
  ⟨Coverage.size_zero _, Coverage.size_zero _, rfl, rfl⟩

variable {settings : Settings}

theorem Obeys.size_eq (h : feedback.Obeys settings) : feedback.valid.size = feedback.total.size :=
  h.valid_size.trans h.total_size.symm

theorem Obeys.commit (h : feedback.Obeys settings) (run : Coverage) (valid : Bool) :
    (feedback.commit run valid).Obeys settings :=
  ⟨(size_total_commit feedback run valid).trans h.total_size,
    (size_valid_commit feedback run valid).trans h.valid_size, h.validityFuzzing, h.ignoreNewCounts⟩

theorem get_total_commit (hsize : run.size = feedback.total.size) (p : Nat) :
    (feedback.commit run valid).total.get p = feedback.total.get p ||| bucket (run.get p) :=
  Coverage.get_merge_of_size_eq hsize p

theorem Obeys.get_valid_commit (h : feedback.Obeys settings) (hsize : run.size = feedback.total.size)
    (p : Nat) : (feedback.commit run valid).valid.get p =
      if valid then feedback.valid.get p ||| bucket (run.get p) else feedback.valid.get p := by
  cases valid with
  | true => exact Coverage.get_merge_of_size_eq (hsize.trans h.size_eq.symm) p
  | false => rfl

theorem total_within_commit (hsize : run.size = feedback.total.size) :
    feedback.total.Within (feedback.commit run valid).total :=
  Coverage.within_merge hsize

theorem Obeys.valid_within_commit (h : feedback.Obeys settings)
    (hsize : run.size = feedback.total.size) :
    feedback.valid.Within (feedback.commit run valid).valid := by
  cases valid with
  | true => exact Coverage.within_merge (hsize.trans h.size_eq.symm)
  | false => exact Coverage.Within.refl _

end Greybox.Feedback
