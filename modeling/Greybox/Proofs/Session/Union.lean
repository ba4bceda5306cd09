import Greybox.Proofs.Session.Reliable
import Greybox.Proofs.Storage.Memory

namespace Greybox

open Coverage (classes)
open Storage (NeverFails)

namespace Report

def runs (reports : List Report) : List Coverage := (accepted reports).map (·.run)

def validRuns (reports : List Report) : List Coverage :=
  ((accepted reports).filter (·.valid)).map (·.run)

def outcomes (reports : List Report) : List (Coverage × Bool) :=
  (accepted reports).map fun report => (report.run, report.valid)

variable {reports : List Report} {report : Report}

theorem runs_eq (reports : List Report) : runs reports = (outcomes reports).map (·.1) := by
  simp [runs, outcomes]

theorem validRuns_eq (reports : List Report) :
    validRuns reports = ((outcomes reports).filter (·.2)).map (·.1) := by
  simp [validRuns, outcomes, List.filter_map, Function.comp_def]

theorem validRuns_subset (reports : List Report) : validRuns reports ⊆ runs reports :=
  List.map_subset _ (List.filter_subset_self _)

end Report

open Report (runs validRuns outcomes)

/-- The maps hold exactly the classes of the accepted runs. -/
structure Feedback.Unites (feedback : Feedback) (reports : List Report) : Prop where
  total : ∀ p, feedback.total.get p = classes (runs reports) p
  valid : ∀ p, feedback.valid.get p = classes (validRuns reports) p
  size : ∀ run ∈ runs reports, run.size = feedback.total.size

namespace Feedback.Unites

variable {feedback feedback' : Feedback} {reports reports' : List Report} {report : Report}
  {settings : Settings}

theorem start (mapSize : Nat) (validityFuzzing ignoreNewCounts : Bool) :
    Unites (.start mapSize validityFuzzing ignoreNewCounts) [] := by
  refine ⟨?_, ?_, ?_⟩
  · intro p
    exact Coverage.get_zero mapSize p
  · intro p
    exact Coverage.get_zero mapSize p
  · intro run hrun
    cases hrun

theorem reject (h : feedback.Unites reports) (hreport : report.isAccepted = false) :
    feedback.Unites (reports ++ [report]) := by
  have hruns : runs (reports ++ [report]) = runs reports := by
    simp [runs, Report.accepted_concat, hreport]
  have hvalid : validRuns (reports ++ [report]) = validRuns reports := by
    simp [validRuns, Report.accepted_concat, hreport]
  refine ⟨?_, ?_, ?_⟩
  · rw [hruns]
    exact h.total
  · rw [hvalid]
    exact h.valid
  · rw [hruns]
    exact h.size

theorem accept (h : feedback.Unites reports) (hobeys : feedback.Obeys settings)
    (hreport : report.isAccepted = true) (hsize : report.run.size = feedback.total.size) :
    (feedback.commit report.run report.valid).Unites (reports ++ [report]) := by
  have hruns : runs (reports ++ [report]) = runs reports ++ [report.run] := by
    simp [runs, Report.accepted_concat, hreport]
  refine ⟨?_, ?_, ?_⟩
  · intro p
    rw [get_total_commit hsize, h.total, hruns, Coverage.classes_append]
    simp
  · intro p
    rw [hobeys.get_valid_commit hsize, h.valid]
    cases hvalid : report.valid with
    | true =>
      have hruns : validRuns (reports ++ [report]) = validRuns reports ++ [report.run] := by
        simp [validRuns, Report.accepted_concat, hreport, hvalid]
      rw [hruns, Coverage.classes_append]
      simp
    | false =>
      have hruns : validRuns (reports ++ [report]) = validRuns reports := by
        simp [validRuns, Report.accepted_concat, hreport, hvalid]
      rw [hruns]
      simp
  · rw [hruns, size_total_commit]
    intro run hrun
    rcases List.mem_append.1 hrun with hold | hnew
    · exact h.size run hold
    · rw [List.mem_singleton.1 hnew]
      exact hsize

theorem valid_within (h : feedback.Unites reports) : feedback.valid.Within feedback.total := by
  intro p
  rw [h.total, h.valid]
  exact Coverage.classes_or_classes (Report.validRuns_subset reports) p

theorem get_eq (h : feedback.Unites reports) (h' : feedback'.Unites reports')
    (hperm : (outcomes reports).Perm (outcomes reports')) (p : Nat) :
    feedback.total.get p = feedback'.total.get p ∧
      feedback.valid.get p = feedback'.valid.get p := by
  constructor
  · rw [h.total, h'.total, Report.runs_eq, Report.runs_eq]
    exact Coverage.classes_perm (hperm.map _) p
  · rw [h.valid, h'.valid, Report.validRuns_eq, Report.validRuns_eq]
    exact Coverage.classes_perm ((hperm.filter _).map _) p

theorem size_eq (h : feedback.Unites reports) (h' : feedback'.Unites reports')
    (hperm : (outcomes reports).Perm (outcomes reports')) (hsome : runs reports ≠ []) :
    feedback.total.size = feedback'.total.size := by
  obtain ⟨run, hrun⟩ := List.exists_mem_of_ne_nil _ hsome
  have hrun' : run ∈ runs reports' := by
    rw [Report.runs_eq] at hrun ⊢
    exact (hperm.map _).subset hrun
  exact (h.size run hrun).symm.trans (h'.size run hrun')

end Feedback.Unites

namespace Session

variable {σ ρ : Type} [Storage σ] [WordSource ρ] {conduct : Conduct} {settings : Settings}
  {storage : σ} {session session' later : Session σ ρ}

theorem Reachable.unites (h : Reachable conduct settings storage session)
    (hpulls : conduct.OnlyPulls) (hstore : NeverFails storage) :
    session.engine.feedback.Unites session.reports := by
  refine h.takes_induction (P := fun findings _ reports => findings.feedback.Unites reports) hpulls
    hstore (.start _ _ _) ?_ ?_
  · intro findings store later reports hunites _
    exact hunites
  · intro session report findings later hreachable htakes hunites
    rcases htakes.feedback with ⟨hreport, hsame⟩ | ⟨hreport, hsize, hmerged⟩
    · rw [hsame]
      exact hunites.reject hreport
    · rw [hmerged]
      exact hunites.accept hreachable.obeys hreport hsize

theorem Step.within (hstep : Step conduct session session')
    (hobeys : session.engine.feedback.Obeys settings) :
    session.engine.totalCoverage.Within session'.engine.totalCoverage ∧
      session.engine.validCoverage.Within session'.engine.validCoverage := by
  rw [Engine.totalCoverage, Engine.totalCoverage, Engine.validCoverage, Engine.validCoverage]
  rcases hstep.feedback with hsame | ⟨run, valid, hsize, hmerged⟩
  · rw [hsame]
    exact ⟨.refl _, .refl _⟩
  · rw [hmerged]
    exact ⟨Feedback.total_within_commit hsize, hobeys.valid_within_commit hsize⟩

theorem Reachable.within (h : Reachable conduct settings storage session)
    (hleads : session.Leads conduct later) :
    session.engine.totalCoverage.Within later.engine.totalCoverage ∧
      session.engine.validCoverage.Within later.engine.validCoverage := by
  induction hleads with
  | refl => exact ⟨.refl _, .refl _⟩
  | tail hleads hstep ih =>
    have hwithin := hstep.within (h.leads hleads).obeys
    exact ⟨ih.1.trans hwithin.1, ih.2.trans hwithin.2⟩

/-- At every moment of a session the maps hold the classes of the accepted runs and of the valid
ones among them. So the valid classes are among the total ones, no class is ever lost, and sessions
that accepted the same runs, in whatever order, have the same counters at every point. Their maps
are the same too, but for sessions without any accepted run whose settings give maps of different
sizes. -/
theorem Reachable.coverage_eq_classes (h : Reachable .any settings storage session)
    (hstore : NeverFails storage) :
    (∀ p, session.engine.totalCoverage.get p = classes (runs session.reports) p ∧
      session.engine.validCoverage.get p = classes (validRuns session.reports) p) ∧
    session.engine.validCoverage.Within session.engine.totalCoverage ∧
    (∀ later, session.Leads .any later →
      session.engine.totalCoverage.Within later.engine.totalCoverage ∧
      session.engine.validCoverage.Within later.engine.validCoverage) ∧
    ∀ (σ' ρ' : Type) [Storage σ'] [WordSource ρ'] (settings' : Settings) (storage' : σ')
      (other : Session σ' ρ'), Reachable .any settings' storage' other → NeverFails storage' →
      (outcomes session.reports).Perm (outcomes other.reports) →
      (∀ p, session.engine.totalCoverage.get p = other.engine.totalCoverage.get p ∧
        session.engine.validCoverage.get p = other.engine.validCoverage.get p) ∧
      (runs session.reports ≠ [] ∨ settings.coverageMapSize = settings'.coverageMapSize →
        session.engine.totalCoverage = other.engine.totalCoverage ∧
        session.engine.validCoverage = other.engine.validCoverage) := by
  have hunites := h.unites Conduct.onlyPulls_any hstore
  refine ⟨fun p => ⟨hunites.total p, hunites.valid p⟩, hunites.valid_within,
    fun later hleads => h.within hleads, ?_⟩
  intro σ' ρ' _ _ settings' storage' other hother hstore' hperm
  have hunites' := hother.unites Conduct.onlyPulls_any hstore'
  have hget := hunites.get_eq hunites' hperm
  refine ⟨hget, ?_⟩
  intro hcomparable
  have hsize : session.engine.feedback.total.size = other.engine.feedback.total.size := by
    rcases hcomparable with hsome | hsettings
    · exact hunites.size_eq hunites' hperm hsome
    · rw [h.obeys.total_size, hother.obeys.total_size, hsettings]
  have hvalid : session.engine.feedback.valid.size = other.engine.feedback.valid.size := by
    rw [h.obeys.size_eq, hother.obeys.size_eq, hsize]
  exact ⟨Coverage.eq_of_get hsize fun p => (hget p).1, Coverage.eq_of_get hvalid fun p => (hget p).2⟩

theorem coverage_eq_classes_twice :
    (sampleTwice (∅ : MemoryStore) false true).engine.totalCoverage =
        (sampleTwice (∅ : MemoryStore) true false).engine.totalCoverage ∧
      (sampleTwice (∅ : MemoryStore) false true).engine.totalCoverage.get 1 =
        classes [sampleRun, sampleRun] 1 := by
  have hfirst := sampleTwice_reachable (∅ : MemoryStore) false true
  have hsecond := sampleTwice_reachable (∅ : MemoryStore) true false
  obtain ⟨hclasses, -, -, hother⟩ := hfirst.coverage_eq_classes (MemoryStore.neverFails ∅)
  have hperm : (outcomes (sampleTwice (∅ : MemoryStore) false true).reports).Perm
      (outcomes (sampleTwice (∅ : MemoryStore) true false).reports) := by decide +kernel
  have hequal := hother _ _ _ _ _ hsecond (MemoryStore.neverFails ∅) hperm
  have hruns : runs (sampleTwice (∅ : MemoryStore) false true).reports = [sampleRun, sampleRun] := by
    decide +kernel
  exact ⟨(hequal.2 (.inr rfl)).1, hruns ▸ (hclasses 1).1⟩

end Session

end Greybox
