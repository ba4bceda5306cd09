import Greybox.Proofs.Engine.Trials
import Greybox.Proofs.Session.Ownership

namespace Greybox

open Storage (NeverFails)
open Session (Reachable Sound)

variable {σ ρ : Type} [Storage σ] {settings : Settings} {storage : σ} {session : Session σ ρ}
  {engine engine' : Engine σ ρ} {outstanding outstanding' : List Input} {handed input : Input}

theorem Session.Sound.restrict {reports : List Report} (h : session.Sound .any settings storage)
    (hfewer : outstanding ⊆ session.outstanding) :
    Sound .any settings storage ⟨session.engine, outstanding, reports⟩ :=
  h.reaches (Engine.Progresses.refl session.engine) rfl (Nat.le_refl _) h.lockstep h.entries
    h.covered hfewer

namespace Engine

/-- The engine is sound while the given inputs are out, and its saved inputs own exactly the covered
points. -/
structure Steady (settings : Settings) (storage : σ) (outstanding : List Input)
    (engine : Engine σ ρ) : Prop where
  sound : Sound .any settings storage ⟨engine, outstanding, []⟩
  owns : engine.findings.OwnsCovered

namespace Steady

theorem of_reachable [WordSource ρ] (h : Reachable .any settings storage session)
    (hstore : NeverFails storage) :
    session.engine.Steady settings storage session.outstanding where
  sound := (h.sound Conduct.onlyPulls_any).restrict (List.Subset.refl _)
  owns := h.ownsCovered Conduct.onlyPulls_any hstore.keepsInputs

theorem restrict (h : engine.Steady settings storage outstanding)
    (hfewer : outstanding' ⊆ outstanding) : engine.Steady settings storage outstanding' :=
  ⟨h.sound.restrict hfewer, h.owns⟩

theorem note (h : engine.Steady settings storage outstanding) (event : Event) :
    (engine.note event).Steady settings storage outstanding where
  sound := h.sound.reaches (note_progresses engine event) rfl (Nat.le_refl _) h.sound.lockstep
    h.sound.entries h.sound.covered fun _ hinput => hinput
  owns := h.owns

theorem nextInput [WordSource ρ] (h : engine.Steady settings storage outstanding) :
    ∃ input engine', engine.nextInput = (.ok input, engine') ∧
      engine'.Steady settings storage (outstanding ++ [input]) ∧
      engine'.trials = engine.trials ∧ engine'.budget = engine.budget := by
  have hbalanced : engine.Balanced := h.sound.balanced h.owns
  obtain ⟨input, hinput, -⟩ := nextInput_handsOut h.sound.ready hbalanced
  have hsound := h.sound.nextInput
  rw [Session.nextInput, hinput] at hsound
  refine ⟨input, engine.nextInput.2, Prod.ext hinput rfl, ⟨hsound, ?_⟩, trials_nextInput engine,
    budget_nextInput engine⟩
  obtain ⟨random, scheduler, favored, journal, hengine⟩ := schedules_nextInput engine
  rw [hengine]
  exact h.owns

theorem parent_lt (h : engine.Steady settings storage outstanding) (hhanded : handed ∈ outstanding)
    (hpulls : handed.Pulls input) (parent : Nat) (hparent : input.parent = some parent) :
    parent < engine.corpus.size := by
  apply (h.sound.outstanding handed hhanded).parent_lt
  rwa [← hpulls.parent]

/-- Taking an input back counts its trial and leaves a steady engine. The one thing that can go
wrong is that an input worth saving has no byte. Nothing depends on the input being reported only
once. -/
theorem reportResult {run : Coverage} (h : engine.Steady settings storage outstanding)
    (hstore : NeverFails storage) (hhanded : handed ∈ outstanding) (hpulls : handed.Pulls input)
    (hsize : run.size = settings.coverageMapSize) (now : Moment) (valid : Bool) :
    ∃ result engine', engine.reportResult now input run valid = (result, engine') ∧
      engine'.Steady settings storage outstanding ∧ engine'.trials = engine.trials + 1 ∧
      engine'.budget = engine.budget ∧
      ∀ error, result = .error error → error = .input .emptyAfterTrim := by
  have hstore' : NeverFails engine.storage := hstore.of_leads h.sound.leads
  have hparent := h.parent_lt hhanded hpulls
  have hsame : run.size = engine.totalCoverage.size := hsize.trans h.sound.mapSize.symm
  obtain ⟨findings, hreports, hreaches⟩ := reportResult_reports engine now input run valid
  refine ⟨(engine.reportResult now input run valid).1, (engine.reportResult now input run valid).2,
    rfl, ⟨?_, ?_⟩, trials_reportResult now input valid hsame,
    engine.budget_reportResult now input run valid,
    fun _ => error_of_reportResult hstore' hsame hparent⟩
  · have hlater : Sound .any settings storage ⟨engine, handed :: outstanding, []⟩ :=
      h.sound.restrict (List.cons_subset.2 ⟨hhanded, List.Subset.refl _⟩)
    exact (hlater.report now (List.nil_append _).symm hpulls).restrict (List.Subset.refl _)
  · rw [hreaches.findings]
    exact hreports.ownsCovered hstore'.keepsInputs hparent h.owns

end Steady

end Engine

end Greybox
