import Greybox.Campaign
import Greybox.Proofs.Session.Steady
import Greybox.Proofs.Storage.Memory
import Greybox.Proofs.Target.Replay
import Greybox.Target.Demo

namespace Greybox

open Storage (NeverFails)

namespace Engine

variable {σ ρ : Type} [Storage σ] [WordSource ρ] {settings : Settings} {storage : σ}
  {engine engine' engine'' : Engine σ ρ} {target : Target} {n mapSize count : Nat}

/-- The second engine is steady, one trial after the first. -/
structure Advances (settings : Settings) (storage : σ) (engine engine' : Engine σ ρ) : Prop where
  steady : engine'.Steady settings storage []
  trials : engine'.trials = engine.trials + 1
  budget : engine'.budget = engine.budget

theorem Steady.trial (h : engine.Steady settings storage []) (hstore : NeverFails storage)
    (target : Target) (now : Moment) :
    ∃ engine', engine.trial target settings.coverageMapSize now = (.ok (), engine') ∧
      engine.Advances settings storage engine' := by
  obtain ⟨input, given, hinput, hgiven, htrials, hbudget⟩ := h.nextInput
  have hhanded : input ∈ [] ++ [input] := List.mem_singleton_self input
  obtain ⟨hpulls, hsize⟩ := target.execute_returns settings.coverageMapSize input
  obtain ⟨result, taken, hreport, htaken, hcounted, hkept, hlost⟩ :=
    hgiven.reportResult hstore hhanded hpulls hsize now
      (target.execute settings.coverageMapSize input).2.status.isValid
  have htaken : taken.Steady settings storage [] := htaken.restrict (List.nil_subset _)
  rw [htrials] at hcounted
  rw [Engine.trial, hinput]
  simp only [hreport]
  cases result with
  | ok outcome => exact ⟨taken, rfl, htaken, hcounted, hkept.trans hbudget⟩
  | error error =>
    obtain rfl := hlost error rfl
    exact ⟨_, rfl, htaken.note _, hcounted, hkept.trans hbudget⟩

/-- So many rounds of the loop lead from the first engine to the second. In each the budget was
asked for a trial, and the trial then lost no more than itself. -/
inductive Iterates (target : Target) (mapSize : Nat) : Nat → Engine σ ρ → Engine σ ρ → Prop
  | stop {engine : Engine σ ρ} : Iterates target mapSize 0 engine engine
  | round {count : Nat} {engine engine' engine'' : Engine σ ρ} (asked reported : Moment)
      (hbudget : engine.hasInput asked = true)
      (htrial : engine.trial target mapSize reported = (.ok (), engine'))
      (hrest : Iterates target mapSize count engine' engine'') :
      Iterates target mapSize (count + 1) engine engine''

theorem Iterates.keeps (h : Iterates target settings.coverageMapSize count engine engine')
    (hstore : NeverFails storage) (hsteady : engine.Steady settings storage [])
    (hbudget : engine.budget = (some n, none)) :
    engine'.Steady settings storage [] ∧ engine'.budget = (some n, none) ∧
      engine'.trials = engine.trials + count ∧ count ≤ n - engine.trials := by
  induction h with
  | stop => exact ⟨hsteady, hbudget, rfl, Nat.zero_le _⟩
  | round asked reported hasked htrial hrest ih =>
    obtain ⟨_, hadvanced, hadvances⟩ := hsteady.trial hstore target reported
    cases htrial.symm.trans hadvanced
    rw [hasInput_of_budget hbudget, decide_eq_true_eq] at hasked
    obtain ⟨hlast, hlastBudget, htrials, hcount⟩ :=
      ih hadvances.steady (hadvances.budget.trans hbudget)
    rw [hadvances.trials] at htrials hcount
    exact ⟨hlast, hlastBudget, by omega, by omega⟩

theorem fuzz_iterates (hstore : NeverFails storage) (hsteady : engine.Steady settings storage [])
    (hbudget : engine.budget = (some n, none)) (target : Target) (clock : Nat → Moment) :
    ∃ engine', engine.fuzz target settings.coverageMapSize clock = some (.ok (), engine') ∧
      Iterates target settings.coverageMapSize (n - engine.trials) engine engine' := by
  have hasked : engine.hasInput (clock engine.trials) = decide (engine.trials < n) :=
    hasInput_of_budget hbudget _
  generalize hcount : n - engine.trials = count
  induction count generalizing engine with
  | zero =>
    have hnone : ¬ engine.trials < n := by omega
    rw [decide_eq_false hnone] at hasked
    refine ⟨engine, ?_, .stop⟩
    rw [fuzz, hasked]
    rfl
  | succ count ih =>
    have hmore : engine.trials < n := by omega
    rw [decide_eq_true hmore] at hasked
    obtain ⟨engine', htrial, hadvances⟩ := hsteady.trial hstore target (clock engine.trials)
    have hbudget' := hadvances.budget.trans hbudget
    have hleft : n - engine'.trials = count := by
      rw [hadvances.trials]
      omega
    obtain ⟨engine'', hruns, hrest⟩ :=
      ih hadvances.steady hbudget' (hasInput_of_budget hbudget' _) hleft
    refine ⟨engine'', ?_, .round _ _ hasked htrial hrest⟩
    rw [fuzz, hasked, htrial]
    exact hruns

end Engine

namespace Session

open Engine (Iterates)

variable {σ ρ : Type} [Storage σ] [WordSource ρ] {settings : Settings} {storage : σ}
  {session : Session σ ρ} {n : Nat}

/-- Over a store that never fails a campaign without a time limit does all trials that its budget
has left, and then stops. The loop can go round no more often and stop no earlier: up to the last
round the engine hands out an input, and the report of its run fails for the lack of a byte or not
at all, which ends no campaign. -/
theorem Reachable.fuzz_spends_budget (h : Reachable .any settings storage session)
    (hstore : NeverFails storage) (htrials : session.engine.maxTrials = some n)
    (hduration : session.engine.maxDuration = none) (target : Target) (clock : Nat → Moment) :
    (∃ engine', session.engine.fuzz target settings.coverageMapSize clock = some (.ok (), engine') ∧
      Iterates target settings.coverageMapSize (n - session.engine.trials) session.engine engine' ∧
      engine'.trials = max session.engine.trials n ∧ ∀ now, engine'.hasInput now = false) ∧
    ∀ count engine', Iterates target settings.coverageMapSize count session.engine engine' →
      engine'.trials = session.engine.trials + count ∧ count ≤ n - session.engine.trials ∧
      (∀ now, engine'.hasInput now = true ↔ count < n - session.engine.trials) ∧
      (∀ now, ∃ engine'', engine'.trial target settings.coverageMapSize now = (.ok (), engine'')) ∧
      ∃ input given, engine'.nextInput = (.ok input, given) ∧
        ∀ now returned execution error,
          target.execute settings.coverageMapSize input = (returned, execution) →
          (given.reportResult now returned execution.coverage execution.status.isValid).1 =
            .error error →
          error.isTrialError = true := by
  have hsteady : session.engine.Steady settings storage [] :=
    (Engine.Steady.of_reachable h hstore).restrict (List.nil_subset _)
  have hbudget : session.engine.budget = (some n, none) := Prod.ext htrials hduration
  constructor
  · obtain ⟨engine', hruns, hiterates⟩ := Engine.fuzz_iterates hstore hsteady hbudget target clock
    obtain ⟨-, hlastBudget, hcounted, -⟩ := hiterates.keeps hstore hsteady hbudget
    refine ⟨engine', hruns, hiterates, by omega, ?_⟩
    intro now
    rw [Engine.hasInput_of_budget hlastBudget, decide_eq_false_iff_not]
    omega
  · intro count engine' hiterates
    obtain ⟨hlast, hlastBudget, hcounted, hcount⟩ := hiterates.keeps hstore hsteady hbudget
    refine ⟨hcounted, hcount, ?_, ?_, ?_⟩
    · intro now
      rw [Engine.hasInput_of_budget hlastBudget, decide_eq_true_eq, hcounted]
      omega
    · intro now
      obtain ⟨engine'', htrial, -⟩ := hlast.trial hstore target now
      exact ⟨engine'', htrial⟩
    · obtain ⟨input, given, hinput, hgiven, -⟩ := hlast.nextInput
      refine ⟨input, given, hinput, ?_⟩
      intro now returned execution error hexecute herror
      have hhanded : input ∈ [] ++ [input] := List.mem_singleton_self input
      obtain ⟨hpulls, hsize⟩ := target.execute_returns settings.coverageMapSize input
      rw [hexecute] at hpulls hsize
      obtain ⟨result, taken, hreport, -, -, -, hlost⟩ :=
        hgiven.reportResult hstore hhanded hpulls hsize now execution.status.isValid
      rw [hreport] at herror
      rw [hlost error herror]
      rfl

def limited : Session MemoryStore ChaCha :=
  ((sampleLimited ∅ 3).addSeed (.ofSource "empty" (.ofBytes #[]))).addSeed
    (.ofSource "broken" (.failing "I/O"))

theorem fuzz_spends_budget_limited :
    ∃ engine', limited.engine.fuzz Demo.target 4 (fun _ => 0) = some (.ok (), engine') ∧
      engine'.trials = 3 := by
  have hlimited : Reachable .any sampleSettings ∅ limited :=
    ((sampleLimited_reachable ∅ 3).step (.addSeed trivial)).step (.addSeed trivial)
  obtain ⟨⟨engine', hfuzz, -, htrials, -⟩, -⟩ :=
    hlimited.fuzz_spends_budget (MemoryStore.neverFails ∅) rfl rfl Demo.target fun _ => 0
  exact ⟨engine', hfuzz, htrials⟩

end Session

end Greybox
