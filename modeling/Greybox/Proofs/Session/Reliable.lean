import Greybox.Proofs.Engine.Deposit
import Greybox.Proofs.Session.Sound

namespace Greybox

open Storage (NeverFails Records)

namespace Report

/-- The run was looked at, and its input saved or discarded. -/
def isAccepted (report : Report) : Bool :=
  match report.result with
  | .error _ | .ok .ignored => false
  | .ok .discarded | .ok (.saved _ _) => true

def savedId? (report : Report) : Option Nat :=
  match report.result with
  | .ok (.saved id _) => some id
  | _ => none

def accepted (reports : List Report) : List Report := reports.filter (·.isAccepted)

theorem accepted_concat (reports : List Report) (report : Report) :
    accepted (reports ++ [report]) =
      accepted reports ++ if report.isAccepted then [report] else [] := by
  cases h : report.isAccepted <;> simp [accepted, h]

/-- The report turns the findings and the store into others. -/
def Takes {σ : Type} [Storage σ] (report : Report) (findings : Findings) (store : σ)
    (findings' : Findings) (later : σ) : Prop :=
  Engine.Takes findings store { report.input with valid := report.valid } report.run report.valid
    report.result findings' later

theorem Takes.feedback {σ : Type} [Storage σ] {report : Report} {findings findings' : Findings}
    {store later : σ} (h : report.Takes findings store findings' later) :
    report.isAccepted = false ∧ findings'.feedback = findings.feedback ∨
      report.isAccepted = true ∧ report.run.size = findings.feedback.total.size ∧
        findings'.feedback = findings.feedback.commit report.run report.valid := by
  obtain ⟨input, run, valid, result⟩ := report
  cases h with
  | rejected | ignored => exact .inl ⟨rfl, rfl⟩
  | discarded hsize | saved hsize => exact .inr ⟨rfl, hsize, rfl⟩

end Report

namespace Session

variable {σ ρ : Type} [Storage σ] [WordSource ρ] {conduct : Conduct} {settings : Settings}
  {storage : σ} {session session' later : Session σ ρ}

abbrev Leads (conduct : Conduct) : Session σ ρ → Session σ ρ → Prop :=
  Relation.ReflTransGen (Step conduct)

theorem Reachable.leads (h : Reachable conduct settings storage session)
    (hleads : session.Leads conduct later) : Reachable conduct settings storage later := by
  induction hleads with
  | refl => exact h
  | tail _ hstep ih => exact ih.step hstep

theorem Step.takes (hstep : Step conduct session session') (hpulls : conduct.OnlyPulls)
    (hsound : session.Sound conduct settings storage) (hstore : NeverFails storage) :
    (session'.engine.findings = session.engine.findings ∧ session'.reports = session.reports ∧
        Records session.engine.storage session'.engine.storage) ∨
      ∃ report : Report, session'.reports = session.reports ++ [report] ∧
        report.Takes session.engine.findings session.engine.storage session'.engine.findings
          session'.engine.storage := by
  have hstore' : NeverFails session.engine.storage := hstore.of_leads hsound.leads
  cases hstep with
  | addSeed => exact .inl ⟨rfl, rfl, .refl⟩
  | nextInput =>
    obtain ⟨random, scheduler, favored, journal, hengine⟩ :=
      Engine.schedules_nextInput session.engine
    rw [Session.nextInput, hengine]
    exact .inl ⟨rfl, rfl, .refl⟩
  | report now hhanded hreports =>
    rename_i before after handed input run valid
    refine .inr ⟨_, rfl, Engine.reportResult_takes hstore' now run valid ?_⟩
    intro parent hparent
    exact hsound.parent_lt hhanded (hpulls _ _ _ _ hreports) hparent
  | displayStats now force =>
    obtain ⟨shown, -, hrecords⟩ := Engine.displayStats_records hstore' now force
    exact .inl ⟨(Engine.displayStats_progresses session.engine now force).findings, rfl, hrecords⟩

/-- What holds at the start and outlasts every record of progress and every report holds at every
moment of a session. -/
theorem Reachable.takes_induction {P : Findings → σ → List Report → Prop}
    (h : Reachable conduct settings storage session) (hpulls : conduct.OnlyPulls)
    (hstore : NeverFails storage)
    (hstart : P ⟨∅, .start settings.coverageMapSize settings.validityFuzzing
      settings.disableSaveNewCounts, 0⟩ storage [])
    (hrecords : ∀ {findings store later reports}, P findings store reports → Records store later →
      P findings later reports)
    (htakes : ∀ {session : Session σ ρ} {report : Report} {findings later},
      Reachable conduct settings storage session →
      report.Takes session.engine.findings session.engine.storage findings later →
      P session.engine.findings session.engine.storage session.reports →
      P findings later (session.reports ++ [report])) :
    P session.engine.findings session.engine.storage session.reports := by
  induction h with
  | start maxTrials maxDuration logAllInputs hstarted =>
    obtain ⟨-, rfl⟩ := eq_of_start hstarted
    exact hstart
  | step hreachable hstep ih =>
    rcases hstep.takes hpulls (hreachable.sound hpulls) hstore with
      ⟨hfindings, hreports, hcalls⟩ | ⟨report, hreports, htaken⟩
    · rw [hfindings, hreports]
      exact hrecords ih hcalls
    · rw [hreports]
      exact htakes hreachable htaken ih

end Session

end Greybox
