import Greybox.Proofs.Engine.Ownership
import Greybox.Proofs.Session.Basic
import Greybox.Proofs.Settings

namespace Greybox

/-- The inputs that are handed out: queued seeds, fresh inputs, and children of saved inputs. -/
inductive Conduct.Issues (conduct : Conduct) (limits : Limits) (saved : Nat) : Input → Prop
  | seed {seed : SeedInput} (hseed : conduct.seeds seed) : Issues conduct limits saved (.ofSeed seed)
  | fresh (seed : UInt64) : Issues conduct limits saved (.fresh limits seed)
  | child {bytes : Bytes} {parent : Nat} (description : String) (seed : UInt64)
      (hbytes : bytes.isEmpty = false) (hparent : parent < saved) :
      Issues conduct limits saved
        { Input.ofGenerated (.ofBytes bytes limits seed) description with parent := some parent }

namespace Conduct.Issues

variable {conduct : Conduct} {limits : Limits} {saved saved' : Nat} {input : Input}

theorem mono (h : conduct.Issues limits saved input) (hle : saved ≤ saved') :
    conduct.Issues limits saved' input := by
  cases h with
  | seed hseed => exact .seed hseed
  | fresh seed => exact .fresh seed
  | child description seed hbytes hparent =>
    exact .child description seed hbytes (Nat.lt_of_lt_of_le hparent hle)

theorem parent_lt (h : conduct.Issues limits saved input) {parent : Nat}
    (hparent : input.parent = some parent) : parent < saved := by
  cases h with
  | seed | fresh => cases hparent
  | child _ _ _ hlt =>
    cases hparent
    exact hlt

theorem of_isChild {parent : Input} {id : Nat} (h : Mutation.IsChild limits parent input)
    (hid : parent.id = some id) (hlt : id < saved) : conduct.Issues limits saved input := by
  obtain ⟨bytes, description, seed, rfl, hbytes⟩ := h
  rw [Mutation.child, hid]
  exact .child description seed hbytes hlt

end Conduct.Issues

namespace Session

variable {σ ρ : Type} [Storage σ] {conduct : Conduct} {settings : Settings} {storage : σ}
  {session session' : Session σ ρ}

structure Sound (conduct : Conduct) (settings : Settings) (storage : σ) (session : Session σ ρ) :
    Prop where
  accepted : settings.validate = .ok ()
  settings_eq : session.engine.settings = settings
  leads : Storage.Leads storage session.engine.storage
  mapSize : session.engine.totalCoverage.size = settings.coverageMapSize
  seeds : ∀ input ∈ session.engine.seeds, ∃ seed, conduct.seeds seed ∧ input = .ofSeed seed
  outstanding : ∀ input ∈ session.outstanding,
    conduct.Issues settings.limits session.engine.corpus.size input
  lockstep : session.engine.corpus.Lockstep
  entries : session.engine.corpus.Each Input.IsEntry
  covered : session.engine.findings.OwnsOnlyCovered

omit [Storage σ] in
theorem eq_of_start {random : ρ} {now : Moment} {engine : Engine σ ρ}
    (h : Engine.start settings storage random now = .ok engine) :
    settings.validate = .ok () ∧ engine = {
      settings, storage, random
      feedback := .start settings.coverageMapSize settings.validityFuzzing
        settings.disableSaveNewCounts
      scheduler := { schedule := settings.schedule }
      startTime := now, lastRefresh := now } := by
  obtain ⟨hvalid, hengine⟩ := Settings.bind_eq_ok_iff.1 h
  exact ⟨hvalid, (Except.ok.inj hengine).symm⟩

theorem Sound.start {random : ρ} {now : Moment} {engine : Engine σ ρ} (maxTrials : Option Nat)
    (maxDuration : Option Duration) (logAllInputs : Bool)
    (h : Engine.start settings storage random now = .ok engine) :
    Sound conduct settings storage
      { engine := (engine.withBudget maxTrials maxDuration).withTrialLogging logAllInputs } := by
  obtain ⟨hvalid, rfl⟩ := eq_of_start h
  refine ⟨hvalid, rfl, .refl, Coverage.size_zero _, ?_, ?_, Corpus.lockstep_empty,
    Corpus.each_empty, ?_⟩
  · intro input h
    cases h
  · intro input h
    cases h
  · intro p id howner
    cases (Corpus.owner?_empty p).symm.trans howner

theorem Sound.addSeed {seed : SeedInput} (h : session.Sound conduct settings storage)
    (hseed : conduct.seeds seed) : (session.addSeed seed).Sound conduct settings storage := by
  refine ⟨h.accepted, h.settings_eq, h.leads, h.mapSize, ?_, h.outstanding, h.lockstep, h.entries,
    h.covered⟩
  intro input hinput
  rcases List.mem_append.1 hinput with hold | hnew
  · exact h.seeds input hold
  · exact ⟨seed, hseed, List.mem_singleton.1 hnew⟩

theorem Sound.ready (h : session.Sound conduct settings storage) : session.engine.Ready := by
  obtain ⟨hsplice, hzero, -⟩ := Settings.validate_eq_ok_iff.1 h.accepted
  refine ⟨?_, ?_, fun id entry hentry => (h.entries id entry hentry).hasBytes⟩
  · rwa [h.settings_eq]
  · rwa [h.settings_eq]

theorem Sound.issues {engine' : Engine σ ρ} {input : Input}
    (h : session.Sound conduct settings storage) (hinput : session.engine.HandsOut engine' input) :
    conduct.Issues settings.limits session.engine.corpus.size input := by
  cases hinput with
  | seed hseeds =>
    have hmem : input ∈ session.engine.seeds := by
      rw [hseeds]
      exact List.mem_cons_self
    obtain ⟨seed, hseed, rfl⟩ := h.seeds input hmem
    exact .seed hseed
  | fresh hseeds hcorpus seed =>
    rw [h.settings_eq]
    exact .fresh seed
  | child hseeds hparent hchild =>
    rw [h.settings_eq] at hchild
    exact .of_isChild hchild (h.entries _ _ hparent).hasId (Corpus.get?_lt hparent)

theorem Sound.nextInput [WordSource ρ] (h : session.Sound conduct settings storage) :
    session.nextInput.Sound conduct settings storage := by
  have hissues : ∀ input, session.engine.nextInput.1 = .ok input →
      conduct.Issues settings.limits session.engine.corpus.size input := by
    intro input hinput
    rcases Engine.nextInput_result h.ready with ⟨given, hgiven, hhands⟩ | ⟨-, _, _, herror⟩
    · cases hinput.symm.trans hgiven
      exact h.issues hhands
    · cases hinput.symm.trans herror
  obtain ⟨random, scheduler, favored, journal, hengine⟩ :=
    Engine.schedules_nextInput session.engine
  simp only [Session.nextInput, hengine]
  refine ⟨h.accepted, h.settings_eq, h.leads, h.mapSize, ?_, ?_, h.lockstep, h.entries,
    h.covered⟩
  · intro input hinput
    exact h.seeds input (List.mem_of_mem_tail hinput)
  · intro input hinput
    rcases List.mem_append.1 hinput with hold | hnew
    · exact h.outstanding input hold
    · cases hresult : session.engine.nextInput.1 with
      | error cause =>
        rw [hresult] at hnew
        cases hnew
      | ok given =>
        rw [hresult] at hnew
        obtain rfl := List.mem_singleton.1 hnew
        exact hissues input hresult

theorem Sound.reaches {findings : Findings} {engine' : Engine σ ρ} {outstanding : List Input}
    {reports : List Report} (h : session.Sound conduct settings storage)
    (hreaches : session.engine.Reaches findings engine')
    (hmap : findings.feedback.total.size = session.engine.totalCoverage.size)
    (hsize : session.engine.corpus.size ≤ findings.corpus.size)
    (hlockstep : findings.corpus.Lockstep) (hentries : findings.corpus.Each Input.IsEntry)
    (hcovered : findings.OwnsOnlyCovered) (houtstanding : ∀ input ∈ outstanding,
      input ∈ session.outstanding) :
    Sound conduct settings storage ⟨engine', outstanding, reports⟩ := by
  have hcorpus : engine'.corpus = findings.corpus := congrArg Findings.corpus hreaches.findings
  have hfeedback : engine'.feedback = findings.feedback :=
    congrArg Findings.feedback hreaches.findings
  have hsettings : engine'.settings = session.engine.settings :=
    congrArg Course.settings hreaches.course
  have hseeds : engine'.seeds = session.engine.seeds :=
    congrArg Course.seeds hreaches.course
  refine ⟨h.accepted, hsettings.trans h.settings_eq, h.leads.trans hreaches.storage, ?_, ?_, ?_,
    ?_, ?_, ?_⟩
  · rw [Engine.totalCoverage, hfeedback]
    exact hmap.trans h.mapSize
  · rw [hseeds]
    exact h.seeds
  · intro input hinput
    rw [hcorpus]
    exact (h.outstanding input (houtstanding input hinput)).mono hsize
  · rwa [hcorpus]
  · rwa [hcorpus]
  · rwa [hreaches.findings]

theorem Sound.displayStats (h : session.Sound conduct settings storage) (now : Moment)
    (force : Bool) : (session.displayStats now force).Sound conduct settings storage :=
  h.reaches (Engine.displayStats_progresses session.engine now force) rfl (Nat.le_refl _)
    h.lockstep h.entries h.covered fun _ hinput => hinput

theorem Sound.parent_lt {before after : List Input} {handed input : Input}
    (h : session.Sound conduct settings storage)
    (hhanded : session.outstanding = before ++ handed :: after) (hpulls : handed.Pulls input)
    {parent : Nat} (hparent : input.parent = some parent) :
    parent < session.engine.corpus.size := by
  apply (h.outstanding handed (mem_outstanding hhanded)).parent_lt
  rwa [← hpulls.parent]

theorem Sound.report {before after : List Input} {handed input : Input} {run : Coverage}
    {valid : Bool} (h : session.Sound conduct settings storage) (now : Moment)
    (hhanded : session.outstanding = before ++ handed :: after) (hpulls : handed.Pulls input) :
    (session.report (before ++ after) now input run valid).Sound conduct settings storage := by
  obtain ⟨findings, hreports, hreaches⟩ :=
    Engine.reportResult_reports session.engine now input run valid
  have henrolls := hreports.enrolls
  apply h.reaches hreaches hreports.total_size henrolls.size_le (henrolls.lockstep h.lockstep)
  · apply henrolls.isEntry h.entries
    · intro p hp
      exact Feedback.get_ne_zero_of_mem_claims hp
    · intro parent hparent
      exact h.parent_lt hhanded hpulls hparent
  · exact hreports.ownsOnlyCovered h.covered
  · intro other hother
    rw [hhanded]
    rcases List.mem_append.1 hother with hbefore | hafter
    · exact List.mem_append_left _ hbefore
    · exact List.mem_append_right _ (List.mem_cons_of_mem _ hafter)

variable [WordSource ρ]

theorem Step.sound (hstep : Step conduct session session') (hpulls : conduct.OnlyPulls)
    (h : session.Sound conduct settings storage) : session'.Sound conduct settings storage := by
  cases hstep with
  | addSeed hseed => exact h.addSeed hseed
  | nextInput => exact h.nextInput
  | report now hhanded hreports => exact h.report now hhanded (hpulls _ _ _ _ hreports)
  | displayStats now force => exact h.displayStats now force

theorem Reachable.sound (h : Reachable conduct settings storage session)
    (hpulls : conduct.OnlyPulls) : session.Sound conduct settings storage := by
  induction h with
  | start maxTrials maxDuration logAllInputs hstart =>
    exact .start maxTrials maxDuration logAllInputs hstart
  | step _ hstep ih => exact hstep.sound hpulls ih

theorem Step.feedback (hstep : Step conduct session session') :
    session'.engine.feedback = session.engine.feedback ∨ ∃ run valid,
      run.size = session.engine.totalCoverage.size ∧
      session'.engine.feedback = session.engine.feedback.commit run valid := by
  rcases hstep.findings with hsame | ⟨_, _, _, _, run, valid, _, -, -, hreports⟩
  · exact .inl (congrArg Findings.feedback hsame)
  · rcases hreports.feedback with hsame | ⟨hsize, hmerged⟩
    · exact .inl hsame
    · exact .inr ⟨run, valid, hsize, hmerged⟩

theorem Step.obeys (hstep : Step conduct session session')
    (h : session.engine.feedback.Obeys settings) : session'.engine.feedback.Obeys settings := by
  rcases hstep.feedback with hsame | ⟨run, valid, -, hmerged⟩
  · rwa [hsame]
  · rw [hmerged]
    exact h.commit run valid

theorem Reachable.obeys (h : Reachable conduct settings storage session) :
    session.engine.feedback.Obeys settings := by
  induction h with
  | start maxTrials maxDuration logAllInputs hstart =>
    obtain ⟨-, rfl⟩ := eq_of_start hstart
    exact Feedback.obeys_start _
  | step _ hstep ih => exact hstep.obeys ih

end Session

end Greybox
