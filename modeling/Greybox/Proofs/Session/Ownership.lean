import Greybox.Proofs.Session.Sound
import Greybox.Storage.Memory

namespace Greybox

theorem MemoryStore.keepsInputs (store : MemoryStore) : Storage.KeepsInputs store :=
  Storage.keepsInputs_of_forall (fun _ id _ _ => ⟨slotName id, rfl⟩) store

namespace Session

variable {σ ρ : Type} [Storage σ] [WordSource ρ] {conduct : Conduct} {settings : Settings}
  {storage : σ} {session session' : Session σ ρ}

theorem Step.ownsCovered (hstep : Step conduct session session') (hpulls : conduct.OnlyPulls)
    (hsound : session.Sound conduct settings storage)
    (hstore : Storage.KeepsInputs session.engine.storage)
    (howns : session.engine.findings.OwnsCovered) : session'.engine.findings.OwnsCovered := by
  rcases hstep.findings with hsame | ⟨_, _, _, _, _, _, _, hhanded, hreports, hresult⟩
  · rwa [hsame]
  · apply hresult.ownsCovered hstore _ howns
    intro parent hparent
    exact hsound.parent_lt hhanded (hpulls _ _ _ _ hreports) hparent

theorem Reachable.ownsCovered (h : Reachable conduct settings storage session)
    (hpulls : conduct.OnlyPulls) (hstore : Storage.KeepsInputs storage) :
    session.engine.findings.OwnsCovered := by
  induction h with
  | start maxTrials maxDuration logAllInputs hstart =>
    obtain ⟨-, rfl⟩ := eq_of_start hstart
    exact Findings.ownsCovered_start _ _ _
  | step hreachable hstep ih =>
    have hsound := hreachable.sound hpulls
    exact hstep.ownsCovered hpulls hsound (hstore.of_leads hsound.leads) ih

omit [WordSource ρ] in
theorem Sound.responsibilitySum_eq (h : session.Sound conduct settings storage)
    (howns : session.engine.findings.OwnsCovered) :
    session.engine.corpus.responsibilitySum = session.engine.totalCoverage.nonZeroCount := by
  rw [← Coverage.length_coveredPoints]
  apply Corpus.responsibilitySum_eq_length h.lockstep (Coverage.nodup_coveredPoints _)
  intro p
  rw [Coverage.mem_coveredPoints]
  exact howns p

omit [WordSource ρ] in
theorem Sound.balanced (h : session.Sound conduct settings storage)
    (howns : session.engine.findings.OwnsCovered) : session.engine.Balanced := by
  rw [Engine.Balanced, Engine.favoredResponsibility_eq]
  · exact h.responsibilitySum_eq howns
  · intro id entry hentry
    exact (h.entries id entry hentry).favored

theorem Reachable.responsibilitySum_eq (h : Reachable conduct settings storage session)
    (hpulls : conduct.OnlyPulls) (hstore : Storage.KeepsInputs storage) :
    session.engine.corpus.responsibilitySum = session.engine.totalCoverage.nonZeroCount :=
  (h.sound hpulls).responsibilitySum_eq (h.ownsCovered hpulls hstore)

/-- At every moment of a session the points with an owner are exactly the covered ones. The owner of
a point, and no other entry, holds the point; it is favored, and its run hit the point. -/
theorem Reachable.owned_iff_covered (h : Reachable .any settings storage session)
    (hstore : Storage.KeepsInputs storage) :
    (∀ p, (∃ id, session.engine.corpus.owner? p = some id) ↔
      session.engine.totalCoverage.get p ≠ 0) ∧
    (∀ p id, session.engine.corpus.owner? p = some id →
      (∃ entry run, session.engine.corpus.get? id = some entry ∧ entry.Owns p ∧
        entry.favored = true ∧ entry.coverage = some run ∧ run.get p ≠ 0) ∧
      ∀ id' entry, session.engine.corpus.get? id' = some entry → entry.Owns p → id' = id) ∧
    session.engine.corpus.responsibilitySum = session.engine.totalCoverage.nonZeroCount := by
  have hsound := h.sound Conduct.onlyPulls_any
  refine ⟨h.ownsCovered Conduct.onlyPulls_any hstore, ?_,
    h.responsibilitySum_eq Conduct.onlyPulls_any hstore⟩
  intro p id howner
  constructor
  · obtain ⟨entry, hentry, howns⟩ := (hsound.lockstep p id).1 howner
    have hproper := hsound.entries id entry hentry
    obtain ⟨run, hrun, hhit⟩ := hproper.snapshot
    exact ⟨entry, run, hentry, howns, hproper.favored p howns, hrun, hhit p howns⟩
  · intro id' entry hentry howns
    have howner' : session.engine.corpus.owner? p = some id' :=
      (hsound.lockstep p id').2 ⟨entry, hentry, howns⟩
    exact Option.some.inj (howner'.symm.trans howner)

def sample : Session MemoryStore ChaCha := (sampleGiven ∅).report [] 0 sampleInput sampleRun true

theorem sample_reachable : Reachable .any sampleSettings ∅ sample := by
  have hgiven : Reachable .any sampleSettings ∅ (sampleGiven (∅ : MemoryStore)) :=
    sampleGiven_reachable ∅ trivial
  exact hgiven.step (.report 0 (sampleGiven_outstanding ∅) (.next 0 .refl))

theorem owned_iff_covered_sample : ∃ id, sample.engine.corpus.owner? 1 = some id :=
  ((sample_reachable.owned_iff_covered (MemoryStore.keepsInputs ∅)).1 1).2 (by decide +kernel)

theorem Reachable.balanced (h : Reachable conduct settings storage session)
    (hpulls : conduct.OnlyPulls) (hstore : Storage.KeepsInputs storage) :
    session.engine.Balanced :=
  (h.sound hpulls).balanced (h.ownsCovered hpulls hstore)

/-- Asking for an input never fails, and whatever is drawn for it has something to be drawn from.
The input is the oldest queued seed; else, if nothing is saved, an empty one; else an unread child
with bytes of the saved input under the cursor. -/
theorem Reachable.nextInput_succeeds (h : Reachable .any settings storage session)
    (hstore : Storage.KeepsInputs storage) :
    session.engine.Ready ∧ ∃ input, session.engine.nextInput.1 = .ok input ∧
      (∀ seed seeds, session.engine.seeds = seed :: seeds → input = seed) ∧
      (session.engine.seeds = [] → session.engine.corpus.size = 0 →
        input.isSeed = false ∧ input.isEmpty = true ∧ input.parent = none) ∧
      (session.engine.seeds = [] → session.engine.corpus.size ≠ 0 →
        input.isSeed = false ∧ input.id = none ∧ input.savePath = none ∧
        input.isEmpty = false ∧ input.requested = 0 ∧ ∃ parent, input.parent = some parent ∧
        parent = session.engine.nextInput.2.scheduler.cursor ∧
        parent < session.engine.corpus.size) := by
  have hsound := h.sound Conduct.onlyPulls_any
  refine ⟨hsound.ready, ?_⟩
  obtain ⟨input, hinput, hhands⟩ :=
    Engine.nextInput_handsOut hsound.ready (h.balanced Conduct.onlyPulls_any hstore)
  refine ⟨input, hinput, ?_⟩
  cases hhands with
  | seed hseeds =>
    refine ⟨?_, ?_, ?_⟩
    · intro seed seeds hqueue
      exact (List.cons.inj (hseeds.symm.trans hqueue)).1
    · intro hnone
      cases hnone.symm.trans hseeds
    · intro hnone
      cases hnone.symm.trans hseeds
  | fresh hseeds hcorpus seed =>
    refine ⟨?_, ?_, ?_⟩
    · intro seed seeds hqueue
      cases hqueue.symm.trans hseeds
    · intro _ _
      exact ⟨rfl, rfl, rfl⟩
    · intro _ hsome
      exact absurd hcorpus hsome
  | child hseeds hparent hchild =>
    obtain ⟨bytes, description, seed, rfl, hbytes⟩ := hchild
    have hlt := Corpus.get?_lt hparent
    refine ⟨?_, ?_, ?_⟩
    · intro seed seeds hqueue
      cases hqueue.symm.trans hseeds
    · intro _ hnone
      exact absurd hlt (by rw [hnone]; exact Nat.not_lt_zero _)
    · intro _ _
      exact ⟨rfl, rfl, rfl, hbytes, rfl, _, (hsound.entries _ _ hparent).hasId, rfl, hlt⟩

theorem nextInput_succeeds_sample : ∃ input parent, sample.engine.nextInput.1 = .ok input ∧
    input.parent = some parent ∧ parent < sample.engine.corpus.size := by
  obtain ⟨-, input, hinput, -, -, hchild⟩ :=
    sample_reachable.nextInput_succeeds (MemoryStore.keepsInputs ∅)
  have hqueue : sample.engine.seeds = [] := List.isEmpty_iff.1 (by decide +kernel)
  have hsaved : sample.engine.corpus.size ≠ 0 := by decide +kernel
  obtain ⟨-, -, -, -, -, parent, hparent, -, hlt⟩ := hchild hqueue hsaved
  exact ⟨input, parent, hinput, hparent, hlt⟩

end Session

end Greybox
