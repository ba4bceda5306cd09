import Greybox.Proofs.Engine.StatusLines
import Greybox.Proofs.Session.Ownership

namespace Greybox.Session

variable {σ ρ : Type} [Storage σ] [WordSource ρ] {conduct : Conduct} {settings : Settings}
  {storage : σ} {session session' : Session σ ρ}

theorem Step.statusLog_sound (hstep : Step conduct session session')
    (h : session.engine.statusLog.Sound) : session'.engine.statusLog.Sound := by
  cases hstep with
  | addSeed => exact h
  | nextInput =>
    rw [Session.nextInput, Engine.statusLog_nextInput]
    exact h
  | report now hhanded hreports => exact Engine.sound_reportResult _ now _ _ _ h
  | displayStats now force => exact Engine.sound_displayStats _ now force h

theorem Reachable.statusLog_sound (h : Reachable conduct settings storage session) :
    session.engine.statusLog.Sound := by
  induction h with
  | start maxTrials maxDuration logAllInputs hstart =>
    obtain ⟨-, rfl⟩ := eq_of_start hstart
    exact StatusLog.sound_empty 0
  | step hreachable hstep ih => exact hstep.statusLog_sound ih

/-- In every session no two status lines tell of the same number of trials, and later ones tell of
more. A report that saves its input logs exactly one line, with the number of the trial, the points
covered after the merge and the size of the entry, and a report that saves nothing logs none. A
refresh, which is forced or due by the time, logs one exactly if there is none for the number of
trials so far. -/
theorem Reachable.statusLines_once_per_trial (h : Reachable conduct settings storage session) :
    session.engine.statusLines.Pairwise (·.trials < ·.trials) ∧
    (∀ now input run valid result after,
      session.engine.reportResult now input run valid = (result, after) →
      ((∀ id reasons, result ≠ .ok (.saved id reasons)) ∧
        after.corpus.size = session.engine.corpus.size ∧
        after.statusLines = session.engine.statusLines) ∨
      (after.corpus.size = session.engine.corpus.size + 1 ∧
        ∃ entry rate, after.corpus.get? session.engine.corpus.size = some entry ∧
          entry.bytes = input.trim.2.bytes ∧
          after.statusLines = session.engine.statusLines ++
            [⟨session.engine.trials + 1, (session.engine.totalCoverage.merge run).1.nonZeroCount,
              rate, entry.size⟩])) ∧
    (∀ now force shown after, session.engine.displayStats now force = (shown, after) →
      (shown = .ok none ↔ ¬ session.engine.RefreshDue now force) ∧
      (¬ session.engine.RefreshDue now force → after.statusLines = session.engine.statusLines) ∧
      (session.engine.RefreshDue now force →
        ((∃ line ∈ session.engine.statusLines, line.trials = session.engine.trials) ∧
          after.statusLines = session.engine.statusLines) ∨
        ((∀ line ∈ session.engine.statusLines, line.trials ≠ session.engine.trials) ∧
          ∃ rate, after.statusLines =
            session.engine.statusLines ++ [session.engine.statusLine rate]))) := by
  have hsound := h.statusLog_sound
  refine ⟨hsound.rising, ?_, ?_⟩
  · intro now input run valid result after
    exact Engine.statusLines_reportResult hsound
  · intro now force shown after hshown
    have hanswer := Engine.displayStats_eq_ok_none session.engine now force
    rw [hshown] at hanswer
    refine ⟨hanswer, fun hfresh => ?_, fun hdue => ?_⟩
    · rw [Engine.displayStats_of_not_due hfresh] at hshown
      rw [← (Prod.mk.inj hshown).2]
    · rw [Engine.displayStats_of_due hdue] at hshown
      rw [← (Prod.mk.inj hshown).2]
      exact Engine.statusLines_refresh hsound now

theorem statusLines_once_per_trial_sample :
    (∃ rate, sample.engine.statusLines = [⟨1, 1, rate, 1⟩]) ∧
    ∀ now force, (sample.engine.displayStats now force).2.statusLines = sample.engine.statusLines := by
  have hgiven : Reachable .any sampleSettings ∅ (sampleGiven (∅ : MemoryStore)) :=
    sampleGiven_reachable ∅ trivial
  obtain ⟨-, hreports, -⟩ := hgiven.statusLines_once_per_trial
  obtain ⟨-, -, hshows⟩ := sample_reachable.statusLines_once_per_trial
  have hline : ∃ rate, sample.engine.statusLines = [⟨1, 1, rate, 1⟩] := by
    rcases hreports 0 sampleInput sampleRun true _ sample.engine rfl with
      ⟨-, hsame, -⟩ | ⟨-, entry, rate, -, hbytes, hlines⟩
    · exact absurd hsame (by decide +kernel)
    · refine ⟨rate, hlines.trans ?_⟩
      have hsize : entry.size = 1 := congrArg Array.size hbytes
      rw [hsize]
      rfl
  refine ⟨hline, fun now force => ?_⟩
  obtain ⟨rate, hlines⟩ := hline
  obtain ⟨-, hfresh, hdue⟩ := hshows now force _ _ rfl
  by_cases hrefresh : sample.engine.RefreshDue now force
  · rcases hdue hrefresh with ⟨-, hsame⟩ | ⟨hnew, -⟩
    · exact hsame
    · have htrials : sample.engine.trials = 1 := by decide +kernel
      exact absurd htrials.symm (hnew ⟨1, 1, rate, 1⟩ (by simp [hlines]))
  · exact hfresh hrefresh

end Greybox.Session
