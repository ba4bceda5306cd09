import Greybox.Proofs.Coverage.Seen
import Greybox.Proofs.Session.Ownership

namespace Greybox

def Input.isInvalidSeed (input : Input) : Bool := input.isSeed && !input.valid

namespace Corpus

variable {corpus credited : Corpus}

def earnedCount (corpus : Corpus) : Nat := corpus.entries.countP (!·.isInvalidSeed)

theorem fixed_isInvalidSeed : Fixed Input.isInvalidSeed := ⟨fun _ _ => rfl, fun _ _ => rfl⟩

theorem earnedCount_eq (corpus : Corpus) :
    corpus.earnedCount = (corpus.readings Input.isInvalidSeed).count false := by
  rw [earnedCount, ← Array.countP_toList, List.count_eq_countP, readings, List.countP_map]
  congr 1
  funext entry
  cases h : entry.isInvalidSeed <;> simp [h]

theorem earnedCount_save {parent : Option Nat} (input : Input) (claims : PointSet)
    (hcredit : Engine.creditParent corpus parent = .ok credited) :
    (credited.insert input claims).1.earnedCount =
      corpus.earnedCount + if input.isInvalidSeed then 0 else 1 := by
  rw [earnedCount_eq, earnedCount_eq, readings_insert fixed_isInvalidSeed,
    Engine.readings_creditParent hcredit fixed_isInvalidSeed, List.count_append]
  have hentry : (input.asEntry credited.size claims).isInvalidSeed = input.isInvalidSeed := rfl
  rw [hentry]
  cases input.isInvalidSeed <;> rfl

end Corpus

namespace Coverage

variable {map map' run : Coverage} {byPoints : Bool} {p : Nat}

/-- What a map has seen, counted by points or by the classes of the points. -/
def worth (byPoints : Bool) (map : Coverage) : Nat :=
  if byPoints then map.nonZeroCount else map.seen.card

theorem worth_le (byPoints : Bool) (map : Coverage) :
    map.worth byPoints ≤ if byPoints then map.size else 8 * map.size := by
  cases byPoints with
  | true => exact map.nonZeroCount_le
  | false => exact map.card_seen_le

theorem worth_le_of_within (h : map.Within map') : map.worth byPoints ≤ map'.worth byPoints := by
  cases byPoints with
  | true => exact nonZeroCount_le_of_within h
  | false => exact Finset.card_le_card (seen_subset h)

theorem worth_lt_of_newPoints (hsize : run.size = map.size) (h : p ∈ run.newPoints map) :
    map.worth byPoints < (map.merge run).1.worth byPoints := by
  cases byPoints with
  | true => exact nonZeroCount_lt_of_newPoints hsize h
  | false =>
    obtain ⟨hhit, hfresh⟩ := mem_newPoints.1 h
    apply card_seen_lt (within_merge hsize) (p := p)
    rw [hfresh]
    exact ((get_merge_ne_zero_iff hsize).2 (.inr hhit)).symm

end Coverage

namespace Feedback

variable {feedback : Feedback} {run : Coverage} {valid : Bool} {settings : Settings}

def totalFound (feedback : Feedback) : Nat := feedback.total.worth feedback.ignoreNewCounts

def validFound (feedback : Feedback) : Nat :=
  if feedback.validityFuzzing then feedback.valid.nonZeroCount else 0

def found (feedback : Feedback) : Nat := feedback.totalFound + feedback.validFound

theorem totalFound_le_commit (hsize : run.size = feedback.total.size) :
    feedback.totalFound ≤ (feedback.commit run valid).totalFound :=
  Coverage.worth_le_of_within (total_within_commit hsize)

theorem validFound_le_commit (h : feedback.Obeys settings) (hsize : run.size = feedback.total.size) :
    feedback.validFound ≤ (feedback.commit run valid).validFound := by
  have hvalid : feedback.valid.nonZeroCount ≤ (feedback.commit run valid).valid.nonZeroCount :=
    Coverage.nonZeroCount_le_of_within (h.valid_within_commit hsize)
  rw [validFound, validFound, show (feedback.commit run valid).validityFuzzing =
    feedback.validityFuzzing from rfl]
  split
  · exact hvalid
  · exact Nat.le_refl 0

theorem found_le_commit (h : feedback.Obeys settings) (hsize : run.size = feedback.total.size) :
    feedback.found ≤ (feedback.commit run valid).found :=
  Nat.add_le_add (totalFound_le_commit hsize) (validFound_le_commit h hsize)

theorem found_lt_commit (h : feedback.Obeys settings) (hsize : run.size = feedback.total.size)
    (hinteresting : (feedback.assess run valid).isInteresting = true) :
    feedback.found < (feedback.commit run valid).found := by
  have htotal : feedback.totalFound ≤ (feedback.commit run valid).totalFound :=
    totalFound_le_commit hsize
  have hvalid : feedback.validFound ≤ (feedback.commit run valid).validFound :=
    validFound_le_commit h hsize
  -- Every reason to save an input raises one of the two summands, and neither ever falls.
  rcases isInteresting_assess_iff.1 hinteresting with
    ⟨hcounts, hchange⟩ | ⟨p, hp⟩ | ⟨hvalidity, p, hp⟩
  · have hmore : feedback.totalFound < (feedback.commit run valid).totalFound := by
      rw [totalFound, totalFound, show (feedback.commit run valid).ignoreNewCounts =
        feedback.ignoreNewCounts from rfl, hcounts]
      exact Coverage.card_seen_lt_of_wouldChange hsize hchange
    exact Nat.add_lt_add_of_lt_of_le hmore hvalid
  · have hmore : feedback.totalFound < (feedback.commit run valid).totalFound :=
      Coverage.worth_lt_of_newPoints hsize hp
    exact Nat.add_lt_add_of_lt_of_le hmore hvalid
  · have hmore : feedback.validFound < (feedback.commit run valid).validFound := by
      cases valid with
      | true =>
        rw [validFound, validFound, show (feedback.commit run true).validityFuzzing =
          feedback.validityFuzzing from rfl, hvalidity]
        exact Coverage.nonZeroCount_lt_of_newPoints (hsize.trans h.size_eq.symm) hp
      | false => exact absurd hp (PointSet.not_mem_empty p)
    exact Nat.add_lt_add_of_le_of_lt htotal hmore

theorem found_le (h : feedback.Obeys settings) : feedback.found ≤
    (if settings.disableSaveNewCounts then settings.coverageMapSize
      else 8 * settings.coverageMapSize) +
      if settings.validityFuzzing then settings.coverageMapSize else 0 := by
  rw [← h.ignoreNewCounts, ← h.validityFuzzing]
  apply Nat.add_le_add
  · have hroom := feedback.total.worth_le feedback.ignoreNewCounts
    rwa [h.total_size] at hroom
  · rw [validFound]
    split
    · exact h.valid_size ▸ feedback.valid.nonZeroCount_le
    · exact Nat.le_refl 0

end Feedback

/-- No more inputs were saved for a reason than there are reasons found. -/
def Findings.Earned (findings : Findings) : Prop :=
  findings.corpus.earnedCount ≤ findings.feedback.found

namespace Engine

variable {σ ρ : Type} [Storage σ] {engine : Engine σ ρ} {findings findings' : Findings} {store : σ}
  {input : Input} {run : Coverage} {saveOnlyValid valid : Bool} {verdict : Verdict}
  {result : Except EngineError Outcome} {settings : Settings}

theorem Ingests.earned (h : Ingests findings saveOnlyValid store input run valid result findings')
    (hvalid : input.valid = valid) (hsize : run.size = findings.feedback.total.size)
    (hobeys : findings.feedback.Obeys settings) (hearned : findings.Earned) : findings'.Earned := by
  have hmerged : (findings.merge run valid).Earned :=
    Nat.le_trans hearned (Feedback.found_le_commit hobeys hsize)
  cases h with
  | ignored | empty => exact hearned
  | discarded => exact hmerged
  | trimmed hverdict hinteresting htrim hsaves =>
    cases hsaves with
    | lost | orphaned => exact hmerged
    | saved hstore hcredit hresult =>
      rename_i verdict trimmed path later credited
      rw [Findings.Earned, Findings.save, Corpus.earnedCount_save _ _ hcredit]
      have hkind : (sealed trimmed run path).isInvalidSeed = input.isInvalidSeed := by
        obtain rfl := Input.eq_of_trim htrim
        exact congrArg (· && !input.valid) (Input.isSeed_trim input)
      rw [hkind]
      cases hseed : input.isInvalidSeed with
      | true => exact hmerged
      | false =>
        -- Such an input was judged, and found to be interesting.
        rcases eq_of_verdict? hverdict with rfl | ⟨rfl, hisSeed, -⟩
        · exact Nat.lt_of_le_of_lt hearned (Feedback.found_lt_commit hobeys hsize hinteresting)
        · simp [Input.isInvalidSeed, hvalid, hisSeed] at hseed

theorem Reports.earned (h : engine.Reports input run valid result findings)
    (hobeys : engine.feedback.Obeys settings) (hearned : engine.findings.Earned) :
    findings.Earned := by
  cases h with
  | mismatched | unlogged => exact hearned
  | ingested hsize hlog hingests => exact hingests.earned rfl hsize hobeys hearned

end Engine

namespace Session

variable {σ ρ : Type} [Storage σ] [WordSource ρ] {conduct : Conduct} {settings : Settings}
  {storage : σ} {session session' : Session σ ρ}

theorem Step.earned (hstep : Step conduct session session')
    (hobeys : session.engine.feedback.Obeys settings) (h : session.engine.findings.Earned) :
    session'.engine.findings.Earned := by
  rcases hstep.findings with hsame | ⟨_, _, _, _, _, _, _, -, -, hreports⟩
  · rwa [hsame]
  · exact hreports.earned hobeys h

theorem Reachable.earned (h : Reachable conduct settings storage session) :
    session.engine.findings.Earned := by
  induction h with
  | start maxTrials maxDuration logAllInputs hstart =>
    obtain ⟨-, rfl⟩ := eq_of_start hstart
    exact Nat.zero_le _
  | step hreachable hstep ih => exact hstep.earned hreachable.obeys ih

/-- However long a session goes on and whatever its store refuses, the entries that are not invalid
seeds are at most nine for every point of the map, and fewer where fewer things are a reason to save
an input. -/
theorem Reachable.earnedCount_le (h : Reachable .any settings storage session) :
    session.engine.corpus.earnedCount ≤ 9 * settings.coverageMapSize ∧
    (settings.validityFuzzing = false →
      session.engine.corpus.earnedCount ≤ 8 * settings.coverageMapSize) ∧
    (settings.disableSaveNewCounts = true →
      session.engine.corpus.earnedCount ≤ 2 * settings.coverageMapSize) ∧
    (settings.disableSaveNewCounts = true → settings.validityFuzzing = false →
      session.engine.corpus.earnedCount ≤ settings.coverageMapSize) := by
  have hearned : session.engine.corpus.earnedCount ≤ session.engine.feedback.found := h.earned
  have hroom := Nat.le_trans hearned (Feedback.found_le h.obeys)
  refine ⟨?_, ?_, ?_, ?_⟩
  · split at hroom <;> split at hroom <;> omega
  · intro hvalidity
    rw [hvalidity] at hroom
    split at hroom <;> simp at hroom <;> omega
  · intro hcounts
    rw [hcounts] at hroom
    simp only [if_true] at hroom
    split at hroom <;> omega
  · intro hcounts hvalidity
    rw [hcounts, hvalidity] at hroom
    simpa using hroom

theorem earnedCount_le_twice :
    (sampleTwice (∅ : MemoryStore) false true).engine.corpus.size = 2 ∧
    (sampleTwice (∅ : MemoryStore) false true).engine.corpus.earnedCount = 1 ∧
    (sampleTwice (∅ : MemoryStore) false true).engine.corpus.earnedCount ≤
      9 * sampleSettings.coverageMapSize := by
  refine ⟨by decide +kernel, by decide +kernel, ?_⟩
  exact (sampleTwice_reachable (∅ : MemoryStore) false true).earnedCount_le.1

end Session

end Greybox
