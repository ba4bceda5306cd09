import Greybox.Proofs.Input.Limits
import Greybox.Proofs.Session.Ownership

namespace Greybox

open Engine (creditParent)

variable {corpus corpus' credited : Corpus} {findings : Findings} {input : Input}
  {run : Coverage} {claims : PointSet} {valid : Bool}

namespace Corpus

theorem fixed_parent : Fixed Input.parent := ⟨fun _ _ => rfl, fun _ _ => rfl⟩

def CountsChildren (corpus : Corpus) : Prop :=
  corpus.Each fun id entry => entry.offspring = (corpus.readings Input.parent).count (some id)

theorem offspring_creditParent {parent : Option Nat} {id : Nat} {entry : Input}
    (hcredit : creditParent corpus parent = .ok credited) (h : credited.get? id = some entry) :
    ∃ old, corpus.get? id = some old ∧
      entry.offspring = old.offspring + if parent = some id then 1 else 0 := by
  cases parent with
  | none =>
    cases hcredit
    exact ⟨entry, h, by simp⟩
  | some parent =>
    rw [get?_recordOffspring hcredit, Option.map_eq_some_iff] at h
    obtain ⟨old, hold, rfl⟩ := h
    refine ⟨old, hold, ?_⟩
    by_cases hid : parent = id <;> simp [hid]

theorem offspring_releaseAll (id : Nat) (entry : Input) (steals : List Steal) :
    (releaseAll id entry steals).offspring = entry.offspring :=
  releaseAll_induction (Q := fun released => released.offspring = entry.offspring) steals rfl
    fun _ _ h => h

theorem CountsChildren.save (h : corpus.CountsChildren)
    (hparents : corpus.Each fun id entry => ∀ parent, entry.parent = some parent → parent < id)
    (hcredit : creditParent corpus input.parent = .ok credited)
    (hparent : ∀ parent, input.parent = some parent → parent < corpus.size)
    (hfresh : input.offspring = 0) :
    (credited.insert input claims).1.CountsChildren := by
  have hsize : credited.size = corpus.size := Engine.size_creditParent hcredit
  intro id entry hentry
  rw [readings_insert fixed_parent, Engine.readings_creditParent hcredit fixed_parent,
    List.count_append]
  rw [get?_insert, hsize] at hentry
  split at hentry
  · rename_i hid
    subst hid
    cases hentry
    -- The new entry has no children, as every parent was saved before its child.
    have hnone : (corpus.readings Input.parent).count (some corpus.size) = 0 := by
      rw [List.count_eq_zero]
      intro hmem
      obtain ⟨id, hid⟩ := List.mem_iff_getElem?.1 hmem
      rw [getElem?_readings, Option.map_eq_some_iff] at hid
      obtain ⟨entry, hentry, hentryParent⟩ := hid
      have hlt := hparents id entry hentry _ hentryParent
      exact absurd (get?_lt hentry) (Nat.lt_asymm hlt)
    have hother : input.parent ≠ some corpus.size := fun heq => Nat.lt_irrefl _ (hparent _ heq)
    simp [Input.asEntry, hfresh, hnone, hother]
  · obtain ⟨old, hold, rfl⟩ := Option.map_eq_some_iff.1 hentry
    obtain ⟨older, holder, hoffspring⟩ := offspring_creditParent hcredit hold
    rw [offspring_releaseAll, hoffspring, h id older holder]
    simp [Input.asEntry, List.count_singleton]

theorem Enrolls.countsChildren (h : corpus.Enrolls input run claims corpus')
    (hcounts : corpus.CountsChildren)
    (hparents : corpus.Each fun id entry => ∀ parent, entry.parent = some parent → parent < id)
    (hparent : ∀ parent, input.parent = some parent → parent < corpus.size) :
    corpus'.CountsChildren := by
  cases h with
  | kept => exact hcounts
  | entered hcredit htrim =>
    obtain rfl := Input.eq_of_trim htrim
    exact hcounts.save hparents hcredit hparent rfl

theorem fixed_hits : Fixed fun entry => entry.nonZeroCoverage.getD 0 :=
  ⟨fun _ _ => rfl, fun _ _ => rfl⟩

/-- The largest number of points that any saved run hit, zero if none is saved. -/
def peak (corpus : Corpus) : Nat :=
  (corpus.readings fun entry => entry.nonZeroCoverage.getD 0).max?.getD 0

theorem le_peak {id : Nat} {entry : Input} (h : corpus.get? id = some entry) :
    entry.nonZeroCoverage.getD 0 ≤ corpus.peak := by
  apply List.le_max?_getD_of_mem
  rw [List.mem_iff_getElem?]
  exact ⟨id, by rw [getElem?_readings, h]; rfl⟩

end Corpus

theorem Findings.peak_save (path : String) {verdict : Verdict}
    (hcredit : creditParent findings.corpus input.parent = .ok credited)
    (hpeak : findings.maxCoverage = findings.corpus.peak) :
    (findings.save credited input run verdict path).maxCoverage =
      (findings.save credited input run verdict path).corpus.peak := by
  simp only [save]
  rw [hpeak, Corpus.peak, Corpus.peak, Corpus.readings_insert Corpus.fixed_hits,
    Engine.readings_creditParent hcredit Corpus.fixed_hits]
  generalize findings.corpus.readings (fun entry => entry.nonZeroCoverage.getD 0) = counts
  have hall := List.foldl_max (l := counts ++ [run.nonZeroCount]) (a := 0)
  have hold := List.foldl_max (l := counts) (a := 0)
  simp only [List.foldl_append, List.foldl_cons, List.foldl_nil, Nat.zero_max] at hall hold
  rw [← hold]
  exact hall

namespace Engine

variable {σ ρ : Type} [Storage σ] {engine : Engine σ ρ} {result : Except EngineError Outcome}

theorem Reports.peak (h : engine.Reports input run valid result findings)
    (hparent : ∀ parent, input.parent = some parent → parent < engine.corpus.size)
    (hpeak : engine.maxCoverage = engine.corpus.peak) :
    findings.maxCoverage = findings.corpus.peak := by
  cases h with
  | mismatched | unlogged => exact hpeak
  | ingested hsize hlog hingests =>
    cases hingests with
    | ignored | discarded | empty => exact hpeak
    | trimmed hverdict hinteresting htrim hsaves =>
      obtain rfl := Input.eq_of_trim htrim
      cases hsaves with
      | lost => exact hpeak
      | orphaned hstore horphan => exact absurd horphan (creditParent_ne_error hparent)
      | saved hstore hcredit hresult =>
        exact Findings.peak_save _ hcredit hpeak

end Engine

structure Input.IsRecorded (limits : Limits) (entry : Input) : Prop where
  trimmed : entry.IsTrimmed limits
  counted : ∃ run, entry.coverage = some run ∧ entry.nonZeroCoverage = some run.nonZeroCount

theorem Input.IsRecorded.stable (limits : Limits) :
    Corpus.Stable fun _ entry => entry.IsRecorded limits where
  release _ h := ⟨⟨h.trimmed.size, h.trimmed.allowed⟩, h.counted⟩
  credit _ h := ⟨⟨h.trimmed.size, h.trimmed.allowed⟩, h.counted⟩

theorem Conduct.Issues.fits {conduct : Conduct} {limits : Limits} {saved : Nat}
    (h : conduct.Issues limits saved input) : input.stream.Fits limits := by
  cases h with
  | seed => trivial
  | fresh seed => exact GeneratedInput.fits_ofBytes #[] limits seed
  | child _ seed => exact GeneratedInput.fits_ofBytes _ limits seed

namespace Session

variable {σ ρ : Type} [Storage σ] [WordSource ρ] {conduct : Conduct} {settings : Settings}
  {storage : σ} {session session' : Session σ ρ}

/-- What the corpus and the largest coverage tell about the entries is true. -/
structure Bookkept (settings : Settings) (session : Session σ ρ) : Prop where
  entries : session.engine.corpus.Each fun _ entry => entry.IsRecorded settings.limits
  children : session.engine.corpus.CountsChildren
  peak : session.engine.maxCoverage = session.engine.corpus.peak

theorem Step.bookkept (hstep : Step conduct session session') (hpulls : conduct.OnlyPulls)
    (hsound : session.Sound conduct settings storage) (h : session.Bookkept settings) :
    session'.Bookkept settings := by
  obtain hsame | ⟨before, handed, after, input, run, valid, result, hhanded, hreports, hresult⟩ :=
    hstep.findings
  · have hcorpus : session'.engine.corpus = session.engine.corpus := congrArg Findings.corpus hsame
    have hmax : session'.engine.maxCoverage = session.engine.maxCoverage :=
      congrArg Findings.maxCoverage hsame
    exact ⟨hcorpus ▸ h.entries, hcorpus ▸ h.children, by rw [hmax, hcorpus, h.peak]⟩
  · have hpulled := hpulls handed input run valid hreports
    have hparent : ∀ parent, input.parent = some parent → parent < session.engine.corpus.size :=
      fun _ => hsound.parent_lt hhanded hpulled
    refine ⟨?_, ?_, hresult.peak hparent h.peak⟩
    · have hfits := hpulled.fits (hsound.outstanding handed (mem_outstanding hhanded)).fits
      apply hresult.enrolls.each h.entries (Input.IsRecorded.stable settings.limits)
      intro trimmed path htrim
      have htrimmed : trimmed.IsTrimmed settings.limits := .of_trim htrim hfits
      exact ⟨⟨htrimmed.size, htrimmed.allowed⟩, run, rfl, rfl⟩
    · apply hresult.enrolls.countsChildren h.children
      · intro id entry hentry
        exact (hsound.entries id entry hentry).parent
      · exact hparent

theorem Reachable.bookkept (h : Reachable conduct settings storage session)
    (hpulls : conduct.OnlyPulls) : session.Bookkept settings := by
  induction h with
  | start maxTrials maxDuration logAllInputs hstart =>
    obtain ⟨-, rfl⟩ := eq_of_start hstart
    exact ⟨Corpus.each_empty, Corpus.each_empty, rfl⟩
  | step hreachable hstep ih => exact hstep.bookkept hpulls (hreachable.sound hpulls) ih

/-- At every moment of a session, whatever its store refuses, the entries stand under their own ids
after their parents, hold exactly the bytes that were handed out, and know how many entries are
their children and how many points their runs hit. The largest such number is the one that children
are scheduled by, so that only favored inputs get more children than the baseline. -/
theorem Reachable.entries_accounted (h : Reachable .any settings storage session) :
    (∀ id entry, session.engine.corpus.get? id = some entry →
      entry.id = some id ∧ 0 < entry.bytes.size ∧ entry.bytes.size = entry.requested ∧
      (entry.isSeed = false → entry.bytes.size ≤ settings.maxInputSize) ∧
      (∀ parent, entry.parent = some parent → parent < id) ∧
      entry.offspring =
        session.engine.corpus.entries.toList.countP (fun child => child.parent = some id) ∧
      (∃ run, entry.coverage = some run ∧ entry.nonZeroCoverage = some run.nonZeroCount) ∧
      (entry.favored = false → ∀ schedule : PowerSchedule,
        schedule.targetChildren entry session.engine.maxCoverage ≤ schedule.baseline)) ∧
    session.engine.maxCoverage =
      (session.engine.corpus.entries.toList.map fun entry =>
        entry.nonZeroCoverage.getD 0).max?.getD 0 := by
  have hsound := h.sound Conduct.onlyPulls_any
  have hbooks := h.bookkept Conduct.onlyPulls_any
  refine ⟨?_, hbooks.peak⟩
  intro id entry hentry
  have hproper := hsound.entries id entry hentry
  have hrecorded := hbooks.entries id entry hentry
  have hbytes : 0 < entry.bytes.size := by
    apply Nat.pos_of_ne_zero
    intro hzero
    have hempty : entry.isEmpty = true := Array.isEmpty_iff_size_eq_zero.2 hzero
    exact Bool.false_ne_true (hproper.hasBytes.symm.trans hempty)
  have hoffspring := hbooks.children id entry hentry
  rw [Corpus.readings, List.count_eq_countP, List.countP_map] at hoffspring
  refine ⟨hproper.hasId, hbytes, hrecorded.trimmed.size, hrecorded.trimmed.allowed, hproper.parent,
    ?_, hrecorded.counted, ?_⟩
  · rw [hoffspring]
    apply List.countP_congr
    intro child _
    simp
  · intro hfavored schedule
    apply schedule.targetChildren_le_baseline hfavored
    rw [hbooks.peak]
    exact Corpus.le_peak hentry

theorem entries_accounted_twice :
    let twice := sampleTwice (∅ : MemoryStore) false true
    ∃ entry run, twice.engine.corpus.get? 1 = some entry ∧ entry.id = some 1 ∧
      entry.bytes.size = entry.requested ∧ entry.coverage = some run ∧
      run.nonZeroCount ≤ twice.engine.maxCoverage := by
  intro twice
  obtain ⟨hentries, hmax⟩ := (sampleTwice_reachable (∅ : MemoryStore) false true).entries_accounted
  have hsaved : 1 < twice.engine.corpus.size := by decide +kernel
  obtain ⟨entry, hentry⟩ := Corpus.exists_get? hsaved
  obtain ⟨hid, -, hsize, -, -, -, ⟨run, hrun, hcount⟩, -⟩ := hentries 1 entry hentry
  refine ⟨entry, run, hentry, hid, hsize, hrun, ?_⟩
  have hle : entry.nonZeroCoverage.getD 0 ≤ twice.engine.corpus.peak := Corpus.le_peak hentry
  rw [hcount] at hle
  rw [hmax]
  exact hle

end Session

end Greybox
