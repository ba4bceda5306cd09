import Greybox.Proofs.Session.Reliable
import Greybox.Proofs.Storage.Memory

namespace Greybox

open Storage (Records)

namespace Feedback

variable {feedback : Feedback} {run map : Coverage} {valid : Bool}

/-- The map tells what all runs covered, and how often where new counts are a reason to save. -/
structure Recorded (feedback : Feedback) (map : Coverage) : Prop where
  size : map.size = feedback.total.size
  points : ∀ p, map.get p ≠ 0 ↔ feedback.total.get p ≠ 0
  counts : feedback.ignoreNewCounts = false → map = feedback.total

theorem recorded_total (feedback : Feedback) : feedback.Recorded feedback.total :=
  ⟨rfl, fun _ => Iff.rfl, fun _ => rfl⟩

theorem Recorded.commit (h : feedback.Recorded map) (hsize : run.size = feedback.total.size)
    (hdull : (feedback.assess run valid).isInteresting = false) :
    (feedback.commit run valid).Recorded map := by
  refine ⟨?_, ?_, ?_⟩
  · rw [size_total_commit]
    exact h.size
  · intro p
    rw [get_total_commit_ne_zero_iff_of_not_interesting hsize hdull]
    exact h.points p
  · intro hcounts
    have hcounts : feedback.ignoreNewCounts = false := hcounts
    rw [total_commit_of_not_interesting hcounts hdull]
    exact h.counts hcounts

end Feedback

namespace MemoryStore

variable {store later : MemoryStore} {findings findings' : Findings} {id : Nat} {entry : Input}

/-- The store holds an entry with its bytes and what is known about it. -/
def Holds (store : MemoryStore) (id : Nat) (entry : Input) : Prop :=
  ∃ reasons, store.inputs[id]? =
    some (entry.bytes, ⟨entry.description, reasons, entry.parent, entry.size⟩)

theorem stable_holds (store : MemoryStore) : Corpus.Stable store.Holds :=
  ⟨fun _ h => h, fun _ h => h⟩

/-- The store holds the entries of the corpus and no others, and the coverage if there are any. -/
structure Mirrors (store : MemoryStore) (findings : Findings) : Prop where
  keys : ∀ id, id ∈ store.inputs ↔ id < findings.corpus.size
  entries : findings.corpus.Each store.Holds
  saved : store.coverage.isSome ↔ findings.corpus.size ≠ 0
  blank : store.coverage = none → ∀ p, findings.feedback.total.get p = 0
  recorded : ∀ map, store.coverage = some map → findings.feedback.Recorded map

theorem mirrors_start (mapSize : Nat) (validityFuzzing ignoreNewCounts : Bool) :
    Mirrors ∅ ⟨∅, .start mapSize validityFuzzing ignoreNewCounts, 0⟩ := by
  refine ⟨?_, Corpus.each_empty, ?_, ?_, ?_⟩
  · intro id
    exact iff_of_false Std.TreeMap.not_mem_emptyc (Nat.not_lt_zero id)
  · exact iff_of_false Bool.false_ne_true fun h => h rfl
  · intro _ p
    exact Coverage.get_zero mapSize p
  · intro map hmap
    cases hmap

namespace Mirrors

variable (h : store.Mirrors findings)

include h

theorem records (hrecords : Records store later) : later.Mirrors findings := by
  obtain ⟨hinputs, hcoverage⟩ := of_records hrecords
  refine ⟨?_, ?_, ?_, ?_, ?_⟩
  · rw [hinputs]
    exact h.keys
  · intro id entry hentry
    rw [Holds, hinputs]
    exact h.entries id entry hentry
  · rw [hcoverage]
    exact h.saved
  · rw [hcoverage]
    exact h.blank
  · rw [hcoverage]
    exact h.recorded

theorem discard {run : Coverage} {valid : Bool} (hsize : run.size = findings.feedback.total.size)
    (hdull : (findings.feedback.assess run valid).isInteresting = false) :
    store.Mirrors (findings.merge run valid) := by
  refine ⟨h.keys, h.entries, h.saved, ?_, ?_⟩
  · intro hnone p
    have hold : ¬ findings.feedback.total.get p ≠ 0 := fun hp => hp (h.blank hnone p)
    exact Classical.not_not.1
      (mt (Feedback.get_total_commit_ne_zero_iff_of_not_interesting hsize hdull).1 hold)
  · intro map hmap
    exact (h.recorded map hmap).commit hsize hdull

theorem save {input : Input} {run : Coverage} {valid : Bool} {verdict : Verdict} {credited : Corpus}
    (path : String) (hcredit : Engine.creditParent findings.corpus input.parent = .ok credited)
    (hdeposits : Storage.Deposits store findings.corpus.nextId input.bytes
      (Engine.metadata input verdict) (findings.feedback.commit run valid).total later) :
    later.Mirrors ((findings.merge run valid).save credited input run verdict path) := by
  obtain ⟨hinputs, hcoverage⟩ := of_deposits hdeposits
  have hcredited : credited.size = findings.corpus.size := Engine.size_creditParent hcredit
  have hgrown := credited.size_insert (Engine.sealed input run path) verdict.responsibilities
  rw [hcredited] at hgrown
  refine ⟨?_, ?_, ?_, ?_, ?_⟩
  · intro id
    simp only [Findings.save, hgrown, hinputs, Std.TreeMap.mem_insert, h.keys,
      Std.LawfulEqCmp.compare_eq_iff_eq, Corpus.nextId]
    omega
  · apply Corpus.each_insert _ later.stable_holds
    · rw [hcredited, Holds, hinputs]
      exact ⟨SaveReason.joined verdict.reasons, Std.TreeMap.getElem?_insert_self⟩
    · apply Engine.each_creditParent hcredit _ later.stable_holds
      intro id entry hentry
      have hlt : id < findings.corpus.size := Corpus.get?_lt hentry
      have hother : compare findings.corpus.nextId id ≠ .eq :=
        fun heq => absurd (Std.LawfulEqCmp.eq_of_compare heq) (Nat.ne_of_gt hlt)
      rw [Holds, hinputs, Std.TreeMap.getElem?_insert, if_neg hother]
      exact h.entries id entry hentry
  · rw [hcoverage]
    refine iff_of_true rfl ?_
    simp only [Findings.save, hgrown]
    exact Nat.succ_ne_zero _
  · intro hnone
    cases hnone.symm.trans hcoverage
  · intro map hmap
    cases hcoverage.symm.trans hmap
    exact Feedback.recorded_total _

theorem takes {report : Report} (htakes : report.Takes findings store findings' later) :
    later.Mirrors findings' := by
  obtain ⟨input, run, valid, result⟩ := report
  cases htakes with
  | rejected hrecords | ignored _ hrecords => exact h.records hrecords
  | discarded hsize hdull hrecords => exact (h.records hrecords).discard hsize hdull
  | saved hsize hclaims htrim hcredit hrecords hdeposits =>
    exact (h.records hrecords).save _ hcredit hdeposits

end Mirrors

end MemoryStore

namespace Session

variable {ρ : Type} [WordSource ρ] {conduct : Conduct} {settings : Settings}
  {session : Session MemoryStore ρ}

theorem Reachable.mirrors (h : Reachable conduct settings (∅ : MemoryStore) session)
    (hpulls : conduct.OnlyPulls) : session.engine.storage.Mirrors session.engine.findings := by
  refine h.takes_induction (P := fun findings store _ => store.Mirrors findings) hpulls
    (MemoryStore.neverFails ∅) (MemoryStore.mirrors_start _ _ _) ?_ ?_
  · intro findings store later _ hmirrors hrecords
    exact hmirrors.records hrecords
  · intro session report findings later _ htakes hmirrors
    exact hmirrors.takes htakes

/-- At every moment of a session the store in memory holds exactly the saved inputs, each with its
bytes, its description, its parent and its size, and the coverage as soon as an input is saved. The
stored map covers what all runs covered, and is the map of all runs if new counts are a reason to
save. -/
theorem Reachable.storage_mirrors (h : Reachable .any settings (∅ : MemoryStore) session) :
    (∀ id, id ∈ session.engine.storage.inputs ↔ id < session.engine.corpus.size) ∧
    (∀ id entry, session.engine.corpus.get? id = some entry → ∃ stored,
      session.engine.storage.inputs[id]? = some (entry.bytes, stored) ∧
      stored.description = entry.description ∧ stored.parent = entry.parent ∧
      stored.size = entry.bytes.size) ∧
    (session.engine.storage.coverage.isSome ↔ session.engine.corpus.size ≠ 0) ∧
    (session.engine.storage.coverage = none →
      ∀ p, session.engine.totalCoverage.get p = 0) ∧
    ∀ map, session.engine.storage.coverage = some map →
      map.size = session.engine.totalCoverage.size ∧
      (∀ p, map.get p ≠ 0 ↔ session.engine.totalCoverage.get p ≠ 0) ∧
      (settings.disableSaveNewCounts = false → map = session.engine.totalCoverage) := by
  have hmirrors := h.mirrors Conduct.onlyPulls_any
  refine ⟨hmirrors.keys, ?_, hmirrors.saved, hmirrors.blank, ?_⟩
  · intro id entry hentry
    obtain ⟨reasons, hheld⟩ := hmirrors.entries id entry hentry
    exact ⟨_, hheld, rfl, rfl, rfl⟩
  · intro map hmap
    have hrecorded := hmirrors.recorded map hmap
    refine ⟨hrecorded.size, hrecorded.points, ?_⟩
    intro hcounts
    exact hrecorded.counts (h.obeys.ignoreNewCounts.trans hcounts)

theorem storage_mirrors_twice :
    (sampleTwice (∅ : MemoryStore) true true).engine.corpus.size = 1 ∧
    ∃ map, (sampleTwice (∅ : MemoryStore) true true).engine.storage.coverage = some map ∧
      map = (sampleTwice (∅ : MemoryStore) true true).engine.totalCoverage := by
  obtain ⟨-, -, hsaved, -, hmap⟩ :=
    (sampleTwice_reachable (∅ : MemoryStore) true true).storage_mirrors
  have hone : (sampleTwice (∅ : MemoryStore) true true).engine.corpus.size = 1 := by decide +kernel
  obtain ⟨map, hstored⟩ := Option.isSome_iff_exists.1 (hsaved.2 (hone ▸ Nat.one_ne_zero))
  exact ⟨hone, map, hstored, (hmap map hstored).2.2 rfl⟩

end Session

end Greybox
