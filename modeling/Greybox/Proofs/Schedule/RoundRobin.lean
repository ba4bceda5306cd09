import Mathlib.Data.List.Flatten
import Greybox.Proofs.Corpus
import Greybox.Proofs.Schedule.Pass

namespace Greybox.Scheduler

variable {scheduler : Scheduler} {corpus : Corpus} {target : Nat → Nat} {count maxCoverage id : Nat}

/-- The ids `0, …, count - 1`, each as often as its target says. -/
def round (target : Nat → Nat) (count : Nat) : List Nat :=
  (List.range count).flatMap fun id => List.replicate (target id) id

@[simp] theorem round_zero (target : Nat → Nat) : round target 0 = [] := rfl

theorem round_succ (target : Nat → Nat) (count : Nat) :
    round target (count + 1) = round target count ++ List.replicate (target count) count := by
  simp [round, List.range_succ, List.flatMap_append]

theorem length_round_succ (target : Nat → Nat) (count : Nat) :
    (round target (count + 1)).length = (round target count).length + target count := by
  rw [round_succ, List.length_append, List.length_replicate]

theorem round_initial (target : Nat → Nat) (h : id ≤ count) :
    round target id <+: round target count := by
  induction h with
  | refl => exact List.prefix_rfl
  | step _ ih =>
    rw [round_succ]
    exact ih.trans (List.prefix_append _ _)

theorem length_round_add_le (target : Nat → Nat) (h : id < count) :
    (round target id).length + target id ≤ (round target count).length := by
  rw [← length_round_succ]
  exact (round_initial target h).length_le

theorem getElem?_round {child : Nat} (h : id < count) (hchild : child < target id) :
    (round target count)[(round target id).length + child]? = some id := by
  obtain ⟨rest, hrest⟩ := round_initial target (Nat.succ_le_of_lt h)
  rw [← hrest, round_succ, List.append_assoc, List.getElem?_append_right (Nat.le_add_right _ _),
    Nat.add_sub_cancel_left, List.getElem?_append_left (by rwa [List.length_replicate]),
    List.getElem?_replicate, if_pos hchild]

/-- The children counted in this round, if every input before the cursor has had its children. -/
def progress (target : Nat → Nat) (scheduler : Scheduler) : Nat :=
  (round target scheduler.cursor).length + scheduler.children

/-- The cursor is on an input, which has not had more children than it should. -/
structure OnTrack (target : Nat → Nat) (count : Nat) (scheduler : Scheduler) : Prop where
  cursor : scheduler.cursor < count
  children : scheduler.children ≤ target scheduler.cursor

theorem progress_advance (h : scheduler.OnTrack target count)
    (hfull : target scheduler.cursor ≤ scheduler.children) :
    progress target scheduler = (round target count).length * ((scheduler.cursor + 1) / count) +
      progress target (scheduler.advance count).1 := by
  have hchildren : scheduler.children = target scheduler.cursor := Nat.le_antisymm h.children hfull
  have hround := length_round_succ target scheduler.cursor
  have hcount : 0 < count := Nat.zero_lt_of_lt h.cursor
  simp only [progress, advance, hchildren]
  by_cases hlast : scheduler.cursor + 1 = count
  · rw [hlast] at hround ⊢
    rw [Nat.mod_self, Nat.div_self hcount, round_zero, List.length_nil, hround]
    omega
  · have hlt : scheduler.cursor + 1 < count := Nat.lt_of_le_of_ne h.cursor hlast
    rw [Nat.mod_eq_of_lt hlt, Nat.div_eq_of_lt hlt, hround]
    omega

theorem OnTrack.advance (h : scheduler.OnTrack target count) :
    (scheduler.advance count).1.OnTrack target count :=
  ⟨cursor_advance_lt scheduler (Nat.zero_lt_of_lt h.cursor), Nat.zero_le _⟩

theorem OnTrack.seek (h : scheduler.OnTrack target count) (completed : Bool) (steps : Nat) :
    (scheduler.seek target count completed steps).1.OnTrack target count := by
  induction steps generalizing scheduler completed with
  | zero => exact h
  | succ steps ih =>
    rw [seek_succ]
    split
    · exact h
    · exact ih h.advance _

/-- A pass loses no child: what it takes off the progress in the round are whole rounds. -/
theorem exists_laps_seek (h : scheduler.OnTrack target count) (completed : Bool) (steps : Nat) :
    let found := scheduler.seek target count completed steps
    ∃ laps, progress target scheduler =
        (round target count).length * laps + progress target found.1 ∧
      found.1.cycles = scheduler.cycles + .ofNat laps ∧
      found.2 = (completed || decide (0 < laps)) := by
  induction steps generalizing scheduler completed with
  | zero => exact ⟨0, by simp [Scheduler.seek], (UInt64.add_zero _).symm, by simp [Scheduler.seek]⟩
  | succ steps ih =>
    rw [seek_succ]
    split <;> rename_i hfull
    · exact ⟨0, by simp, (UInt64.add_zero _).symm, by simp⟩
    · obtain ⟨laps, hprogress, hcycles, hflag⟩ := ih h.advance (completed || (scheduler.advance count).2)
      refine ⟨(scheduler.cursor + 1) / count + laps, ?_, ?_, ?_⟩
      · rw [progress_advance h (Nat.not_lt.1 hfull), hprogress, Nat.mul_add, Nat.add_assoc]
      · rw [hcycles, cycles_advance h.cursor, UInt64.ofNat_add, UInt64.add_assoc]
      · have hcount : 0 < count := Nat.zero_lt_of_lt h.cursor
        have hwrapped : decide (count ≤ scheduler.cursor + 1) =
            decide (0 < (scheduler.cursor + 1) / count) :=
          decide_eq_decide.2 (Nat.div_pos_iff.trans (and_iff_right hcount)).symm
        rw [hflag, wrapped_advance h.cursor, hwrapped, Bool.or_assoc, ← Bool.decide_or]
        congr 2
        exact propext Nat.add_pos_iff_pos_or_pos.symm

theorem selectAmong_of_cursor_lt (target : Nat → Nat) (h : scheduler.cursor < count) :
    scheduler.selectAmong target count =
      let found := scheduler.seek target count false count
      (some ⟨found.1.cursor, found.2⟩, found.1) := by
  rw [selectAmong_eq_seek scheduler target (Nat.zero_lt_of_lt h), restarted_of_lt h]

theorem OnTrack.progress_le (h : scheduler.OnTrack target count) :
    progress target scheduler ≤ (round target count).length :=
  Nat.le_trans (Nat.add_le_add_left h.children _) (length_round_add_le target h.cursor)

theorem OnTrack.getElem?_progress (h : scheduler.OnTrack target count)
    (hshort : scheduler.children < target scheduler.cursor) :
    progress target scheduler < (round target count).length ∧
      (round target count)[progress target scheduler]? = some scheduler.cursor := by
  refine ⟨?_, getElem?_round h.cursor hshort⟩
  exact Nat.lt_of_lt_of_le (Nat.add_lt_add_left hshort _) (length_round_add_le target h.cursor)

/-- So many selections were made, each followed by a child. -/
structure Rotated (target : Nat → Nat) (count turns : Nat) (scheduler : Scheduler) : Prop where
  track : scheduler.OnTrack target count
  progress_eq : ∃ rounds,
    turns = (round target count).length * rounds + progress target scheduler
  children : turns = 0 ∨ 0 < scheduler.children

theorem rotated_start (schedule : PowerSchedule) (target : Nat → Nat) (h : 0 < count) :
    Rotated target count 0 { schedule } := by
  refine ⟨⟨h, Nat.zero_le _⟩, ⟨0, ?_⟩, .inl rfl⟩
  simp [progress]

theorem Rotated.exists_place {turns laps place : Nat} (h : scheduler.Rotated target count turns)
    (hlaps : progress target scheduler = (round target count).length * laps + place) :
    ∃ rounds, turns = (round target count).length * (rounds + laps) + place := by
  obtain ⟨rounds, hturns⟩ := h.progress_eq
  refine ⟨rounds, ?_⟩
  rw [hturns, hlaps, Nat.mul_add, Nat.add_assoc]

theorem Rotated.mod_eq {turns laps place : Nat} (h : scheduler.Rotated target count turns)
    (hlaps : progress target scheduler = (round target count).length * laps + place)
    (hplace : place < (round target count).length) :
    turns % (round target count).length = place := by
  obtain ⟨rounds, hturns⟩ := h.exists_place hlaps
  rw [hturns, Nat.mul_add_mod, Nat.mod_eq_of_lt hplace]

/-- The cursor comes past the end once at most, and only to start a round. -/
theorem Rotated.laps_eq {turns laps place : Nat} (h : scheduler.Rotated target count turns)
    (hlaps : progress target scheduler = (round target count).length * laps + place)
    (hplace : place < (round target count).length) :
    laps = (decide (0 < turns ∧ turns % (round target count).length = 0)).toNat := by
  have hmod := h.mod_eq hlaps hplace
  have hle := h.track.progress_le
  rw [hlaps] at hle
  obtain _ | _ | laps := laps
  · have hstart : ¬ (0 < turns ∧ turns % (round target count).length = 0) := by
      rintro ⟨hpos, hzero⟩
      have hchildren := h.children.resolve_left (Nat.ne_of_gt hpos)
      have hprogress : scheduler.children ≤ progress target scheduler := Nat.le_add_left _ _
      omega
    rw [decide_eq_false hstart, Bool.toNat_false]
  · obtain ⟨rounds, hturns⟩ := h.exists_place hlaps
    have hzero : turns % (round target count).length = 0 := by omega
    have hpos : 0 < turns := by
      rw [hturns]
      exact Nat.add_pos_left (Nat.mul_pos (Nat.zero_lt_of_lt hplace) (Nat.succ_pos _)) _
    rw [decide_eq_true ⟨hpos, hzero⟩, Bool.toNat_true]
  · have htwice : (round target count).length * 2 ≤ (round target count).length * (laps + 1 + 1) :=
      Nat.mul_le_mul_left _ (by omega)
    omega

theorem Rotated.selectAmong {turns : Nat} (h : scheduler.Rotated target count turns)
    (hid : id < count) (hpositive : 0 < target id) :
    let completed := decide (0 < turns ∧ turns % (round target count).length = 0)
    let found := (scheduler.selectAmong target count).2
    (scheduler.selectAmong target count).1 = some ⟨found.cursor, completed⟩ ∧
      (round target count)[turns % (round target count).length]? = some found.cursor ∧
      found.cycles = scheduler.cycles + .ofNat completed.toNat ∧
      found.recordChild.Rotated target count (turns + 1) := by
  have htrack := h.track.seek false count
  have hshort := lt_target_seek_full false h.track.cursor hid hpositive
  obtain ⟨laps, hlaps, hcycles, hcompleted⟩ := exists_laps_seek h.track false count
  rw [selectAmong_of_cursor_lt target h.track.cursor]
  generalize scheduler.seek target count false count = found at *
  obtain ⟨hlt, hparent⟩ := htrack.getElem?_progress hshort
  obtain ⟨rounds, hturns⟩ := h.exists_place hlaps
  have hlaps_eq := h.laps_eq hlaps hlt
  have hflag : found.2 = decide (0 < turns ∧ turns % (round target count).length = 0) := by
    rw [hcompleted, hlaps_eq, Bool.false_or]
    cases decide (0 < turns ∧ turns % (round target count).length = 0) <;> rfl
  refine ⟨?_, ?_, ?_, ⟨htrack.cursor, hshort⟩, ⟨rounds + laps, ?_⟩, .inr (Nat.succ_pos _)⟩
  · exact congrArg (fun completed => some (Selection.mk found.1.cursor completed)) hflag
  · rw [h.mod_eq hlaps hlt, hparent]
  · rw [← hlaps_eq, hcycles]
  · rw [hturns, Nat.add_assoc]
    rfl

def rotate (scheduler : Scheduler) (corpus : Corpus) (maxCoverage : Nat) :
    (turns : Nat) → List (Option Selection) × Scheduler
  | 0 => ([], scheduler)
  | turns + 1 =>
    let (selections, scheduler) := scheduler.rotate corpus maxCoverage turns
    let (selection, scheduler) := scheduler.select corpus maxCoverage
    (selections ++ [selection], scheduler.recordChild)

theorem rotate_succ (scheduler : Scheduler) (corpus : Corpus) (maxCoverage turns : Nat) :
    scheduler.rotate corpus maxCoverage (turns + 1) =
      let before := scheduler.rotate corpus maxCoverage turns
      (before.1 ++ [(before.2.select corpus maxCoverage).1],
        (before.2.select corpus maxCoverage).2.recordChild) := rfl

theorem schedule_select (scheduler : Scheduler) (corpus : Corpus) (maxCoverage : Nat) :
    (scheduler.select corpus maxCoverage).2.schedule = scheduler.schedule := by
  rw [select]
  rw [selectAmong]
  split
  · rfl
  · exact schedule_seek _ _ _ _ _

theorem targetOf_select (scheduler : Scheduler) (corpus : Corpus) (maxCoverage : Nat) :
    (scheduler.select corpus maxCoverage).2.recordChild.targetOf corpus maxCoverage =
      scheduler.targetOf corpus maxCoverage := by
  funext id
  rw [targetOf, targetOf, recordChild, schedule_select]

@[simp] theorem length_rotate (scheduler : Scheduler) (corpus : Corpus) (maxCoverage turns : Nat) :
    (scheduler.rotate corpus maxCoverage turns).1.length = turns := by
  induction turns with
  | zero => rfl
  | succ turns ih => rw [rotate_succ, List.length_append, ih, List.length_singleton]

theorem getElem?_rotate {turn turns : Nat} (h : turn < turns) :
    (scheduler.rotate corpus maxCoverage turns).1[turn]? =
      some ((scheduler.rotate corpus maxCoverage turn).2.select corpus maxCoverage).1 := by
  induction turns with
  | zero => exact absurd h (Nat.not_lt_zero _)
  | succ turns ih =>
    rw [rotate_succ]
    obtain hlt | rfl := Nat.lt_or_eq_of_le (Nat.le_of_lt_succ h)
    · rw [List.getElem?_append_left (by rwa [length_rotate])]
      exact ih hlt
    · rw [List.getElem?_append_right (Nat.le_of_eq (length_rotate ..)), length_rotate, Nat.sub_self,
        List.getElem?_cons_zero]

section

variable (hstart : scheduler.Rotated (scheduler.targetOf corpus maxCoverage) corpus.size 0)
  (hid : id < corpus.size) (hpositive : 0 < scheduler.targetOf corpus maxCoverage id) (turns : Nat)

include hstart hid hpositive

theorem rotated_rotate :
    (scheduler.rotate corpus maxCoverage turns).2.targetOf corpus maxCoverage =
        scheduler.targetOf corpus maxCoverage ∧
      (scheduler.rotate corpus maxCoverage turns).2.Rotated
        (scheduler.targetOf corpus maxCoverage) corpus.size turns := by
  induction turns with
  | zero => exact ⟨rfl, hstart⟩
  | succ turns ih =>
    obtain ⟨htarget, hrotated⟩ := ih
    obtain ⟨-, -, -, hnext⟩ := hrotated.selectAmong hid hpositive
    rw [← htarget] at hnext ⊢
    exact ⟨targetOf_select _ corpus maxCoverage, hnext⟩

theorem select_rotate :
    let block := round (scheduler.targetOf corpus maxCoverage) corpus.size
    let completed := decide (0 < turns ∧ turns % block.length = 0)
    let before := (scheduler.rotate corpus maxCoverage turns).2
    ∃ parent, block[turns % block.length]? = some parent ∧
      (before.select corpus maxCoverage).1 = some ⟨parent, completed⟩ ∧
      (before.select corpus maxCoverage).2.cycles = before.cycles + .ofNat completed.toNat := by
  intro block completed before
  obtain ⟨htarget, hrotated⟩ := rotated_rotate hstart hid hpositive turns
  obtain ⟨hselection, hparent, hcycles, -⟩ := hrotated.selectAmong hid hpositive
  rw [select, htarget]
  exact ⟨_, hparent, hselection, hcycles⟩

theorem cycles_rotate : (scheduler.rotate corpus maxCoverage turns).2.cycles =
    scheduler.cycles + .ofNat ((scheduler.rotate corpus maxCoverage turns).1.countP
      fun selection => selection.any (·.completedCycle)) := by
  induction turns with
  | zero => exact (UInt64.add_zero _).symm
  | succ turns ih =>
    obtain ⟨parent, -, hselection, hcycles⟩ := select_rotate hstart hid hpositive turns
    rw [rotate_succ, List.countP_append, UInt64.ofNat_add, ← UInt64.add_assoc, ← ih, hselection]
    refine hcycles.trans ?_
    by_cases hstarts : 0 < turns ∧
        turns % (round (scheduler.targetOf corpus maxCoverage) corpus.size).length = 0 <;>
      simp [hstarts]

end

/-- Selections that are each followed by a child repeat one round of the schedule for ever: the ids
of all inputs in order, each as often as its target says. A cycle is completed by the first
selection of every round but the first, and by no other; these are counted in 64 bits. -/
theorem rotate_eq_rounds (schedule : PowerSchedule)
    (hpositive : ∃ id entry, corpus.get? id = some entry ∧
      0 < schedule.targetChildren entry maxCoverage) (turns : Nat) :
    let scheduler : Scheduler := { schedule }
    let block := round (scheduler.targetOf corpus maxCoverage) corpus.size
    let rotated := scheduler.rotate corpus maxCoverage turns
    let completed := rotated.1.countP fun selection => selection.any (·.completedCycle)
    rotated.1.length = turns ∧
    (∀ turn < turns, ∃ parent, block[turn % block.length]? = some parent ∧
      rotated.1[turn]? =
        some (some ⟨parent, decide (0 < turn ∧ turn % block.length = 0)⟩)) ∧
    rotated.2.cycles = .ofNat completed ∧
      (turns < UInt64.size → rotated.2.cycles.toNat = completed) := by
  intro scheduler block rotated completed
  obtain ⟨id, entry, hentry, hpositive⟩ := hpositive
  have hid : id < corpus.size := Corpus.get?_lt hentry
  have htarget : 0 < scheduler.targetOf corpus maxCoverage id := by
    rw [targetOf_eq _ hentry]
    exact hpositive
  have hstart := rotated_start schedule (scheduler.targetOf corpus maxCoverage)
    (Nat.zero_lt_of_lt hid)
  have hlength : rotated.1.length = turns := length_rotate ..
  have hcycles : rotated.2.cycles = .ofNat completed :=
    (cycles_rotate hstart hid htarget turns).trans (UInt64.zero_add _)
  refine ⟨hlength, ?_, hcycles, ?_⟩
  · intro turn hturn
    obtain ⟨parent, hparent, hselection, -⟩ := select_rotate hstart hid htarget turn
    exact ⟨parent, hparent, (getElem?_rotate hturn).trans (congrArg some hselection)⟩
  · intro hturns
    have hle : completed ≤ turns := hlength ▸ List.countP_le_length
    rw [hcycles, UInt64.toNat_ofNat_of_lt' (Nat.lt_of_le_of_lt hle hturns)]

/-- A generated input whose run hit so many points. -/
def covering (points : Nat) : Input :=
  { Input.ofGenerated (.fresh {} 0) "random" with nonZeroCoverage := some points }

def sampleCorpus : Corpus :=
  (((((∅ : Corpus).insert (covering 0) ∅).1.insert (covering 2) ∅).1).insert (covering 1) ∅).1

theorem rotate_eq_rounds_sample :
    let rotated := Scheduler.rotate { schedule := ⟨2, 1⟩ } sampleCorpus 2 4
    rotated.1[2]? = some (some ⟨2, false⟩) ∧ rotated.1[3]? = some (some ⟨1, true⟩) := by
  have hpositive : ∃ id entry, sampleCorpus.get? id = some entry ∧
      0 < PowerSchedule.targetChildren ⟨2, 1⟩ entry 2 :=
    ⟨2, _, rfl, by decide +kernel⟩
  have hround : round (Scheduler.targetOf { schedule := ⟨2, 1⟩ } sampleCorpus 2) sampleCorpus.size =
    [1, 1, 2] := by decide +kernel
  obtain ⟨-, hselections, -⟩ := rotate_eq_rounds ⟨2, 1⟩ hpositive 4
  rw [hround] at hselections
  constructor
  · obtain ⟨_, hparent, hselection⟩ := hselections 2 (by decide)
    cases hparent
    exact hselection
  · obtain ⟨_, hparent, hselection⟩ := hselections 3 (by decide)
    cases hparent
    exact hselection

end Greybox.Scheduler
