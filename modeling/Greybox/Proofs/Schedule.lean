import Greybox.Schedule

namespace Greybox

theorem PowerSchedule.targetChildren_le_baseline (schedule : PowerSchedule) {input : Input}
    {maxCoverage : Nat} (hfavored : input.favored = false)
    (hcount : input.nonZeroCoverage.getD 0 ≤ maxCoverage) :
    schedule.targetChildren input maxCoverage ≤ schedule.baseline := by
  rw [targetChildren]
  simp only [hfavored, Bool.false_eq_true, if_false]
  split
  · rename_i hscaled
    apply Nat.div_le_of_le_mul
    calc mulChildren schedule.baseline (input.nonZeroCoverage.getD 0)
        ≤ schedule.baseline * input.nonZeroCoverage.getD 0 := Nat.min_le_right _ _
      _ ≤ schedule.baseline * maxCoverage := Nat.mul_le_mul_left _ hcount
      _ = maxCoverage * schedule.baseline := Nat.mul_comm _ _
  · exact Nat.le_refl _

namespace Scheduler

variable {scheduler scheduler' : Scheduler} {corpus : Corpus} {target : Nat → Nat}
  {count maxCoverage id : Nat} {entry : Input}

theorem targetOf_eq (scheduler : Scheduler) (hentry : corpus.get? id = some entry) :
    scheduler.targetOf corpus maxCoverage id =
      scheduler.schedule.targetChildren entry maxCoverage := by
  rw [targetOf, hentry]

theorem cursor_advance_lt (scheduler : Scheduler) (h : 0 < count) :
    (scheduler.advance count).1.cursor < count := Nat.mod_lt _ h

theorem cursor_seek_lt (target : Nat → Nat) (completed : Bool) (steps : Nat)
    (h : scheduler.cursor < count) :
    (scheduler.seek target count completed steps).1.cursor < count := by
  induction steps generalizing scheduler completed with
  | zero => exact h
  | succ steps ih =>
    rw [seek]
    split
    · exact h
    · exact ih _ (cursor_advance_lt scheduler (Nat.zero_lt_of_lt h))

/-- The scheduler as a selection finds it: a cursor past the end starts over. -/
def restarted (scheduler : Scheduler) (count : Nat) : Scheduler :=
  { scheduler with cursor := if count ≤ scheduler.cursor then 0 else scheduler.cursor }

theorem cursor_restarted_lt (scheduler : Scheduler) (h : 0 < count) :
    (scheduler.restarted count).cursor < count := by
  simp only [restarted]
  split <;> omega

theorem restarted_of_lt (h : scheduler.cursor < count) : scheduler.restarted count = scheduler := by
  rw [restarted, if_neg (Nat.not_le.2 h)]

theorem selectAmong_eq_seek (scheduler : Scheduler) (target : Nat → Nat) (h : 0 < count) :
    scheduler.selectAmong target count =
      let found := (scheduler.restarted count).seek target count false count
      (some ⟨found.1.cursor, found.2⟩, found.1) := by
  rw [selectAmong, if_neg (Nat.pos_iff_ne_zero.1 h)]
  rfl

/-- Among any inputs one is picked, and it is the one under the cursor. -/
theorem selectAmong_of_pos (scheduler : Scheduler) (target : Nat → Nat) (h : 0 < count) :
    ∃ completed, (scheduler.selectAmong target count).1 =
        some ⟨(scheduler.selectAmong target count).2.cursor, completed⟩ ∧
      (scheduler.selectAmong target count).2.cursor < count := by
  rw [selectAmong_eq_seek scheduler target h]
  exact ⟨_, rfl, cursor_seek_lt target false count (cursor_restarted_lt scheduler h)⟩

theorem select_of_pos (scheduler : Scheduler) (maxCoverage : Nat) (h : 0 < corpus.size) :
    ∃ completed, (scheduler.select corpus maxCoverage).1 =
        some ⟨(scheduler.select corpus maxCoverage).2.cursor, completed⟩ ∧
      (scheduler.select corpus maxCoverage).2.cursor < corpus.size :=
  selectAmong_of_pos scheduler _ h

end Scheduler

end Greybox
