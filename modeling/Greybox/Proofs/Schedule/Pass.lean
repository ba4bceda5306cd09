import Greybox.Proofs.Schedule

namespace Greybox.Scheduler

variable {scheduler found : Scheduler} {target : Nat → Nat} {count moves id : Nat}

theorem cycles_advance (h : scheduler.cursor < count) :
    (scheduler.advance count).1.cycles =
      scheduler.cycles + .ofNat ((scheduler.cursor + 1) / count) := by
  simp only [advance]
  by_cases hlast : scheduler.cursor + 1 = count
  · rw [hlast, Nat.mod_self, if_pos rfl, Nat.div_self (Nat.zero_lt_of_lt h)]
    rfl
  · have hlt : scheduler.cursor + 1 < count := Nat.lt_of_le_of_ne h hlast
    rw [Nat.mod_eq_of_lt hlt, if_neg (Nat.succ_ne_zero _), Nat.div_eq_of_lt hlt]
    exact (UInt64.add_zero _).symm

theorem wrapped_advance (h : scheduler.cursor < count) :
    (scheduler.advance count).2 = decide (count ≤ scheduler.cursor + 1) := by
  simp only [advance]
  rw [decide_eq_decide]
  by_cases hlast : scheduler.cursor + 1 = count
  · rw [hlast, Nat.mod_self]
    exact iff_of_true rfl (Nat.le_refl _)
  · rw [Nat.mod_eq_of_lt (Nat.lt_of_le_of_ne h hlast)]
    omega

theorem past_end_advance (h : scheduler.cursor < count) (moves : Nat) :
    count ≤ scheduler.cursor + 1 ∨ count ≤ (scheduler.advance count).1.cursor + moves ↔
      count ≤ scheduler.cursor + (moves + 1) := by
  simp only [advance]
  by_cases hlast : scheduler.cursor + 1 = count
  · omega
  · rw [Nat.mod_eq_of_lt (Nat.lt_of_le_of_ne h hlast)]
    omega

/-- The children that count for the input under the cursor after so many moves. -/
def childrenAfter (scheduler : Scheduler) (moves : Nat) : Nat :=
  if moves = 0 then scheduler.children else 0

theorem childrenAfter_advance (scheduler : Scheduler) (count moves : Nat) :
    (scheduler.advance count).1.childrenAfter moves = 0 := by
  simp [childrenAfter, advance]

/-- The cursor made so many moves, each from an input that had all its children. -/
structure Moved (target : Nat → Nat) (count moves : Nat) (scheduler found : Scheduler) : Prop where
  cursor : found.cursor = (scheduler.cursor + moves) % count
  cycles : found.cycles = scheduler.cycles + .ofNat ((scheduler.cursor + moves) / count)
  children : found.children = scheduler.childrenAfter moves
  full : ∀ move < moves,
    target ((scheduler.cursor + move) % count) ≤ scheduler.childrenAfter move

theorem Moved.refl (h : scheduler.cursor < count) : Moved target count 0 scheduler scheduler := by
  refine ⟨(Nat.mod_eq_of_lt h).symm, ?_, rfl, fun _ hmove => absurd hmove (Nat.not_lt_zero _)⟩
  rw [Nat.add_zero, Nat.div_eq_of_lt h]
  exact (UInt64.add_zero _).symm

theorem Moved.of_advance (h : Moved target count moves (scheduler.advance count).1 found)
    (hcursor : scheduler.cursor < count) (hfull : target scheduler.cursor ≤ scheduler.children) :
    Moved target count (moves + 1) scheduler found := by
  have hcount : 0 < count := Nat.zero_lt_of_lt hcursor
  have hmoves : scheduler.cursor + (moves + 1) = scheduler.cursor + 1 + moves := by omega
  have hnext : (scheduler.advance count).1.cursor = (scheduler.cursor + 1) % count := rfl
  refine ⟨?_, ?_, ?_, ?_⟩
  · rw [h.cursor, hnext, Nat.mod_add_mod, hmoves]
  · have hlaps : (scheduler.cursor + 1 + moves) / count =
        (scheduler.cursor + 1) / count + ((scheduler.cursor + 1) % count + moves) / count := by
      rw [← Nat.mul_add_div hcount, ← Nat.add_assoc, Nat.div_add_mod]
    rw [h.cycles, cycles_advance hcursor, hnext, hmoves, hlaps, UInt64.ofNat_add, UInt64.add_assoc]
  · exact h.children.trans (childrenAfter_advance scheduler count moves)
  · intro move hmove
    cases move with
    | zero => rwa [Nat.add_zero, Nat.mod_eq_of_lt hcursor]
    | succ move =>
      have hlater := h.full move (Nat.lt_of_succ_lt_succ hmove)
      rw [childrenAfter_advance, hnext] at hlater
      rwa [Nat.mod_add_mod, Nat.add_assoc, Nat.add_comm 1] at hlater

theorem Moved.comes_round (h : Moved target count count scheduler found)
    (hcursor : scheduler.cursor < count) :
    found.cursor = scheduler.cursor ∧ found.children = 0 := by
  constructor
  · rw [h.cursor, Nat.add_mod_right, Nat.mod_eq_of_lt hcursor]
  · exact h.children.trans (if_neg (Nat.ne_zero_of_lt hcursor))

theorem seek_succ (scheduler : Scheduler) (target : Nat → Nat) (count : Nat) (completed : Bool)
    (steps : Nat) : scheduler.seek target count completed (steps + 1) =
      if scheduler.children < target scheduler.cursor then (scheduler, completed)
      else (scheduler.advance count).1.seek target count
        (completed || (scheduler.advance count).2) steps := rfl

theorem schedule_seek (scheduler : Scheduler) (target : Nat → Nat) (count : Nat) (completed : Bool)
    (steps : Nat) : (scheduler.seek target count completed steps).1.schedule = scheduler.schedule := by
  induction steps generalizing scheduler completed with
  | zero => rfl
  | succ steps ih =>
    rw [seek_succ]
    split
    · rfl
    · exact ih _ _

/-- A pass ends at an input that is short of its target, or has used up its moves. It tells whether
the cursor came past the end. -/
theorem exists_moved_seek (target : Nat → Nat) (completed : Bool) (steps : Nat)
    (h : scheduler.cursor < count) :
    let found := scheduler.seek target count completed steps
    ∃ moves ≤ steps, Moved target count moves scheduler found.1 ∧
      found.2 = (completed || decide (count ≤ scheduler.cursor + moves)) ∧
      (moves = steps ∨ found.1.children < target found.1.cursor) := by
  have hnone : decide (count ≤ scheduler.cursor + 0) = false := decide_eq_false (Nat.not_le.2 h)
  induction steps generalizing scheduler completed with
  | zero => exact ⟨0, Nat.le_refl _, .refl h, by rw [hnone, Bool.or_false, seek], .inl rfl⟩
  | succ steps ih =>
    rw [seek_succ]
    split <;> rename_i hfull
    · exact ⟨0, Nat.zero_le _, .refl h, by rw [hnone, Bool.or_false], .inr hfull⟩
    · have hcursor := cursor_advance_lt scheduler (Nat.zero_lt_of_lt h)
      obtain ⟨moves, hmoves, hmoved, hflag, hend⟩ := ih (completed || (scheduler.advance count).2)
        hcursor (decide_eq_false (Nat.not_le.2 hcursor))
      refine ⟨moves + 1, Nat.succ_le_succ hmoves, hmoved.of_advance h (Nat.not_lt.1 hfull), ?_,
        hend.imp_left (congrArg (· + 1))⟩
      rw [hflag, wrapped_advance h, Bool.or_assoc, ← Bool.decide_or]
      congr 2
      exact propext (past_end_advance h moves)

theorem exists_move_to (hcursor : scheduler.cursor < count) (hid : id < count) :
    ∃ move < count, (scheduler.cursor + move) % count = id := by
  by_cases hahead : scheduler.cursor ≤ id
  · refine ⟨id - scheduler.cursor, by omega, ?_⟩
    rw [Nat.add_sub_cancel' hahead, Nat.mod_eq_of_lt hid]
  · have hround : scheduler.cursor + (id + count - scheduler.cursor) = id + count := by omega
    refine ⟨id + count - scheduler.cursor, by omega, ?_⟩
    rw [hround, Nat.add_mod_right, Nat.mod_eq_of_lt hid]

theorem lt_target_seek_full (completed : Bool) (hcursor : scheduler.cursor < count)
    (hid : id < count) (hpositive : 0 < target id) :
    let found := (scheduler.seek target count completed count).1
    found.children < target found.cursor := by
  intro found
  obtain ⟨moves, -, hmoved, -, rfl | hshort⟩ := exists_moved_seek target completed count hcursor
  · obtain ⟨hback, hnone⟩ := hmoved.comes_round hcursor
    obtain ⟨move, hmove, hvisited⟩ := exists_move_to hcursor hid
    have hfull := hmoved.full move hmove
    rw [hvisited] at hfull
    -- Only the first input can have had the children of a positive target, and the pass is back at it.
    cases move with
    | zero =>
      rw [Nat.add_zero, Nat.mod_eq_of_lt hcursor] at hvisited
      rwa [hnone, hback, hvisited]
    | succ move => exact absurd hpositive (Nat.not_lt.2 hfull)
  · exact hshort

end Greybox.Scheduler
