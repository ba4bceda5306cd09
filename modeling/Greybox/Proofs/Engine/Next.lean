import Mathlib.Data.List.Basic
import Greybox.Engine.Next
import Greybox.Proofs.Mutation
import Greybox.Proofs.Schedule

namespace Greybox.Engine

open Mutation (IsChild)

variable {σ ρ : Type} {engine engine' : Engine σ ρ} {input parent : Input}

/-- Nothing changes but the schedule, the random stream and the record of progress. -/
def Schedules (engine engine' : Engine σ ρ) : Prop :=
  ∃ random scheduler favoredLastCycle journal,
    engine' = { engine with random, scheduler, favoredLastCycle, journal }

theorem exists_notes {α : Type} (engine : Engine σ ρ) (events : List α) (event : α → Event) :
    ∃ journal, events.foldl (fun engine e => engine.note (event e)) engine =
      { engine with journal } := by
  induction events generalizing engine with
  | nil => exact ⟨engine.journal, rfl⟩
  | cons e events ih =>
    obtain ⟨journal, h⟩ := ih (engine.note (event e))
    exact ⟨journal, h⟩

theorem exists_reviewFavored (engine : Engine σ ρ) :
    ∃ favoredLastCycle journal, engine.reviewFavored = { engine with favoredLastCycle, journal } := by
  obtain ⟨journal, h⟩ := exists_notes (engine.note (.cycleCompleted engine.scheduler.cycles.toNat))
    engine.favoredInputs (fun input => .responsible (input.id.getD 0) input.responsibilityCount)
  rw [reviewFavored]
  simp only [h]
  exact ⟨_, _, rfl⟩

theorem exists_completeCycleIf (engine : Engine σ ρ) (completed : Bool) :
    ∃ favoredLastCycle journal,
      (engine.completeCycleIf completed).2 = { engine with favoredLastCycle, journal } := by
  rw [completeCycleIf]
  split
  · obtain ⟨favoredLastCycle, journal, h⟩ := exists_reviewFavored engine
    rw [completeCycle]
    simp only [h]
    split
    · exact ⟨_, _, rfl⟩
    · exact ⟨_, _, rfl⟩
  · exact ⟨_, _, rfl⟩

variable [WordSource ρ]

theorem exists_breed (engine : Engine σ ρ) (id : Nat) (parent : Input) :
    ∃ random scheduler journal,
      (engine.breed id parent).2 = { engine with random, scheduler, journal } ∧
      scheduler.cursor = engine.scheduler.cursor := by
  rw [breed]
  split
  · exact ⟨_, _, _, rfl, rfl⟩
  · exact ⟨_, _, _, rfl, rfl⟩

theorem schedules_derive (engine : Engine σ ρ) : engine.Schedules engine.derive.2 := by
  rw [derive]
  split
  · exact ⟨_, _, _, _, rfl⟩
  · rename_i selection scheduler hselect
    obtain ⟨favored, journal, hcycle⟩ :=
      exists_completeCycleIf { engine with scheduler } selection.completedCycle
    split <;> rename_i heq <;> rw [heq] at hcycle <;> obtain rfl := hcycle
    · exact ⟨_, _, _, _, rfl⟩
    · split
      · exact ⟨_, _, _, _, rfl⟩
      · obtain ⟨random, scheduler', journal', hbreed, -⟩ := exists_breed
          { engine with scheduler, favoredLastCycle := favored, journal } selection.parent ‹_›
        exact ⟨random, scheduler', favored, journal', hbreed⟩

theorem schedules_nextInput (engine : Engine σ ρ) :
    { engine with seeds := engine.seeds.tail }.Schedules engine.nextInput.2 := by
  rw [nextInput]
  split <;> rename_i hseeds
  · rw [hseeds]
    exact ⟨_, _, _, _, rfl⟩
  · have htail : { engine with seeds := engine.seeds.tail } = engine := by
      rw [hseeds, List.tail_nil, ← hseeds]
    rw [htail]
    split
    · exact ⟨_, _, _, _, rfl⟩
    · exact schedules_derive engine

structure Ready (engine : Engine σ ρ) : Prop where
  splice : Random.IsProbability engine.settings.spliceProbability
  zeroFill : Random.IsProbability engine.settings.zeroFillProbability
  entries : engine.corpus.Each fun _ entry => entry.isEmpty = false

/-- What an engine hands out, given the engine it leaves behind. -/
inductive HandsOut (engine engine' : Engine σ ρ) : Input → Prop
  | seed {seed : Input} {seeds : List Input} (hseeds : engine.seeds = seed :: seeds) :
      HandsOut engine engine' seed
  | fresh (hseeds : engine.seeds = []) (hcorpus : engine.corpus.size = 0) (seed : UInt64) :
      HandsOut engine engine' (.fresh engine.settings.limits seed)
  | child {parent input : Input} (hseeds : engine.seeds = [])
      (hparent : engine.corpus.get? engine'.scheduler.cursor = some parent)
      (hchild : IsChild engine.settings.limits parent input) : HandsOut engine engine' input

/-- The favored inputs own as many points as are covered. -/
def Balanced (engine : Engine σ ρ) : Prop :=
  engine.favoredResponsibility = engine.totalCoverage.nonZeroCount

omit [WordSource ρ] in
theorem favoredResponsibility_eq
    (h : engine.corpus.Each fun _ entry => ∀ p, entry.Owns p → entry.favored = true) :
    engine.favoredResponsibility = engine.corpus.responsibilitySum := by
  have hzero : ∀ entry ∈ engine.corpus.entries.toList, entry.favored = false →
      entry.responsibilityCount = 0 := by
    intro entry hmem hfavored
    obtain ⟨id, hid⟩ := List.mem_iff_getElem?.1 hmem
    rw [← Input.length_points, List.length_eq_zero_iff, List.eq_nil_iff_forall_not_mem]
    intro p hp
    have htrue := h id entry (Array.getElem?_toList.symm.trans hid) p (Input.mem_points.1 hp)
    exact Bool.false_ne_true (hfavored.symm.trans htrue)
  rw [Corpus.responsibilitySum_eq, favoredResponsibility, favoredInputs, List.foldl_filter]
  -- An entry that the favored count leaves out adds nothing to the full count.
  apply List.foldl_ext
  intro sum entry hmem
  cases hfavored : entry.favored with
  | true => rfl
  | false => simp [hzero entry hmem hfavored]

def HandsOutOrComplains (engine : Engine σ ρ) (result : Result σ ρ Input) : Prop :=
  (∃ input, result.1 = .ok input ∧ engine.HandsOut result.2 input) ∨
    ¬ engine.Balanced ∧ ∃ owned covered, result.1 = .error (.responsibilityMismatch owned covered)

omit [WordSource ρ] in
theorem completeCycleIf_result (engine : Engine σ ρ) (completed : Bool) :
    (engine.completeCycleIf completed).1 = .ok () ∨
      ¬ engine.Balanced ∧ ∃ owned covered,
        (engine.completeCycleIf completed).1 = .error (.responsibilityMismatch owned covered) := by
  rw [completeCycleIf]
  split
  · unfold completeCycle
    extract_lets owned covered reviewed
    clear_value reviewed
    split <;> rename_i hbalance
    · exact .inl rfl
    · dsimp only
      split
      · exact .inl rfl
      · exact .inr ⟨hbalance, owned, covered, rfl⟩
  · exact .inl rfl

theorem exists_mutate (hready : engine.Ready) (hparent : parent.isEmpty = false) :
    ∃ input, (engine.mutate parent).1 = .ok input ∧
      IsChild engine.settings.limits parent input := by
  obtain ⟨⟨spliced, random⟩, hchance⟩ := Random.exists_chance hready.splice engine.random
  have hzero : Random.IsProbability engine.settings.havoc.zeroFill := hready.zeroFill
  rw [mutate]
  rw [hchance]
  cases spliced with
  | true => exact Mutation.exists_spliceChild _ hready.entries hparent random
  | false => exact Mutation.exists_havocChild _ hzero hparent random

theorem breed_handsOut (hready : engine.Ready) (hseeds : engine.seeds = [])
    (hparent : engine.corpus.get? engine.scheduler.cursor = some parent) :
    ∃ input, (engine.breed engine.scheduler.cursor parent).1 = .ok input ∧
      engine.HandsOut (engine.breed engine.scheduler.cursor parent).2 input := by
  obtain ⟨input, hmutate, hchild⟩ := exists_mutate hready (hready.entries _ parent hparent)
  obtain ⟨random, scheduler, journal, hleft, hcursor⟩ :=
    exists_breed engine engine.scheduler.cursor parent
  refine ⟨input, ?_, .child hseeds ?_ hchild⟩
  · rw [breed]
    split <;> rename_i heq <;> rw [heq] at hmutate <;> cases hmutate
    rfl
  · rwa [hleft, hcursor]

theorem derive_result (hready : engine.Ready) (hseeds : engine.seeds = [])
    (hcorpus : 0 < engine.corpus.size) : engine.HandsOutOrComplains engine.derive := by
  obtain ⟨completed, hselect, hcursor⟩ :=
    Scheduler.select_of_pos engine.scheduler engine.maxCoverage hcorpus
  rw [derive]
  split <;> rename_i heq <;> rw [heq] at hselect hcursor <;> dsimp only at hselect hcursor <;>
    cases hselect
  rename_i scheduler
  obtain ⟨favored, journal, hcycle⟩ := exists_completeCycleIf { engine with scheduler } completed
  have hresult := completeCycleIf_result { engine with scheduler } completed
  split <;> rename_i hcase <;> rw [hcase] at hcycle hresult <;> obtain rfl := hcycle
  · rcases hresult with hok | ⟨hbalance, owned, covered, herror⟩
    · cases hok
    · cases herror
      exact .inr ⟨hbalance, owned, covered, rfl⟩
  · obtain ⟨parent, hparent⟩ := Corpus.exists_get? hcursor
    let cycled : Engine σ ρ := { engine with scheduler, favoredLastCycle := favored, journal }
    have hcycled : cycled.Ready := ⟨hready.splice, hready.zeroFill, hready.entries⟩
    obtain ⟨input, hbreed, hhands⟩ := breed_handsOut hcycled hseeds hparent
    simp only [hparent]
    refine .inl ⟨input, hbreed, ?_⟩
    -- Ending a cycle leaves the queue, the settings and the corpus alone.
    cases hhands with
    | seed hqueue => exact .seed hqueue
    | fresh _ hnone seed => exact .fresh hseeds hnone seed
    | child _ hfound hchild => exact .child hseeds hfound hchild

theorem nextInput_result (hready : engine.Ready) :
    engine.HandsOutOrComplains engine.nextInput := by
  rw [nextInput]
  split <;> rename_i hseeds
  · exact .inl ⟨_, rfl, .seed hseeds⟩
  · split <;> rename_i hcorpus
    · exact .inl ⟨_, rfl, .fresh hseeds (Array.isEmpty_iff_size_eq_zero.1 hcorpus) _⟩
    · have hpos : 0 < engine.corpus.size :=
        Nat.pos_of_ne_zero fun h => hcorpus (Array.isEmpty_iff_size_eq_zero.2 h)
      exact derive_result hready hseeds hpos

theorem nextInput_handsOut (hready : engine.Ready) (hbalance : engine.Balanced) :
    ∃ input, engine.nextInput.1 = .ok input ∧ engine.HandsOut engine.nextInput.2 input := by
  rcases nextInput_result hready with hok | ⟨himbalance, -⟩
  · exact hok
  · exact absurd hbalance himbalance

end Greybox.Engine
