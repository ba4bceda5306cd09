import Greybox.Proofs.Input.Trim
import Greybox.Proofs.Mutation

namespace Greybox

theorem Input.isEmpty_eq_false_iff {input : Input} : input.isEmpty = false ↔ 0 < input.size := by
  rw [isEmpty, Array.isEmpty_eq_false_iff, ← Array.size_pos_iff, size]

theorem Input.inTurn_next_generated {input : Input} {generated : GeneratedInput}
    (h : input.stream = .generated generated) (indices : List Nat) :
    inTurn Input.next input indices =
      let pulled := inTurn GeneratedInput.next generated indices
      (pulled.1, { input with stream := .generated pulled.2 }) := by
  induction indices generalizing input generated with
  | nil => simp only [inTurn, ← h]
  | cons index indices ih =>
    have hnext : input.next index = ((generated.next index).1,
        { input with stream := .generated (generated.next index).2 }) := by
      rw [Input.next, h]
      rfl
    simp only [inTurn, hnext]
    rw [ih rfl]

namespace GeneratedInput

theorem inTurn_next_ofBytes (bytes : Bytes) (limits : Limits) (seed : UInt64) :
    let count := min bytes.size limits.maxInputSize
    let pulled := inTurn next (ofBytes bytes limits seed) (List.range count)
    pulled.1 = (bytes.toList.take count).map .byte ∧
      ((pulled.2.next count).1 = .ended ↔
        limits.maxInputSize ≤ bytes.size ∨ limits.endsWithBuffer = true) := by
  intro count pulled
  have hlength : (bytes.toList.take count).length = count := by
    rw [List.length_take, Array.length_toList, Nat.min_eq_left (Nat.min_le_left _ _)]
  have hpulled := @inTurn_next_of_drop (ofBytes bytes limits seed) (bytes.toList.take count)
    (List.take_prefix _ _) (by rw [hlength, ofBytes, Nat.zero_add]; exact Nat.min_le_right _ _)
  rw [hlength, ofBytes, Nat.zero_add, ← List.range_eq_range'] at hpulled
  have hafter : pulled.2 = ⟨bytes, count, limits, .ofSeed seed⟩ := congrArg Prod.snd hpulled
  refine ⟨congrArg Prod.fst hpulled, ?_⟩
  rw [hafter]
  by_cases hlimit : limits.maxInputSize ≤ bytes.size
  · have hcount : limits.maxInputSize ≤ count := Nat.le_min.2 ⟨hlimit, Nat.le_refl _⟩
    exact iff_of_true (by rw [next, if_pos (.inr hcount)]) (.inl hlimit)
  · have hcount : count = bytes.size := by omega
    have hnone : bytes[count]? = none := Array.getElem?_eq_none (by omega)
    have hallowed : ¬ (count ≠ count ∨ limits.maxInputSize ≤ count) := by omega
    rw [next, if_neg hallowed, hnone]
    cases limits.endsWithBuffer <;> simp [hlimit]

end GeneratedInput

theorem Input.inTurn_next_ofBytes {input : Input} {bytes : Bytes} {limits : Limits} {seed : UInt64}
    (h : input.stream = .generated (.ofBytes bytes limits seed)) :
    let count := min input.size limits.maxInputSize
    let pulled := inTurn Input.next input (List.range count)
    pulled.1 = (input.bytes.toList.take count).map .byte ∧
      ((pulled.2.next count).1 = .ended ↔
        limits.maxInputSize ≤ input.size ∨ limits.endsWithBuffer = true) := by
  have hbytes : input.bytes = bytes := by
    rw [Input.bytes, h]
    rfl
  rw [Input.size, hbytes]
  intro count pulled
  obtain ⟨hanswers, hend⟩ := GeneratedInput.inTurn_next_ofBytes bytes limits seed
  have hpulled := inTurn_next_generated h (List.range count)
  refine ⟨(congrArg Prod.fst hpulled).trans hanswers, ?_⟩
  have hrest : pulled.2 = { input with stream := _ } := congrArg Prod.snd hpulled
  rw [hrest]
  exact hend

namespace Mutation

open Greybox.Random

variable {ρ : Type} [WordSource ρ] {parent other : Input} {bytes rest : Bytes} {offset : Nat}

theorem size_spliceBytes (hoffset : offset ≤ bytes.size) :
    (spliceBytes bytes rest offset).size = max offset rest.size := by
  rw [spliceBytes, Array.size_append, Array.size_extract, Array.size_extract]
  omega

theorem getElem?_spliceBytes (hoffset : offset ≤ bytes.size) (i : Nat) :
    (spliceBytes bytes rest offset)[i]? = if i < offset then bytes[i]? else rest[i]? := by
  have hhead : (bytes.extract 0 offset).size = offset := by rw [Array.size_extract]; omega
  rw [spliceBytes, Array.getElem?_append, hhead]
  split
  · rw [Array.getElem?_extract, if_pos (by omega), Nat.zero_add]
  · rw [Array.getElem?_extract]
    split
    · rw [Nat.add_sub_cancel' (by omega)]
    · exact (Array.getElem?_eq_none (by omega)).symm

/-- The child of two inputs that were cut at a position of the first. -/
structure IsSplice (limits : Limits) (parent other : Input) (offset : Nat) (child : Input) :
    Prop where
  size : child.size = max offset other.size
  head : ∀ i < offset, child.bytes[i]? = parent.bytes[i]?
  tail : ∀ i, offset ≤ i → child.bytes[i]? = other.bytes[i]?
  isEmpty : child.isEmpty = false
  size_le : child.size ≤ max (parent.size - 1) other.size
  descends : child.parent = parent.id
  unsaved : child.id = none
  pulled : let count := min child.size limits.maxInputSize
    let pulled := inTurn Input.next child (List.range count)
    pulled.1 = (child.bytes.toList.take count).map .byte ∧
      ((pulled.2.next count).1 = .ended ↔
        limits.maxInputSize ≤ child.size ∨ limits.endsWithBuffer = true)

theorem isSplice_child (limits : Limits) (hother : other.isEmpty = false)
    (hoffset : offset < parent.size) (description : String) (seed : UInt64) :
    IsSplice limits parent other offset
      (child limits parent (spliceBytes parent.bytes other.bytes offset) description seed) := by
  have hle : offset ≤ parent.bytes.size := Nat.le_of_lt hoffset
  have hsize : (spliceBytes parent.bytes other.bytes offset).size = max offset other.size :=
    size_spliceBytes hle
  have hpositive : 0 < other.size := Input.isEmpty_eq_false_iff.1 hother
  refine ⟨hsize, ?_, ?_, ?_, ?_, rfl, rfl, ?_⟩
  · intro i hi
    exact (getElem?_spliceBytes hle i).trans (if_pos hi)
  · intro i hi
    exact (getElem?_spliceBytes hle i).trans (if_neg (Nat.not_lt.2 hi))
  · exact Input.isEmpty_eq_false_iff.2 (Nat.lt_of_lt_of_eq (by omega) hsize.symm)
  · exact Nat.le_trans (Nat.le_of_eq hsize) (by omega)
  · exact Input.inTurn_next_ofBytes rfl

theorem exists_get?_of_select {corpus : Corpus} (h : corpus.isEmpty = false) (g : ρ) :
    ∃ other id, (corpus.select g).1 = some other ∧ corpus.get? id = some other := by
  have hsize : 0 < corpus.size := by
    rwa [Corpus.isEmpty, Array.isEmpty_eq_false_iff, ← Array.size_pos_iff] at h
  obtain ⟨other, hother⟩ := Corpus.exists_get? (below_lt hsize g)
  refine ⟨other, _, ?_, hother⟩
  rw [Corpus.select, if_neg (by simp [h])]
  exact hother

/-- Two inputs with bytes always have a splice child. It is cut at a position of the parent: before
it stand the bytes of the parent, from there on those of the other input, each where it stood. So
the child has bytes, no more than the longer of the two. It names its parent, is not saved, and
hands out its buffer in order as far as the limits allow before it ends or goes on. The other input
is one of the saved inputs, or the parent itself as long as nothing is saved. -/
theorem splices_at_offset (limits : Limits) (parent : Input) :
    (∀ (other : Input) (g : ρ), parent.isEmpty = false → other.isEmpty = false →
      ∃ offset < parent.size, ∃ child, (spliceWith limits parent other g).1 = .ok child ∧
        IsSplice limits parent other offset child) ∧
    ∀ (corpus : Corpus) (g : ρ), ∃ other later,
      spliceChild limits corpus parent g = spliceWith limits parent other later ∧
        if corpus.isEmpty then other = parent else ∃ id, corpus.get? id = some other := by
  constructor
  · intro other g hparent hother
    have hoffset := below_lt (Input.isEmpty_eq_false_iff.1 hparent) g
    refine ⟨(below parent.size g).1, hoffset, ?_⟩
    rw [spliceWith]
    simp only [hparent, hother, Bool.or_self, Bool.false_eq_true, if_false]
    exact ⟨_, rfl, isSplice_child limits hother hoffset _ _⟩
  · intro corpus g
    refine ⟨(corpus.select g).1.getD parent, (corpus.select g).2, rfl, ?_⟩
    split
    · rw [Corpus.select, if_pos ‹_›]
      rfl
    · obtain ⟨other, id, hselect, hid⟩ := exists_get?_of_select (Bool.eq_false_iff.2 ‹_›) g
      exact ⟨id, by rw [hselect]; exact hid⟩

theorem splices_at_offset_short_donor :
    let limits : Limits := { maxInputSize := 3 }
    let parent : Input :=
      { Input.ofGenerated (.ofBytes #[1, 2, 3, 4, 5, 6] {} 0) "random" with id := some 4 }
    let other : Input := .ofGenerated (.ofBytes #[9, 9] {} 0) "random"
    parent.isEmpty = false ∧ other.isEmpty = false ∧
      ∃ child, (spliceWith limits parent other (ChaCha.ofSeed 14)).1 = .ok child ∧
        child.bytes = #[1, 2, 3, 4] ∧ child.parent = some 4 ∧ child.size ≤ 5 ∧
        (inTurn Input.next child [0, 1, 2]).1 = [.byte 1, .byte 2, .byte 3] := by
  intro limits parent other
  obtain ⟨hsplice, -⟩ := splices_at_offset (ρ := ChaCha) limits parent
  obtain ⟨offset, -, child, hchild, h⟩ := hsplice other (ChaCha.ofSeed 14) rfl rfl
  have hbytes : child.bytes = #[1, 2, 3, 4] := by
    have heval : (spliceWith limits parent other (ChaCha.ofSeed 14)).1.toOption.map Input.bytes =
      some #[1, 2, 3, 4] := by decide +kernel
    rw [hchild] at heval
    exact Option.some.inj heval
  have hpulled := h.pulled.1
  rw [Input.size, hbytes] at hpulled
  exact ⟨rfl, rfl, child, hchild, hbytes, h.descends, h.size_le, hpulled⟩

end Mutation

end Greybox
