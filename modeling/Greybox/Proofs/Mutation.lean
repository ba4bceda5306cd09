import Greybox.Mutation.Child
import Greybox.Proofs.Corpus

namespace Greybox

variable {ρ : Type} [WordSource ρ]

theorem Random.exists_chance {p : Float} (h : IsProbability p) (g : ρ) :
    ∃ answer, chance p g = some answer := by
  rw [chance]
  rw [if_pos h]
  split
  · exact ⟨_, rfl⟩
  · exact ⟨_, rfl⟩

namespace Havoc

open Greybox.Random

theorem size_overwrite (zeroes : Bool) (bytes : Bytes) (offset : Nat) (g : ρ) (count : Nat) :
    (overwrite zeroes bytes offset g count).1.size = bytes.size := by
  induction count generalizing bytes offset g with
  | zero => rfl
  | succ count ih =>
    rw [overwrite]
    split <;> rw [ih, Array.size_setIfInBounds]

theorem size_mutation (havoc : Havoc) (zeroes : Bool) (bytes : Bytes) (g : ρ) :
    (havoc.mutation zeroes bytes g).1.size = bytes.size := size_overwrite ..

theorem size_mutations (havoc : Havoc) (zeroes : Bool) (bytes : Bytes) (g : ρ) (count : Nat) :
    (havoc.mutations zeroes bytes g count).1.size = bytes.size := by
  induction count generalizing bytes g with
  | zero => rfl
  | succ count ih =>
    rw [mutations]
    rw [ih, size_mutation]

theorem exists_apply {havoc : Havoc} {bytes : Bytes} (hzero : IsProbability havoc.zeroFill)
    (hbytes : bytes.isEmpty = false) (g : ρ) :
    ∃ mutated count, (havoc.apply bytes g).1 = .ok (mutated, count) ∧ mutated.size = bytes.size := by
  obtain ⟨⟨zeroes, later⟩, hchance⟩ :=
    exists_chance hzero (Mutation.geometric havoc.meanCount bytes.size g).2
  rw [apply]
  simp only [hbytes, Bool.false_eq_true, if_false, hchance]
  exact ⟨_, _, rfl, size_mutations ..⟩

end Havoc

namespace Mutation

open Greybox.Random

def IsChild (limits : Limits) (parent input : Input) : Prop :=
  ∃ bytes description seed, input = child limits parent bytes description seed ∧
    bytes.isEmpty = false

variable {limits : Limits} {corpus : Corpus} {parent other : Input}

theorem exists_havocChild {havoc : Havoc} (limits : Limits) (hzero : IsProbability havoc.zeroFill)
    (hparent : parent.isEmpty = false) (g : ρ) :
    ∃ input, (havocChild havoc limits parent g).1 = .ok input ∧ IsChild limits parent input := by
  obtain ⟨mutated, count, happly, hsize⟩ := Havoc.exists_apply hzero hparent g
  have hmutated : mutated.isEmpty = false := by
    rw [Input.isEmpty, Array.isEmpty_eq_false_iff, ← Array.size_pos_iff] at hparent
    rwa [Array.isEmpty_eq_false_iff, ← Array.size_pos_iff, hsize]
  rw [havocChild]
  split <;> rename_i heq <;> rw [heq] at happly <;> cases happly
  exact ⟨_, rfl, mutated, _, _, rfl, hmutated⟩

theorem spliceBytes_isEmpty {bytes rest : Bytes} (offset : Nat) (hbytes : bytes.isEmpty = false)
    (hrest : rest.isEmpty = false) : (spliceBytes bytes rest offset).isEmpty = false := by
  rw [Array.isEmpty_eq_false_iff, ← Array.size_pos_iff] at hbytes hrest ⊢
  simp only [spliceBytes, Array.size_append, Array.size_extract]
  omega

theorem exists_spliceWith (limits : Limits) (hparent : parent.isEmpty = false)
    (hother : other.isEmpty = false) (g : ρ) :
    ∃ input, (spliceWith limits parent other g).1 = .ok input ∧ IsChild limits parent input := by
  rw [spliceWith]
  simp only [hparent, hother, Bool.or_self, Bool.false_eq_true, if_false]
  exact ⟨_, rfl, _, _, _, rfl, spliceBytes_isEmpty _ hparent hother⟩

theorem exists_spliceChild (limits : Limits) (hcorpus : corpus.Each fun _ entry => entry.isEmpty = false)
    (hparent : parent.isEmpty = false) (g : ρ) :
    ∃ input, (spliceChild limits corpus parent g).1 = .ok input ∧ IsChild limits parent input := by
  have hother : ((corpus.select g).1.getD parent).isEmpty = false := by
    cases hselect : (corpus.select g).1 with
    | none => exact hparent
    | some other =>
      obtain ⟨id, hid⟩ := Corpus.exists_of_select hselect
      exact hcorpus id other hid
  exact exists_spliceWith limits hparent hother _

end Mutation

end Greybox
