import Mathlib.Algebra.Order.BigOperators.Group.Finset
import Mathlib.Order.Interval.Finset.Nat
import Greybox.Proofs.Input.Requests
import Greybox.Proofs.Mutation

namespace Greybox

/-- One mutation as it was drawn: its start, the length of its span, and the bytes it writes. The
values end where the span is clipped. -/
structure Patch where
  offset : Nat
  span : Nat
  values : List UInt8
  deriving DecidableEq

namespace Patch

/-- The positions of a string of the given size that the span reaches. -/
def window (patch : Patch) (size : Nat) : Finset Nat :=
  Finset.Ico patch.offset (min (patch.offset + patch.span) size)

theorem mem_window {patch : Patch} {size i : Nat} :
    i ∈ patch.window size ↔ patch.offset ≤ i ∧ i < min (patch.offset + patch.span) size :=
  Finset.mem_Ico

theorem card_window_le (patch : Patch) (size : Nat) : (patch.window size).card ≤ patch.span := by
  rw [window, Nat.card_Ico]
  omega

structure Fits (size : Nat) (patch : Patch) : Prop where
  offset : patch.offset < size
  values : patch.offset + patch.values.length = min (patch.offset + patch.span) size

def paste (bytes : Bytes) (offset : Nat) : List UInt8 → Bytes
  | [] => bytes
  | value :: values => paste (bytes.setIfInBounds offset value) (offset + 1) values

def write (bytes : Bytes) (patch : Patch) : Bytes := paste bytes patch.offset patch.values

@[simp] theorem size_paste (bytes : Bytes) (offset : Nat) (values : List UInt8) :
    (paste bytes offset values).size = bytes.size := by
  induction values generalizing bytes offset with
  | nil => rfl
  | cons value values ih => rw [paste, ih, Array.size_setIfInBounds]

theorem getElem?_paste {bytes : Bytes} {offset : Nat} {values : List UInt8}
    (hroom : offset + values.length ≤ bytes.size) (i : Nat) :
    (paste bytes offset values)[i]? =
      if offset ≤ i ∧ i < offset + values.length then values[i - offset]? else bytes[i]? := by
  induction values generalizing bytes offset with
  | nil =>
    rw [if_neg (by simp)]
    rfl
  | cons value values ih =>
    rw [List.length_cons] at hroom
    rw [paste, ih (by rw [Array.size_setIfInBounds]; omega), List.length_cons]
    by_cases hfirst : i = offset
    · subst hfirst
      rw [if_neg (by omega), if_pos (by omega), Array.getElem?_setIfInBounds_self_of_lt (by omega),
        Nat.sub_self, List.getElem?_cons_zero]
    · rw [Array.getElem?_setIfInBounds_ne (Ne.symm hfirst)]
      by_cases hlater : offset + 1 ≤ i ∧ i < offset + 1 + values.length
      · obtain ⟨next, rfl⟩ : ∃ next, i = offset + 1 + next := ⟨i - (offset + 1), by omega⟩
        rw [if_pos hlater, if_pos (by omega), Nat.add_sub_cancel_left, Nat.add_assoc,
          Nat.add_sub_cancel_left, Nat.add_comm 1, List.getElem?_cons_succ]
      · rw [if_neg hlater, if_neg (by omega)]

variable {bytes : Bytes} {patch : Patch} {patches before after : List Patch} {i : Nat}

@[simp] theorem size_write (bytes : Bytes) (patch : Patch) :
    (write bytes patch).size = bytes.size := size_paste ..

theorem getElem?_write_of_mem (h : patch.Fits bytes.size) (hi : i ∈ patch.window bytes.size) :
    (write bytes patch)[i]? = patch.values[i - patch.offset]? := by
  have hvalues := h.values
  rw [mem_window] at hi
  rw [write, getElem?_paste (by omega), if_pos (by omega)]

theorem getElem?_write_of_notMem (h : patch.Fits bytes.size) (hi : i ∉ patch.window bytes.size) :
    (write bytes patch)[i]? = bytes[i]? := by
  have hvalues := h.values
  rw [mem_window] at hi
  rw [write, getElem?_paste (by omega), if_neg (by omega)]

theorem size_foldl_write (patches : List Patch) (bytes : Bytes) :
    (patches.foldl write bytes).size = bytes.size := by
  induction patches generalizing bytes with
  | nil => rfl
  | cons patch patches ih => rw [List.foldl_cons, ih, size_write]

theorem getElem?_foldl_write_of_notMem (hfits : ∀ patch ∈ patches, patch.Fits bytes.size)
    (hi : ∀ patch ∈ patches, i ∉ patch.window bytes.size) :
    (patches.foldl write bytes)[i]? = bytes[i]? := by
  induction patches generalizing bytes with
  | nil => rfl
  | cons patch patches ih =>
    rw [← size_write bytes patch, List.forall_mem_cons] at hfits hi
    rw [List.foldl_cons, ih hfits.2 hi.2]
    rw [size_write] at hfits hi
    exact getElem?_write_of_notMem hfits.1 hi.1

/-- A position inside a window holds what the last patch there wrote. -/
theorem getElem?_foldl_write_of_mem
    (hfits : ∀ other ∈ before ++ patch :: after, other.Fits bytes.size)
    (hi : i ∈ patch.window bytes.size) (hlast : ∀ later ∈ after, i ∉ later.window bytes.size) :
    ((before ++ patch :: after).foldl write bytes)[i]? = patch.values[i - patch.offset]? := by
  have hsize : (before.foldl write bytes).size = bytes.size := size_foldl_write before bytes
  rw [List.forall_mem_append, List.forall_mem_cons, ← hsize] at hfits
  rw [List.foldl_append, List.foldl_cons]
  rw [← hsize] at hi hlast
  rw [getElem?_foldl_write_of_notMem (by rw [size_write]; exact hfits.2.2)
    (by rw [size_write]; exact hlast)]
  exact getElem?_write_of_mem hfits.2.1 hi

theorem getElem?_values (h : patch.Fits bytes.size) (hi : i ∈ patch.window bytes.size) :
    ∃ value ∈ patch.values, patch.values[i - patch.offset]? = some value := by
  have hvalues := h.values
  rw [mem_window] at hi
  have hlt : i - patch.offset < patch.values.length := by omega
  exact ⟨_, List.getElem_mem hlt, List.getElem?_eq_getElem hlt⟩

theorem exists_last_mem (h : ∃ patch ∈ patches, i ∈ patch.window bytes.size) :
    ∃ before patch after, patches = before ++ patch :: after ∧ i ∈ patch.window bytes.size ∧
      ∀ later ∈ after, i ∉ later.window bytes.size := by
  induction patches with
  | nil => simp at h
  | cons first patches ih =>
    by_cases hlater : ∃ patch ∈ patches, i ∈ patch.window bytes.size
    · obtain ⟨before, patch, after, rfl, hi, hlast⟩ := ih hlater
      exact ⟨first :: before, patch, after, rfl, hi, hlast⟩
    · obtain ⟨patch, hpatch, hi⟩ := h
      obtain rfl | hmem := List.mem_cons.1 hpatch
      · refine ⟨[], patch, patches, rfl, hi, ?_⟩
        intro later hmem hi
        exact hlater ⟨later, hmem, hi⟩
      · exact absurd ⟨patch, hmem, hi⟩ hlater

def changed (bytes child : Bytes) : Finset Nat :=
  (Finset.range bytes.size).filter fun i => child[i]? ≠ bytes[i]?

theorem changed_foldl_write_subset (hfits : ∀ patch ∈ patches, patch.Fits bytes.size) :
    changed bytes (patches.foldl write bytes) ⊆
      patches.toFinset.biUnion fun patch => patch.window bytes.size := by
  intro i hi
  obtain ⟨-, hchanged⟩ := Finset.mem_filter.1 hi
  rw [Finset.mem_biUnion]
  by_contra hnone
  apply hchanged
  apply getElem?_foldl_write_of_notMem hfits
  intro patch hpatch hi
  exact hnone ⟨patch, List.mem_toFinset.2 hpatch, hi⟩

theorem card_changed_le (hfits : ∀ patch ∈ patches, patch.Fits bytes.size) {span : Nat}
    (hspan : ∀ patch ∈ patches, patch.span = span) :
    (changed bytes (patches.foldl write bytes)).card ≤ patches.length * span := by
  have hwindows : ∀ patch ∈ patches.toFinset, (patch.window bytes.size).card ≤ span := by
    intro patch hpatch
    rw [← hspan patch (List.mem_toFinset.1 hpatch)]
    exact patch.card_window_le bytes.size
  calc (changed bytes (patches.foldl write bytes)).card
      ≤ (patches.toFinset.biUnion fun patch => patch.window bytes.size).card :=
        Finset.card_le_card (changed_foldl_write_subset hfits)
    _ ≤ patches.toFinset.card * span := Finset.card_biUnion_le_card_mul _ _ _ hwindows
    _ ≤ patches.length * span := Nat.mul_le_mul_right _ patches.toFinset_card_le

end Patch

namespace Havoc

open Greybox.Random Mutation

variable {ρ : Type} [WordSource ρ] {havoc : Havoc} {zeroes : Bool} {bytes : Bytes} {size : Nat}

def fill (zeroes : Bool) (g : ρ) : (count : Nat) → List UInt8 × ρ
  | 0 => ([], g)
  | count + 1 =>
    let (value, g) := if zeroes then (0, g) else byte g
    let (values, g) := fill zeroes g count
    (value :: values, g)

/-- What one mutation of a string of the given size draws. -/
def draw (havoc : Havoc) (zeroes : Bool) (size : Nat) (g : ρ) : Patch × ρ :=
  let (offset, g) := below size g
  let (span, g) := havoc.span size g
  let (values, g) := fill zeroes g (min (offset + span) size - offset)
  (⟨offset, span, values⟩, g)

def patches (havoc : Havoc) (zeroes : Bool) (size count : Nat) (g : ρ) : List Patch × ρ :=
  inTurn (fun g () => havoc.draw zeroes size g) g (List.replicate count ())

theorem length_fill (zeroes : Bool) (g : ρ) (count : Nat) :
    (fill zeroes g count).1.length = count := by
  induction count generalizing g with
  | zero => rfl
  | succ count ih => exact congrArg (· + 1) (ih _)

theorem eq_zero_of_mem_fill (g : ρ) (count : Nat) : ∀ value ∈ (fill true g count).1, value = 0 := by
  induction count generalizing g with
  | zero => exact fun _ hvalue => absurd hvalue List.not_mem_nil
  | succ count ih =>
    intro value hvalue
    obtain rfl | hvalue := List.mem_cons.1 hvalue
    · rfl
    · exact ih g value hvalue

theorem fits_draw (havoc : Havoc) (zeroes : Bool) (hsize : 0 < size) (g : ρ) :
    (havoc.draw zeroes size g).1.Fits size := by
  have hoffset := below_lt hsize g
  refine ⟨hoffset, ?_⟩
  simp only [draw, length_fill]
  omega

theorem forall_patches {P : Patch → Prop} (h : ∀ g : ρ, P (havoc.draw zeroes size g).1)
    (count : Nat) (g : ρ) : ∀ patch ∈ (havoc.patches zeroes size count g).1, P patch := by
  apply inTurn_induction (P := fun (patches : List Patch) (_ : ρ) => ∀ patch ∈ patches, P patch)
  · intro patches g _ hpatches
    rw [List.forall_mem_append]
    exact ⟨hpatches, fun patch hpatch => List.mem_singleton.1 hpatch ▸ h g⟩
  · exact fun _ hpatch => absurd hpatch List.not_mem_nil

theorem overwrite_eq_paste (zeroes : Bool) (bytes : Bytes) (offset : Nat) (g : ρ) (count : Nat) :
    overwrite zeroes bytes offset g count =
      (Patch.paste bytes offset (fill zeroes g count).1, (fill zeroes g count).2) := by
  induction count generalizing bytes offset g with
  | zero => rfl
  | succ count ih =>
    rw [overwrite]
    cases zeroes with
    | true => exact ih _ _ _
    | false => exact ih _ _ _

theorem mutation_eq_write (havoc : Havoc) (zeroes : Bool) (bytes : Bytes) (g : ρ) :
    havoc.mutation zeroes bytes g =
      (Patch.write bytes (havoc.draw zeroes bytes.size g).1,
        (havoc.draw zeroes bytes.size g).2) := by
  rw [mutation]
  exact overwrite_eq_paste _ _ _ _ _

theorem mutations_eq_foldl_write (havoc : Havoc) (zeroes : Bool) (bytes : Bytes) (g : ρ)
    (count : Nat) : havoc.mutations zeroes bytes g count =
      ((havoc.patches zeroes bytes.size count g).1.foldl Patch.write bytes,
        (havoc.patches zeroes bytes.size count g).2) := by
  induction count generalizing bytes g with
  | zero => rfl
  | succ count ih =>
    -- Writing a patch keeps the size, so that the rest is drawn as before.
    have hsize := Patch.size_write bytes (havoc.draw zeroes bytes.size g).1
    rw [mutations, mutation_eq_write]
    simp only [ih, hsize]
    rfl

/-- A batch on a string with bytes always succeeds. It draws its number of mutations, then whether
it fills with zeroes, and then its patches, which all start in the string. The child is as long as
the string and differs from it in the windows of the patches only. In a window the child holds zero
if the batch fills with zeroes, and otherwise the random byte that was drawn last for the position.
With a constant size every span has that length, so that no more positions change than the spans are
long, and a single mutation changes positions of one window only. -/
theorem apply_overwrites (hzero : IsProbability havoc.zeroFill) (hbytes : bytes.isEmpty = false)
    (g : ρ) :
    let count := (geometric havoc.meanCount bytes.size g).1
    let drawn := (geometric havoc.meanCount bytes.size g).2
    ∃ zeroes later, chance havoc.zeroFill drawn = some (zeroes, later) ∧
      let patches := (havoc.patches zeroes bytes.size count later).1
      ∃ child, (havoc.apply bytes g).1 = .ok (child, count) ∧ child.size = bytes.size ∧
        patches.length = count ∧ (∀ patch ∈ patches, patch.offset < bytes.size) ∧
        (∀ i, (∀ patch ∈ patches, i ∉ patch.window bytes.size) → child[i]? = bytes[i]?) ∧
        (zeroes = true → ∀ patch ∈ patches, ∀ i ∈ patch.window bytes.size, child[i]? = some 0) ∧
        (∀ before patch after, patches = before ++ patch :: after →
          ∀ i ∈ patch.window bytes.size, (∀ other ∈ after, i ∉ other.window bytes.size) →
            ∃ value, patch.values[i - patch.offset]? = some value ∧ child[i]? = some value) ∧
        (havoc.constantSize = true →
          let length := max 1 havoc.meanSize.toUInt64.toNat
          (∀ patch ∈ patches, patch.span = length) ∧
            (Patch.changed bytes child).card ≤ count * length) ∧
        (count = 1 → ∃ patch, patches = [patch] ∧
          Patch.changed bytes child ⊆ patch.window bytes.size) := by
  intro count drawn
  obtain ⟨⟨zeroes, later⟩, hchance⟩ :=
    exists_chance hzero (geometric havoc.meanCount bytes.size g).2
  refine ⟨zeroes, later, hchance, ?_⟩
  intro patches
  have hsize : 0 < bytes.size := by
    rwa [Array.isEmpty_eq_false_iff, ← Array.size_pos_iff] at hbytes
  have hfits : ∀ patch ∈ patches, patch.Fits bytes.size :=
    forall_patches (fun g => fits_draw havoc zeroes hsize g) count later
  have hlength : patches.length = count := (length_inTurn _ _ _).trans List.length_replicate
  have hchild : (havoc.apply bytes g).1 = .ok (patches.foldl Patch.write bytes, count) := by
    rw [apply]
    simp only [hbytes, Bool.false_eq_true, if_false, hchance, mutations_eq_foldl_write]
    rfl
  have hinside : ∀ before patch after, patches = before ++ patch :: after →
      ∀ i ∈ patch.window bytes.size, (∀ other ∈ after, i ∉ other.window bytes.size) →
        ∃ value ∈ patch.values, patch.values[i - patch.offset]? = some value ∧
          (patches.foldl Patch.write bytes)[i]? = some value := by
    intro before patch after hsplit i hi hlast
    obtain ⟨value, hmem, hvalue⟩ := Patch.getElem?_values (hfits patch (by simp [hsplit])) hi
    refine ⟨value, hmem, hvalue, ?_⟩
    rw [hsplit, Patch.getElem?_foldl_write_of_mem (hsplit ▸ hfits) hi hlast, hvalue]
  refine ⟨_, hchild, Patch.size_foldl_write patches bytes, hlength,
    fun patch hpatch => (hfits patch hpatch).offset,
    fun i => Patch.getElem?_foldl_write_of_notMem hfits, ?_, ?_, ?_, ?_⟩
  · intro hfill patch hpatch i hi
    obtain ⟨before, last, after, hsplit, hi, hlast⟩ := Patch.exists_last_mem ⟨patch, hpatch, hi⟩
    obtain ⟨value, hmem, -, hvalue⟩ := hinside before last after hsplit i hi hlast
    have hzeroes : ∀ patch ∈ patches, ∀ value ∈ patch.values, value = 0 := by
      apply forall_patches
      subst hfill
      exact fun g => eq_zero_of_mem_fill _ _
    rw [hvalue, hzeroes last (by simp [hsplit]) value hmem]
  · intro before patch after hsplit i hi hlast
    obtain ⟨value, -, hvalue⟩ := hinside before patch after hsplit i hi hlast
    exact ⟨value, hvalue⟩
  · intro hconstant length
    have hspan : ∀ patch ∈ patches, patch.span = length := by
      apply forall_patches
      intro g
      simp only [draw, span, hconstant, if_true]
      rfl
    exact ⟨hspan, hlength ▸ Patch.card_changed_le hfits hspan⟩
  · intro hone
    obtain ⟨patch, hsingle⟩ := List.length_eq_one_iff.1 (hlength.trans hone)
    refine ⟨patch, hsingle, ?_⟩
    have hsubset := Patch.changed_foldl_write_subset hfits
    have hwindow : patches.toFinset = {patch} := by rw [hsingle]; rfl
    rwa [hwindow, Finset.singleton_biUnion] at hsubset

theorem apply_overwrites_clipped :
    let havoc : Havoc := ⟨1, 2, true, 0⟩
    let bytes : Bytes := #[1, 2, 3, 4, 5]
    IsProbability havoc.zeroFill ∧ bytes.isEmpty = false ∧
      ∃ child, (havoc.apply bytes (ChaCha.ofSeed 9)).1 = .ok (child, 1) ∧
        child[3]? = some 4 ∧ child[4]? = some 206 ∧ (Patch.changed bytes child).card ≤ 2 := by
  intro havoc bytes
  have hzero : IsProbability havoc.zeroFill := by decide +kernel
  have hcount : (geometric havoc.meanCount bytes.size (ChaCha.ofSeed 9)).1 = 1 := by decide +kernel
  obtain ⟨zeroes, later, hchance, child, hchild, -, -, -, houtside, -, hinside, hconstant, -⟩ :=
    @apply_overwrites ChaCha _ havoc bytes hzero rfl (ChaCha.ofSeed 9)
  -- Whether to fill with zeroes was the first thing drawn, from two words.
  have hrandom : some (zeroes, later) = some (false, (word64 (ChaCha.ofSeed 9)).2) :=
    hchance.symm.trans (by decide +kernel)
  obtain ⟨rfl, rfl⟩ := Prod.mk.inj (Option.some.inj hrandom)
  have hpatches : (havoc.patches false bytes.size
      (geometric havoc.meanCount bytes.size (ChaCha.ofSeed 9)).1 (word64 (ChaCha.ofSeed 9)).2).1 =
      [⟨4, 2, [206]⟩] := by decide +kernel
  rw [hpatches] at houtside hinside
  have hlength : max 1 havoc.meanSize.toUInt64.toNat = 2 := by decide +kernel
  rw [hcount] at hchild hconstant
  rw [hlength] at hconstant
  refine ⟨hzero, rfl, child, hchild, houtside 3 (by decide), ?_, (hconstant rfl).2⟩
  obtain ⟨value, hvalue, hat⟩ := hinside [] ⟨4, 2, [206]⟩ [] rfl 4 (by decide) (by decide)
  exact hat.trans hvalue.symm

end Havoc

end Greybox
