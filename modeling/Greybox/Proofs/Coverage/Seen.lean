import Mathlib.Data.Finset.Prod
import Greybox.Proofs.Coverage.Merge

namespace Greybox.Coverage

variable {map map' run : Coverage} {p bit : Nat}

def seen (map : Coverage) : Finset (Nat × Nat) :=
  {c ∈ Finset.range map.size ×ˢ Finset.range 8 | (map.get c.1).toNat.testBit c.2 = true}

theorem mem_seen : (p, bit) ∈ map.seen ↔ (map.get p).toNat.testBit bit = true := by
  rw [seen, Finset.mem_filter, Finset.mem_product, Finset.mem_range, Finset.mem_range]
  refine and_iff_right_of_imp fun hbit => ?_
  have hpoint : map.get p ≠ 0 := by
    intro hzero
    simp [hzero] at hbit
  have hclass : bit < 8 := by
    by_contra hle
    have hlt : (map.get p).toNat < 2 ^ bit := by
      have hpow : 2 ^ 8 ≤ 2 ^ bit := Nat.pow_le_pow_right (by decide) (not_lt.1 hle)
      exact lt_of_lt_of_le (map.get p).toNat_lt hpow
    simp [Nat.testBit_lt_two_pow hlt] at hbit
  exact ⟨lt_size_of_get_ne_zero hpoint, hclass⟩

theorem card_seen_le (map : Coverage) : map.seen.card ≤ 8 * map.size := by
  calc map.seen.card ≤ (Finset.range map.size ×ˢ Finset.range 8).card := Finset.card_filter_le _ _
    _ = map.size * 8 := by rw [Finset.card_product, Finset.card_range, Finset.card_range]
    _ = 8 * map.size := Nat.mul_comm _ _

theorem seen_subset (h : map.Within map') : map.seen ⊆ map'.seen := by
  rintro ⟨p, bit⟩ hc
  rw [mem_seen] at hc ⊢
  rw [← h p, UInt8.toNat_or, Nat.testBit_or, hc, Bool.true_or]

theorem get_eq_of_seen_eq (h : map.seen = map'.seen) (p : Nat) : map.get p = map'.get p := by
  apply UInt8.toNat_inj.1
  apply Nat.eq_of_testBit_eq
  intro bit
  rw [Bool.eq_iff_iff, ← mem_seen, ← mem_seen, h]

theorem card_seen_lt (h : map.Within map') (hne : map.get p ≠ map'.get p) :
    map.seen.card < map'.seen.card := by
  apply Finset.card_lt_card
  apply (seen_subset h).ssubset_of_ne
  intro heq
  exact hne (get_eq_of_seen_eq heq p)

theorem card_seen_lt_of_wouldChange (hsize : run.size = map.size)
    (h : map.wouldChange run = true) : map.seen.card < (map.merge run).1.seen.card := by
  obtain ⟨p, hp, hne⟩ := wouldChange_eq_true_iff.1 h
  apply card_seen_lt (within_merge hsize) (p := p)
  rw [get_merge hp]
  exact hne.symm

theorem nonZeroCount_le (map : Coverage) : map.nonZeroCount ≤ map.size := Array.countP_le_size

theorem nonZeroCount_le_of_within (h : map.Within map') :
    map.nonZeroCount ≤ map'.nonZeroCount := by
  rw [← length_coveredPoints, ← length_coveredPoints]
  apply (List.subperm_of_subset (nodup_coveredPoints map) _).length_le
  intro p hp
  exact mem_coveredPoints.2 (h.get_ne_zero (mem_coveredPoints.1 hp))

theorem nonZeroCount_lt_merge_iff (hsize : run.size = map.size) :
    map.nonZeroCount < (map.merge run).1.nonZeroCount ↔ ∃ p, p ∈ run.newPoints map := by
  rw [nonZeroCount_merge (Nat.le_of_eq hsize), Nat.lt_add_right_iff_pos, PointSet.size,
    List.length_pos_iff_exists_mem]
  rfl

theorem nonZeroCount_lt_of_newPoints (hsize : run.size = map.size)
    (h : p ∈ run.newPoints map) : map.nonZeroCount < (map.merge run).1.nonZeroCount :=
  (nonZeroCount_lt_merge_iff hsize).2 ⟨p, h⟩

end Greybox.Coverage
