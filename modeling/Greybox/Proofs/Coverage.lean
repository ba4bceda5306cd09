import Greybox.Coverage

namespace Greybox

theorem bucket_eq_zero_iff {count : UInt8} : bucket count = 0 ↔ count = 0 := by
  rw [bucket]
  split
  · simp_all
  · rename_i hcount
    have hpos : count.toNat ≠ 0 := fun h => hcount (UInt8.toNat_inj.1 h)
    have hle : 2 ^ count.toNat.log2 ≤ count.toNat := Nat.log2_self_le hpos
    have hlt : 2 ^ count.toNat.log2 < 256 := Nat.lt_of_le_of_lt hle count.toNat_lt
    have hne : (UInt8.ofNat (1 <<< count.toNat.log2)).toNat ≠ 0 := by
      rw [Nat.one_shiftLeft, UInt8.toNat_ofNat_of_lt' hlt]
      exact Nat.pos_iff_ne_zero.1 (Nat.two_pow_pos _)
    exact iff_of_false (fun h => hne (congrArg UInt8.toNat h)) hcount

namespace Coverage

variable {map run baseline : Coverage} {p : Nat}

theorem get_of_size_le (h : map.size ≤ p) : map.get p = 0 := by
  simp only [get, size] at h ⊢
  simp [Array.getD, Nat.not_lt.2 h]

theorem lt_size_of_get_ne_zero (h : map.get p ≠ 0) : p < map.size :=
  Nat.lt_of_not_le fun hle => h (get_of_size_le hle)

@[simp] theorem size_zero (n : Nat) : (zero n).size = n := by simp [zero, size]

@[simp] theorem get_zero (n p : Nat) : (zero n).get p = 0 := by
  by_cases h : p < n <;> simp [zero, get, Array.getD, h]

@[simp] theorem size_recordHit (map : Coverage) (point : Nat) :
    (map.recordHit point).size = map.size := by
  simp [recordHit, size]

theorem mergeCounter_eq (merged : Array UInt8) (changed : Bool) (seen count : UInt8) :
    mergeCounter (merged, changed) (seen, count) =
      (merged.push (seen ||| bucket count),
        changed || (count != 0 && seen ||| bucket count != seen)) := by
  have hbucket : bucket 0 = 0 := bucket_eq_zero_iff.2 rfl
  by_cases hcount : count = 0
  · simp [mergeCounter, hcount, hbucket]
  · by_cases hsame : seen ||| bucket count = seen <;> simp [mergeCounter, hcount, hsame]

theorem foldl_mergeCounter (pairs : List (UInt8 × UInt8)) (merged : Array UInt8) (changed : Bool) :
    pairs.foldl mergeCounter (merged, changed) =
      (merged ++ (pairs.map fun (seen, count) => seen ||| bucket count).toArray,
        changed || pairs.any fun (seen, count) => count != 0 && seen ||| bucket count != seen) := by
  induction pairs generalizing merged changed with
  | nil => simp
  | cons pair pairs ih =>
    obtain ⟨seen, count⟩ := pair
    rw [List.foldl_cons, mergeCounter_eq, ih]
    simp [Bool.or_assoc]

theorem snd_merge (map run : Coverage) : (map.merge run).2 = map.wouldChange run := by
  simp only [merge, foldl_mergeCounter, Bool.false_or, wouldChange]

theorem counters_merge (map run : Coverage) :
    (map.merge run).1.counters.toList =
      (map.counters.toList.zip run.counters.toList).map (fun (seen, count) => seen ||| bucket count) ++
        map.counters.toList.drop run.size := by
  have hrest : (map.counters.toList.drop run.size).length ≤ map.size - run.size := by simp [size]
  simp [merge, foldl_mergeCounter, List.take_of_length_le hrest]

@[simp] theorem size_merge (map run : Coverage) : (map.merge run).1.size = map.size := by
  have hlength := congrArg List.length (counters_merge map run)
  simp only [size, Array.length_toList, List.length_append, List.length_map, List.length_zip,
    List.length_drop] at hlength ⊢
  omega

theorem getElem?_zip_counters (map run : Coverage) (p : Nat) :
    (map.counters.toList.zip run.counters.toList)[p]? =
      if p < map.size ∧ p < run.size then some (map.get p, run.get p) else none := by
  split
  · rename_i hp
    simp only [size] at hp
    refine List.getElem?_zip_eq_some.2 ⟨?_, ?_⟩ <;> simp [get, Array.getD, hp.1, hp.2]
  · rename_i hp
    simp only [size] at hp
    rw [List.getElem?_eq_none]
    simp only [List.length_zip, Array.length_toList]
    omega

theorem get_eq_getElem? (map : Coverage) (p : Nat) : map.get p = map.counters.toList[p]?.getD 0 := by
  rw [get, Array.getD_eq_getD_getElem?, Array.getElem?_toList]

/-- The counters that the loop leaves alone, beyond the end of the run, are those to which a run
that counts zero there adds no class. -/
theorem get_merge (hp : p < map.size) :
    (map.merge run).1.get p = map.get p ||| bucket (run.get p) := by
  have hlength : ((map.counters.toList.zip run.counters.toList).map
      fun (seen, count) => seen ||| bucket count).length = min map.size run.size := by
    simp [size]
  rw [get_eq_getElem?, counters_merge]
  by_cases hrun : p < run.size
  · have hboth : p < min map.size run.size := Nat.lt_min.2 ⟨hp, hrun⟩
    rw [List.getElem?_append_left (hlength ▸ hboth), List.getElem?_map, getElem?_zip_counters,
      if_pos ⟨hp, hrun⟩]
    rfl
  · have hrun : run.size ≤ p := Nat.not_lt.1 hrun
    have hmin : min map.size run.size = run.size :=
      Nat.min_eq_right (Nat.le_of_lt (Nat.lt_of_le_of_lt hrun hp))
    have hbucket : bucket 0 = 0 := bucket_eq_zero_iff.2 rfl
    rw [hmin] at hlength
    rw [List.getElem?_append_right (hlength ▸ hrun), hlength, List.getElem?_drop,
      Nat.add_sub_cancel' hrun, ← get_eq_getElem?, get_of_size_le hrun, hbucket, UInt8.or_zero]

theorem get_merge_of_size_le (hsize : run.size ≤ map.size) (p : Nat) :
    (map.merge run).1.get p = map.get p ||| bucket (run.get p) := by
  by_cases hp : p < map.size
  · exact get_merge hp
  · have hmap : map.size ≤ p := Nat.not_lt.1 hp
    have hrun : run.size ≤ p := Nat.le_trans hsize hmap
    have hmerge : (map.merge run).1.size ≤ p := by simpa using hmap
    have hbucket : bucket 0 = 0 := bucket_eq_zero_iff.2 rfl
    simp [get_of_size_le hmap, get_of_size_le hrun, get_of_size_le hmerge, hbucket]

theorem get_merge_of_size_eq (hsize : run.size = map.size) (p : Nat) :
    (map.merge run).1.get p = map.get p ||| bucket (run.get p) :=
  get_merge_of_size_le (Nat.le_of_eq hsize) p

theorem get_merge_ne_zero_iff_of_size_le (hsize : run.size ≤ map.size) :
    (map.merge run).1.get p ≠ 0 ↔ map.get p ≠ 0 ∨ run.get p ≠ 0 := by
  rw [get_merge_of_size_le hsize, Ne, UInt8.or_eq_zero_iff, bucket_eq_zero_iff]
  exact Classical.not_and_iff_not_or_not

theorem get_merge_ne_zero_iff (hsize : run.size = map.size) :
    (map.merge run).1.get p ≠ 0 ↔ map.get p ≠ 0 ∨ run.get p ≠ 0 :=
  get_merge_ne_zero_iff_of_size_le (Nat.le_of_eq hsize)

theorem eq_of_get {map' : Coverage} (hsize : map.size = map'.size)
    (h : ∀ p, map.get p = map'.get p) : map = map' := by
  suffices map.counters = map'.counters by
    cases map
    cases map'
    simpa using this
  apply Array.ext hsize
  intro p hp hp'
  simpa [get, Array.getD, hp, hp'] using h p

theorem wouldChange_eq_true_iff :
    map.wouldChange run = true ↔ ∃ p < map.size, map.get p ||| bucket (run.get p) ≠ map.get p := by
  simp only [wouldChange, List.any_eq_true, List.mem_iff_getElem?, getElem?_zip_counters,
    Bool.and_eq_true, bne_iff_ne]
  constructor
  · rintro ⟨⟨seen, count⟩, ⟨p, hpair⟩, -, hne⟩
    split at hpair
    · rename_i hp
      obtain ⟨rfl, rfl⟩ := by simpa using hpair
      exact ⟨p, hp.1, hne⟩
    · cases hpair
  · rintro ⟨p, hp, hne⟩
    -- a counter that the run leaves at zero cannot be the one that changes
    have hcount : run.get p ≠ 0 := by
      intro hzero
      rw [hzero, bucket_eq_zero_iff.2 rfl, UInt8.or_zero] at hne
      exact hne rfl
    exact ⟨(map.get p, run.get p), ⟨p, if_pos ⟨hp, lt_size_of_get_ne_zero hcount⟩⟩, hcount, hne⟩

theorem merge_eq_self (h : map.wouldChange run = false) : (map.merge run).1 = map := by
  apply eq_of_get (size_merge map run)
  intro p
  by_cases hp : p < map.size
  · rw [get_merge hp]
    have hsame : ¬ map.get p ||| bucket (run.get p) ≠ map.get p := fun hne =>
      Bool.false_ne_true (h.symm.trans (wouldChange_eq_true_iff.2 ⟨p, hp, hne⟩))
    exact Classical.not_not.1 hsame
  · have hmap : map.size ≤ p := Nat.not_lt.1 hp
    rw [get_of_size_le hmap, get_of_size_le (by simpa using hmap)]

theorem merge_ne_self_iff : (map.merge run).1 ≠ map ↔ map.wouldChange run = true := by
  constructor
  · intro hne
    cases hchange : map.wouldChange run with
    | true => rfl
    | false => exact absurd (merge_eq_self hchange) hne
  · intro hchange heq
    obtain ⟨p, hp, hne⟩ := wouldChange_eq_true_iff.1 hchange
    rw [← get_merge hp, heq] at hne
    exact hne rfl

theorem wouldChange_merge (map run : Coverage) : (map.merge run).1.wouldChange run = false := by
  rw [← Bool.not_eq_true, wouldChange_eq_true_iff]
  rintro ⟨p, hp, hne⟩
  rw [size_merge] at hp
  rw [get_merge hp, UInt8.or_assoc, UInt8.or_self] at hne
  exact hne rfl

theorem mem_newPoints : p ∈ map.newPoints baseline ↔ map.get p ≠ 0 ∧ baseline.get p = 0 := by
  simp only [newPoints, PointSet.mem_below, Bool.and_eq_true, bne_iff_ne, beq_iff_eq]
  exact and_iff_right_of_imp fun h => lt_size_of_get_ne_zero h.1

def coveredPoints (map : Coverage) : List Nat := (List.range map.size).filter (map.get · ≠ 0)

theorem mem_coveredPoints : p ∈ map.coveredPoints ↔ map.get p ≠ 0 := by
  simp only [coveredPoints, List.mem_filter, List.mem_range, decide_eq_true_eq]
  exact and_iff_right_of_imp lt_size_of_get_ne_zero

theorem nodup_coveredPoints (map : Coverage) : map.coveredPoints.Nodup :=
  List.nodup_range.filter _

theorem toList_counters (map : Coverage) :
    map.counters.toList = (List.range map.size).map map.get := by
  apply List.ext_getElem
  · simp [size]
  · intro p hp _
    have hp : p < map.counters.size := by simpa using hp
    simp [get, Array.getD, hp]

theorem length_coveredPoints (map : Coverage) : map.coveredPoints.length = map.nonZeroCount := by
  rw [nonZeroCount, ← Array.countP_toList, toList_counters, List.countP_map, coveredPoints,
    List.countP_eq_length_filter]
  congr 2
  funext p
  by_cases h : map.get p = 0 <;> simp [h]

end Coverage

end Greybox
