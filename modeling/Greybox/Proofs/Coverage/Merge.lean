import Greybox.Proofs.Coverage.Union

namespace Greybox.Coverage

variable {map map' run : Coverage} {runs runs' : List Coverage} {p : Nat}

def mergeAll (map : Coverage) (runs : List Coverage) : Coverage :=
  runs.foldl (fun map run => (map.merge run).1) map

@[simp] theorem mergeAll_nil (map : Coverage) : map.mergeAll [] = map := rfl

@[simp] theorem mergeAll_cons (map run : Coverage) (runs : List Coverage) :
    map.mergeAll (run :: runs) = (map.merge run).1.mergeAll runs := rfl

@[simp] theorem size_mergeAll (map : Coverage) (runs : List Coverage) :
    (map.mergeAll runs).size = map.size := by
  induction runs generalizing map with
  | nil => rfl
  | cons run runs ih => exact (ih _).trans (size_merge map run)

theorem get_mergeAll (hp : p < map.size) :
    (map.mergeAll runs).get p = map.get p ||| classes runs p := by
  induction runs generalizing map with
  | nil => simp
  | cons run runs ih =>
    have hp' : p < (map.merge run).1.size := by rwa [size_merge]
    rw [mergeAll_cons, ih hp', get_merge hp, classes_cons, UInt8.or_assoc]

theorem classes_reaching (runs : List Coverage) (p : Nat) :
    classes (runs.filter (p < ·.size)) p = classes runs p := by
  induction runs with
  | nil => rfl
  | cons run runs ih =>
    by_cases hp : p < run.size
    · rw [List.filter_cons_of_pos (by simpa using hp), classes_cons, classes_cons, ih]
    · have hzero : bucket (run.get p) = 0 := bucket_eq_zero_iff.2 (get_of_size_le (Nat.not_lt.1 hp))
      rw [List.filter_cons_of_neg (by simpa using hp), classes_cons, hzero, UInt8.zero_or, ih]

theorem classes_eq_of_mem_iff (h : ∀ run, run ∈ runs ↔ run ∈ runs') (p : Nat) :
    classes runs p = classes runs' p := by
  have hsub := classes_or_classes (fun run => (h run).1) p
  have hsub' := classes_or_classes (fun run => (h run).2) p
  rw [← hsub', UInt8.or_comm, hsub]

theorem mergeAll_eq_of_mem_iff (map : Coverage) (h : ∀ run, run ∈ runs ↔ run ∈ runs') :
    map.mergeAll runs = map.mergeAll runs' := by
  apply eq_of_get (by rw [size_mergeAll, size_mergeAll])
  intro p
  by_cases hp : p < map.size
  · rw [get_mergeAll hp, get_mergeAll hp, classes_eq_of_mem_iff h]
  · have hmap : map.size ≤ p := Nat.not_lt.1 hp
    rw [get_of_size_le (by simpa using hmap), get_of_size_le (by simpa using hmap)]

theorem Within.get_le (h : map.Within map') (p : Nat) : map.get p ≤ map'.get p := by
  rw [UInt8.le_iff_toNat_le, ← h p, UInt8.toNat_or]
  exact Nat.left_le_or

theorem within_mergeAll (map : Coverage) (runs : List Coverage) : map.Within (map.mergeAll runs) := by
  intro p
  by_cases hp : p < map.size
  · rw [get_mergeAll hp, ← UInt8.or_assoc, UInt8.or_self]
  · rw [get_of_size_le (Nat.not_lt.1 hp), UInt8.zero_or]

theorem coveredPoints_merge_perm (hsize : run.size ≤ map.size) :
    (map.merge run).1.coveredPoints.Perm (map.coveredPoints ++ (run.newPoints map).toList) := by
  have hnew : (run.newPoints map).toList.Nodup := (run.newPoints map).ascending.imp Nat.ne_of_lt
  have hapart : ∀ p ∈ map.coveredPoints, ∀ q ∈ (run.newPoints map).toList, p ≠ q := by
    rintro p hold q hfresh rfl
    exact mem_coveredPoints.1 hold (mem_newPoints.1 hfresh).2
  rw [List.perm_ext_iff_of_nodup (nodup_coveredPoints _)
    (List.nodup_append.2 ⟨nodup_coveredPoints map, hnew, hapart⟩)]
  intro p
  have hfresh : p ∈ (run.newPoints map).toList ↔ run.get p ≠ 0 ∧ map.get p = 0 := mem_newPoints
  rw [List.mem_append, mem_coveredPoints, mem_coveredPoints, hfresh,
    get_merge_ne_zero_iff_of_size_le hsize]
  grind

theorem nonZeroCount_merge (hsize : run.size ≤ map.size) :
    (map.merge run).1.nonZeroCount = map.nonZeroCount + (run.newPoints map).size := by
  rw [← length_coveredPoints, (coveredPoints_merge_perm hsize).length_eq, List.length_append,
    length_coveredPoints, PointSet.size]

/-- Merging runs of any sizes into a map keeps its size, adds to every counter the classes of the
runs that reach it, whatever their order and however often they come, and takes none away. A run
would change the map exactly if merging it reports a change, exactly if the map does change, and
that does not happen again. A run that is no longer than the map raises the number of covered points
by the number of its new points. -/
theorem merge_unites_runs (map : Coverage) (runs : List Coverage) :
    (map.mergeAll runs).size = map.size ∧
    (∀ p < map.size, (map.mergeAll runs).get p =
      map.get p ||| classes (runs.filter (p < ·.size)) p) ∧
    (∀ runs', (∀ run, run ∈ runs' ↔ run ∈ runs) → map.mergeAll runs' = map.mergeAll runs) ∧
    (∀ p, map.get p ≤ (map.mergeAll runs).get p) ∧
    ∀ run,
      (map.wouldChange run = true ↔ (map.merge run).2 = true) ∧
      ((map.merge run).2 = true ↔ (map.merge run).1 ≠ map) ∧
      ((map.merge run).1.merge run).2 = false ∧
      (∀ p, map.get p ≤ (map.merge run).1.get p) ∧
      (run.size ≤ map.size →
        (map.merge run).1.nonZeroCount = map.nonZeroCount + (run.newPoints map).size) := by
  refine ⟨size_mergeAll map runs, ?_, ?_, (within_mergeAll map runs).get_le, ?_⟩
  · intro p hp
    rw [get_mergeAll hp, classes_reaching]
  · intro runs' hmem
    exact mergeAll_eq_of_mem_iff map hmem
  · intro run
    refine ⟨?_, ?_, ?_, (within_mergeAll map [run]).get_le, nonZeroCount_merge⟩
    · rw [snd_merge]
    · rw [snd_merge, merge_ne_self_iff]
    · rw [snd_merge, wouldChange_merge]

theorem merge_unites_runs_uneven :
    (⟨#[2, 0, 0]⟩ : Coverage).mergeAll [⟨#[5]⟩, ⟨#[0, 0, 1, 9]⟩, ⟨#[5]⟩] =
        (⟨#[2, 0, 0]⟩ : Coverage).mergeAll [⟨#[0, 0, 1, 9]⟩, ⟨#[5]⟩] ∧
      ((⟨#[2, 0, 0]⟩ : Coverage).mergeAll [⟨#[0, 0, 1, 9]⟩, ⟨#[5]⟩]).get 0 = 6 ∧
      ((⟨#[2, 0, 0]⟩ : Coverage).merge ⟨#[4, 7]⟩).1.nonZeroCount = 2 := by
  obtain ⟨-, hget, horder, -, hone⟩ :=
    merge_unites_runs ⟨#[2, 0, 0]⟩ [⟨#[0, 0, 1, 9]⟩, ⟨#[5]⟩]
  obtain ⟨-, -, -, -, hcount⟩ := hone ⟨#[4, 7]⟩
  refine ⟨horder _ ?_, (hget 0 (by decide)).trans (by decide), (hcount (by decide)).trans (by decide)⟩
  intro run
  simp only [List.mem_cons, List.not_mem_nil, or_false]
  grind

end Greybox.Coverage
