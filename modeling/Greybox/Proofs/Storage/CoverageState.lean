import Mathlib.Algebra.Group.Nat.Defs
import Greybox.Proofs.FileTree.Content
import Greybox.Storage.Disk

namespace Greybox

namespace CoverageState

variable {map other : Coverage} {n : Nat}

theorem foldr_map_range (width n : Nat) :
    ((List.range width).map fun i => UInt8.ofNat (n >>> (8 * i))).foldr
      (fun b n => b.toNat + 256 * n) 0 = n % 256 ^ width := by
  induction width generalizing n with
  | zero => simp [Nat.mod_one]
  | succ width ih =>
    have hshift : ∀ i, n >>> (8 * (i + 1)) = (n / 256) >>> (8 * i) := by
      intro i
      rw [Nat.mul_add, Nat.add_comm, Nat.shiftRight_add, Nat.shiftRight_eq_div_pow n]
    have hrest := ih (n / 256)
    have hsplit : n % 256 ^ (width + 1) = n % 256 + 256 * (n / 256 % 256 ^ width) := by
      rw [Nat.pow_succ', Nat.mod_mul]
    simp only [← hshift] at hrest
    simp only [List.range_succ_eq_map, List.map_cons, List.map_map, Function.comp_def, List.foldr_cons,
      Nat.succ_eq_add_one, hrest, Nat.mul_zero, Nat.shiftRight_zero, UInt8.toNat_ofNat']
    exact hsplit.symm

@[simp] theorem size_encodeSize (n : Nat) : (encodeSize n).size = 8 := by
  simp [encodeSize]

theorem decodeSize_encodeSize (h : n < UInt64.size) : decodeSize (encodeSize n) = n := by
  have hread := foldr_map_range 8 n
  have hbound : n < 256 ^ 8 := h
  rw [Nat.mod_eq_of_lt hbound] at hread
  rw [decodeSize, encodeSize, ← Array.foldr_toList, Array.toList_map, Array.toList_range]
  exact hread

@[simp] theorem size_encode (map : Coverage) : (encode map).size = 8 + map.size := by
  simp [encode, Coverage.size]

theorem extract_encode_size (map : Coverage) : (encode map).extract 0 8 = encodeSize map.size := by
  rw [encode, Array.extract_append]
  simp

theorem extract_encode_counters (map : Coverage) :
    (encode map).extract 8 (8 + map.size) = map.counters := by
  rw [encode, Array.extract_append]
  simp [Coverage.size]

theorem decode_encode (h : map.size < UInt64.size) : decode (encode map) = .ok map := by
  have hlong : ¬ (encode map).size < 8 := by simp
  have hall : ¬ (encode map).size - 8 < map.size := by simp
  simp only [decode, if_neg hlong, extract_encode_size, decodeSize_encodeSize h, if_neg hall,
    extract_encode_counters]

theorem encode_inj (h : map.size < UInt64.size) (h' : other.size < UInt64.size)
    (heq : encode map = encode other) : map = other := by
  have hdecode := congrArg decode heq
  rw [decode_encode h, decode_encode h'] at hdecode
  exact Except.ok.inj hdecode

/-- A file that was cut short is found too short: within the number of counters by what that number
lacks, after it by the counters that are missing. -/
theorem decode_take (h : map.size < UInt64.size) (hcut : n < (encode map).size) :
    decode ((encode map).take n) =
      .error (.truncatedCoverage ((if n < 8 then 8 else (encode map).size) - n)) := by
  have hsize : ((encode map).take n).size = n := by
    rw [Array.take_eq_extract, Array.size_extract, Nat.min_eq_left (Nat.le_of_lt hcut), Nat.sub_zero]
  rw [decode, hsize]
  split
  · rfl
  · rename_i hlong
    have hnumber : ((encode map).take n).extract 0 8 = encodeSize map.size := by
      rw [Array.take_eq_extract, Array.extract_extract, ← extract_encode_size]
      congr 1
      omega
    rw [size_encode] at hcut
    have hshort : n - 8 < map.size := by omega
    simp only [hnumber, decodeSize_encodeSize h, if_pos hshort, size_encode]
    congr 2
    omega

end CoverageState

namespace DiskStore

variable {store later : DiskStore} {map : Coverage} {path : String} {content : Bytes}
  {report : OsError → StorageError}

theorem writeFile_ok (h : store.writeFile path content report = (.ok (), later)) :
    store.tree.write path content = .ok later.tree ∧ later.outputDir = store.outputDir := by
  rw [writeFile] at h
  split at h
  · obtain ⟨-, rfl⟩ := Prod.mk.inj h
    exact ⟨‹_›, rfl⟩
  · cases h

theorem read_of_writeCoverage (h : store.writeCoverage map = (.ok (), later)) :
    later.tree.read later.statePath = .ok (CoverageState.encode map) := by
  rw [writeCoverage] at h
  split at h
  · cases h
  · obtain ⟨hwrite, hdir⟩ := writeFile_ok h
    rw [statePath, hdir]
    exact FileTree.read_of_write hwrite

/-- A map that was written, over whatever the directory held before, is loaded as it was. The file
is that of no other map, and what is left of it when it is cut short anywhere is refused as
malformed, with the number of bytes that are missing. -/
theorem written_coverage_loads (hsize : map.size < UInt64.size)
    (hwrite : store.writeCoverage map = (.ok (), later)) :
    CoverageState.load later.tree later.statePath = .ok map ∧
    ∃ file, later.tree.read later.statePath = .ok file ∧
      (∀ (store' : DiskStore) other later', other.size < UInt64.size →
        store'.writeCoverage other = (.ok (), later') → other ≠ map →
        later'.tree.read later'.statePath ≠ .ok file) ∧
      ∀ (tree : FileTree) path n, n < file.size → tree.read path = .ok (file.take n) →
        ∃ missing, missing = (if n < 8 then 8 else file.size) - n ∧
          CoverageState.load tree path = .error (.truncatedCoverage missing) ∧
          (StorageError.truncatedCoverage missing).isMalformedCoverage = true := by
  have hread := read_of_writeCoverage hwrite
  refine ⟨?_, _, hread, ?_, ?_⟩
  · rw [CoverageState.load, hread]
    exact CoverageState.decode_encode hsize
  · intro store' other later' hother hwrite' hne hsame
    rw [read_of_writeCoverage hwrite'] at hsame
    exact hne (CoverageState.encode_inj hother hsize (Except.ok.inj hsame))
  · intro tree path n hcut hleft
    refine ⟨_, rfl, ?_, rfl⟩
    rw [CoverageState.load, hleft]
    exact CoverageState.decode_take hsize hcut

theorem written_coverage_loads_over_longer :
    let tree : FileTree := ⟨[(["out"], .directory),
      (["out", "coverage.bin"], .file (.replicate 20 7))]⟩
    let cut : FileTree := ⟨[(["cut"], .file #[2, 0, 0])]⟩
    ∃ later, DiskStore.writeCoverage ⟨tree, "out", none, ∅⟩ ⟨#[0, 9]⟩ = (.ok (), later) ∧
      CoverageState.load later.tree later.statePath = .ok ⟨#[0, 9]⟩ ∧
      CoverageState.load cut "cut" = .error (.truncatedCoverage 5) := by
  intro tree cut
  obtain ⟨⟨⟩, later, hwrite⟩ :=
    exists_eq_ok (show (DiskStore.writeCoverage ⟨tree, "out", none, ∅⟩ ⟨#[0, 9]⟩).1.isOk = true by
      decide +kernel)
  obtain ⟨hload, file, hread, -, hcut⟩ := written_coverage_loads (by decide) hwrite
  obtain rfl := Except.ok.inj (hread.symm.trans (read_of_writeCoverage hwrite))
  have hbytes : (CoverageState.encode ⟨#[0, 9]⟩).take 3 = #[2, 0, 0] := by decide +kernel
  have hleft : cut.read "cut" = .ok ((CoverageState.encode ⟨#[0, 9]⟩).take 3) := by
    rw [hbytes, FileTree.read_eq_ok_iff, Path.components_name (by decide)]
    exact ⟨["cut"], rfl, rfl⟩
  obtain ⟨missing, rfl, hload', -⟩ := hcut cut "cut" 3 (by decide +kernel) hleft
  exact ⟨later, hwrite, hload, hload'⟩

end DiskStore

end Greybox
