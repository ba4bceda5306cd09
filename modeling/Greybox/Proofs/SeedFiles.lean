import Mathlib.Data.List.Forall2
import Greybox.SeedFiles
import Greybox.Proofs.FileTree.Enumeration

namespace Greybox

variable {tree other : FileTree} {path directory name name' : String}
  {paths files files' : List String}

namespace Path

theorem exists_join_eq (directory : String) :
    ∃ front, ∀ name, IsName name → join directory name = front ++ name := by
  by_cases hempty : directory = ""
  · subst directory
    exact ⟨"", fun name _ => by simp [join]⟩
  · by_cases hend : directory.endsWith "/" = true
    · refine ⟨directory, fun name hname => ?_⟩
      simp [join, startsWith_slash_of_not_mem hname.no_slash, hempty, hend]
    · refine ⟨directory ++ "/", fun name hname => ?_⟩
      simp [join, startsWith_slash_of_not_mem hname.no_slash, hempty, hend]

theorem join_lt_join (hname : IsName name) (hname' : IsName name') (h : name < name') :
    join directory name < join directory name' := by
  obtain ⟨front, hjoin⟩ := exists_join_eq directory
  rw [hjoin name hname, hjoin name' hname']
  change (front ++ name).toList < (front ++ name').toList
  rw [String.toList_append, String.toList_append]
  exact List.append_left_lt h

end Path

namespace SeedFiles

/-- The files directly in a directory whose names do not start with a dot, in ascending order. -/
structure Lists (tree : FileTree) (directory : String) (files : List String) : Prop where
  ascending : files.Pairwise (· < ·)
  mem_iff : ∀ file, file ∈ files ↔ ∃ name, IsName name ∧ ¬ name.startsWith "." ∧
    file = Path.join directory name ∧ tree.isFile file = true

theorem Lists.unique (h : Lists tree directory files) (h' : Lists tree directory files') :
    files = files' := by
  have hne : ∀ {file file' : String}, file < file' → file ≠ file' := by
    rintro file _ hlt rfl
    exact String.lt_irrefl file hlt
  have hperm : files.Perm files' := by
    rw [List.perm_ext_iff_of_nodup (h.ascending.imp hne) (h'.ascending.imp hne)]
    intro file
    rw [h.mem_iff, h'.mem_iff]
  refine hperm.eq_of_pairwise ?_ h.ascending h'.ascending
  intro file file' _ _ hlt hgt
  exact absurd hgt (String.lt_asymm hlt)

theorem pairwise_mergeSort {names : List String} (h : names.Nodup) :
    (names.mergeSort (· ≤ ·)).Pairwise (· < ·) := by
  have hsorted : (names.mergeSort (· ≤ ·)).Pairwise fun a b => decide (a ≤ b) = true := by
    apply List.pairwise_mergeSort
    · intro a b c hab hbc
      exact decide_eq_true (String.le_trans (of_decide_eq_true hab) (of_decide_eq_true hbc))
    · intro a b
      simpa using String.le_total a b
  have hdistinct := (List.mergeSort_perm names (· ≤ ·)).nodup_iff.2 h
  refine (hsorted.and hdistinct).imp ?_
  rintro a b ⟨hle, hne⟩
  by_contra hlt
  exact hne (String.le_antisymm (of_decide_eq_true hle) hlt)

def visibleNames (tree : FileTree) (directory : String) : List String :=
  (tree.names directory).filter fun name =>
    !isHidden name && tree.isFile (Path.join directory name)

theorem inDirectory_eq (tree : FileTree) (directory : String) : inDirectory tree directory =
    ((visibleNames tree directory).mergeSort (· ≤ ·)).map (Path.join directory) := rfl

theorem names_of_isDirectory (hdir : tree.isDirectory directory = true) :
    ∃ location, tree.LeadsTo directory location ∧
      tree.names directory = tree.namesAt location := by
  obtain ⟨location, hlocate, hnode⟩ := FileTree.find_eq_ok_iff.1 (FileTree.isDirectory_iff.1 hdir)
  refine ⟨location, ⟨FileTree.walk_of_locate hlocate, FileTree.isDirectoryAt_iff.2 hnode⟩, ?_⟩
  rw [FileTree.names, hlocate]

theorem mem_visibleNames (hproper : tree.Proper) (hdir : tree.isDirectory directory = true) :
    name ∈ visibleNames tree directory ↔
      IsName name ∧ ¬ name.startsWith "." ∧ tree.isFile (Path.join directory name) = true := by
  obtain ⟨location, hlead, hnames⟩ := names_of_isDirectory hdir
  rw [visibleNames, List.mem_filter, hnames, FileTree.mem_namesAt hproper, Bool.and_eq_true,
    Bool.not_eq_true', isHidden, ← Bool.not_eq_true]
  constructor
  · rintro ⟨⟨hname, -⟩, hkept⟩
    exact ⟨hname, hkept⟩
  · rintro ⟨hname, hvisible, hfile⟩
    obtain ⟨place, hplace, hat⟩ := (FileTree.isFile_join hname).1 hfile
    obtain rfl := hlead.unique hplace
    obtain ⟨content, hcontent⟩ := FileTree.isFileAt_iff.1 hat
    exact ⟨⟨hname, _, hcontent⟩, hvisible, hfile⟩

theorem lists_inDirectory (hproper : tree.Proper) (hdistinct : tree.Distinct)
    (hdir : tree.isDirectory directory = true) :
    Lists tree directory (inDirectory tree directory) := by
  have hnodup : (visibleNames tree directory).Nodup := by
    obtain ⟨location, -, hnames⟩ := names_of_isDirectory hdir
    rw [visibleNames, hnames]
    exact (hproper.nodup_namesAt hdistinct location).filter _
  rw [inDirectory_eq]
  constructor
  · rw [List.pairwise_map]
    apply (pairwise_mergeSort hnodup).imp_of_mem
    intro name name' hname hname' hlt
    rw [List.mem_mergeSort, mem_visibleNames hproper hdir] at hname hname'
    exact Path.join_lt_join hname.1 hname'.1 hlt
  · intro file
    simp only [List.mem_map, List.mem_mergeSort, mem_visibleNames hproper hdir]
    constructor
    · rintro ⟨name, ⟨hname, hvisible, hfile⟩, rfl⟩
      exact ⟨name, hname, hvisible, rfl, hfile⟩
    · rintro ⟨name, hname, hvisible, rfl, hfile⟩
      exact ⟨name, ⟨hname, hvisible, hfile⟩, rfl⟩

/-- A file stands for itself, hidden or not, and a directory for the files that it lists. -/
inductive StandsFor (tree : FileTree) (path : String) : List String → Prop
  | file (hfile : tree.isFile path = true) : StandsFor tree path [path]
  | directory {files : List String} (hdir : tree.isDirectory path = true)
      (hlists : Lists tree path files) : StandsFor tree path files

theorem expand_of_missing (h : tree.pathExists path = false) :
    expand tree path = .error (.noSeed path) := by
  rw [← Bool.not_eq_true, FileTree.pathExists_iff, not_or] at h
  rw [expand, if_neg h.1, if_neg h.2]

theorem exists_expand (h : tree.pathExists path = true) : ∃ files, expand tree path = .ok files := by
  rw [expand]
  rcases FileTree.pathExists_iff.1 h with hfile | hdir
  · exact ⟨_, if_pos hfile⟩
  · rw [if_pos hdir]
    split <;> exact ⟨_, rfl⟩

theorem expand_eq_ok_iff (hproper : tree.Proper) (hdistinct : tree.Distinct) :
    expand tree path = .ok files ↔ StandsFor tree path files := by
  have hlists := @lists_inDirectory tree path hproper hdistinct
  rw [expand]
  constructor
  · intro h
    split at h
    · obtain rfl := Except.ok.inj h
      exact .file ‹_›
    · split at h
      · obtain rfl := Except.ok.inj h
        exact .directory ‹_› (hlists ‹_›)
      · cases h
  · rintro (hfile | ⟨hdir, hlisted⟩)
    · rw [if_pos hfile]
    · have hnofile : ¬ tree.isFile path = true := by
        rw [FileTree.isFile_iff, FileTree.isDirectory_iff.1 hdir]
        simp
      rw [if_neg hnofile, if_pos hdir, hlisted.unique (hlists hdir)]

theorem StandsFor.congr (h : StandsFor tree path files)
    (hfind : ∀ path, tree.find path = other.find path) : StandsFor other path files := by
  have hfiles : ∀ path, tree.isFile path = other.isFile path := fun path => by
    rw [FileTree.isFile, FileTree.isFile, hfind]
  cases h with
  | file hfile => exact .file (hfiles path ▸ hfile)
  | directory hdir hlists =>
    rw [FileTree.isDirectory_iff, hfind, ← FileTree.isDirectory_iff] at hdir
    refine .directory hdir ⟨hlists.ascending, fun file => ?_⟩
    rw [hlists.mem_iff, hfiles]

theorem expand_rearrange (hproper : tree.Proper) (hdistinct : tree.Distinct)
    (hsame : tree.Rearranges other) : expand other path = expand tree path := by
  have hfind := FileTree.find_congr (FileTree.node?_rearrange hdistinct hsame)
  cases hpath : tree.pathExists path with
  | false =>
    have hother : other.pathExists path = false := by
      rwa [FileTree.pathExists, ← hfind]
    rw [expand_of_missing hpath, expand_of_missing hother]
  | true =>
    obtain ⟨files, hfiles⟩ := exists_expand hpath
    have hstands := ((expand_eq_ok_iff hproper hdistinct).1 hfiles).congr hfind
    rw [hfiles]
    exact (expand_eq_ok_iff (hproper.rearrange hdistinct hsame) (hdistinct.rearrange hsame)).2 hstands

theorem resolve_cons (tree : FileTree) (path : String) (paths : List String) :
    resolve tree (path :: paths) =
      match expand tree path with
      | .error error => .error error
      | .ok part => (resolve tree paths).map (part ++ ·) := by
  rw [resolve, resolve, List.mapM_cons]
  cases expand tree path with
  | error error => rfl
  | ok part => cases paths.mapM (expand tree) <;> rfl

theorem resolve_eq_ok_iff (hproper : tree.Proper) (hdistinct : tree.Distinct) :
    resolve tree paths = .ok files ↔
      ∃ parts, List.Forall₂ (StandsFor tree) paths parts ∧ files = parts.flatten := by
  induction paths generalizing files with
  | nil =>
    have hnil : resolve tree [] = .ok [] := rfl
    simp [hnil, eq_comm]
  | cons path paths ih =>
    have hmap : ∀ part, (resolve tree paths).map (part ++ ·) = .ok files ↔
        ∃ rest, resolve tree paths = .ok rest ∧ files = part ++ rest := fun part => by
      cases resolve tree paths <;> simp [Except.map, eq_comm]
    simp only [List.forall₂_cons_left_iff, ← expand_eq_ok_iff hproper hdistinct, resolve_cons]
    cases expand tree path with
    | error error => simp
    | ok part =>
      simp only [hmap, ih, Except.ok.injEq]
      constructor
      · rintro ⟨_, ⟨parts, hparts, rfl⟩, rfl⟩
        exact ⟨_, ⟨part, parts, rfl, hparts, rfl⟩, rfl⟩
      · rintro ⟨_, ⟨_, parts, rfl, hparts, rfl⟩, rfl⟩
        exact ⟨_, ⟨parts, hparts, rfl⟩, rfl⟩

theorem resolve_of_missing (h : ∃ path ∈ paths, tree.pathExists path = false) :
    ∃ before missing after, paths = before ++ missing :: after ∧
      (∀ path ∈ before, tree.pathExists path = true) ∧ tree.pathExists missing = false ∧
      resolve tree paths = .error (.noSeed missing) := by
  induction paths with
  | nil => simp at h
  | cons path paths ih =>
    cases hpath : tree.pathExists path with
    | false =>
      refine ⟨[], path, paths, rfl, by simp, hpath, ?_⟩
      rw [resolve_cons, expand_of_missing hpath]
    | true =>
      obtain ⟨before, missing, after, rfl, hbefore, hmissing, hresolve⟩ := ih (by simpa [hpath] using h)
      refine ⟨path :: before, missing, after, rfl, by simpa [hpath] using hbefore, hmissing, ?_⟩
      obtain ⟨part, hpart⟩ := exists_expand hpath
      rw [resolve_cons, hpart, hresolve]
      rfl

/-- Over a tree whose directories may be enumerated in any order, seed paths can be resolved exactly
if there is something at each of them. The result goes path by path: a file stands for itself, and a
directory for the files directly in it that are not hidden, each once and in ascending order,
however it is enumerated. If there is nothing at some path, no seed is queued and the engine is left
as it was. -/
theorem resolve_ignores_enumeration {σ ρ : Type} (hproper : tree.Proper)
    (hdistinct : tree.Distinct) (paths : List String) :
    ((∃ files, resolve tree paths = .ok files) ↔
      ∀ path ∈ paths, tree.isFile path = true ∨ tree.isDirectory path = true) ∧
    (∀ files, resolve tree paths = .ok files ↔
      ∃ parts, List.Forall₂ (StandsFor tree) paths parts ∧ files = parts.flatten) ∧
    (∀ other, tree.Rearranges other →
      (∀ path, expand other path = expand tree path) ∧
      resolve other paths = resolve tree paths) ∧
    ((∃ path ∈ paths, tree.pathExists path = false) → ∀ engine : Engine σ ρ,
      ∃ before missing after, paths = before ++ missing :: after ∧
        (∀ path ∈ before, tree.pathExists path = true) ∧ tree.pathExists missing = false ∧
        engine.addSeedPaths tree paths = (.error (.storage (.noSeed missing)), engine)) := by
  refine ⟨?_, fun files => resolve_eq_ok_iff hproper hdistinct, ?_, ?_⟩
  · simp only [← FileTree.pathExists_iff]
    constructor
    · rintro ⟨files, hfiles⟩ path hpath
      by_contra hmissing
      rw [Bool.not_eq_true] at hmissing
      obtain ⟨-, missing, -, -, -, -, hfails⟩ := resolve_of_missing ⟨path, hpath, hmissing⟩
      cases hfiles.symm.trans hfails
    · intro hall
      choose! part hpart using fun path hpath => exists_expand (hall path hpath)
      refine ⟨_, (resolve_eq_ok_iff hproper hdistinct).2 ⟨paths.map part, ?_, rfl⟩⟩
      rw [List.forall₂_map_right_iff, List.forall₂_same]
      intro path hpath
      exact (expand_eq_ok_iff hproper hdistinct).1 (hpart path hpath)
  · intro other hsame
    have hexpand : expand other = expand tree :=
      funext fun path => expand_rearrange hproper hdistinct hsame
    refine ⟨congrFun hexpand, ?_⟩
    rw [resolve, hexpand, resolve]
  · intro hmissing engine
    obtain ⟨before, missing, after, hpaths, hbefore, hnothing, hfails⟩ := resolve_of_missing hmissing
    refine ⟨before, missing, after, hpaths, hbefore, hnothing, ?_⟩
    rw [Engine.addSeedPaths, hfails]

theorem resolve_ignores_enumeration_sample :
    let tree : FileTree := ⟨[(["s"], .directory), (["s", "b"], .file #[1]), (["s", ".h"], .file #[2]),
      (["s", "a"], .file #[3]), (["s", "n"], .directory), ([".x"], .file #[4])]⟩
    let other : FileTree := ⟨tree.entries.reverse⟩
    tree.Proper ∧ tree.Distinct ∧ tree.Rearranges other ∧ other.names "s" ≠ tree.names "s" ∧
      resolve other ["s", ".x", "s"] = .ok ["s/a", "s/b", ".x", "s/a", "s/b"] ∧
      tree.pathExists "gone" = false ∧
      ∀ engine : Engine Unit Unit, ∃ missing,
        engine.addSeedPaths tree ["s", "gone"] = (.error (.storage (.noSeed missing)), engine) := by
  intro tree other
  have hproper : tree.Proper := by
    simp only [FileTree.Proper, FileTree.HasRoomAt, tree, List.forall_mem_cons]
    exact ⟨⟨[], "s", rfl, by decide, by decide⟩, ⟨["s"], "b", rfl, by decide, by decide⟩,
      ⟨["s"], ".h", rfl, by decide, by decide⟩, ⟨["s"], "a", rfl, by decide, by decide⟩,
      ⟨["s"], "n", rfl, by decide, by decide⟩, ⟨[], ".x", rfl, by decide, by decide⟩, by simp⟩
  have hdistinct : tree.Distinct := by decide
  have hsame : tree.Rearranges other := tree.entries.reverse_perm.symm
  have hgone : tree.pathExists "gone" = false := by decide +kernel
  obtain ⟨-, -, horder, -⟩ :=
    resolve_ignores_enumeration (σ := Unit) (ρ := Unit) hproper hdistinct ["s", ".x", "s"]
  obtain ⟨-, -, -, hmissing⟩ :=
    resolve_ignores_enumeration (σ := Unit) (ρ := Unit) hproper hdistinct ["s", "gone"]
  have hvisible : visibleNames tree "s" = ["b", "a"] := by decide +kernel
  have hlisted : expand tree "s" = .ok ["s/a", "s/b"] := by
    rw [expand, if_neg (by decide +kernel), if_pos (by decide +kernel), inDirectory_eq, hvisible]
    have hsorted : ["b", "a"].mergeSort (· ≤ ·) = ["a", "b"] := by simp [List.mergeSort]
    rw [hsorted]
    decide +kernel
  have hnamed : expand tree ".x" = .ok [".x"] := if_pos (by decide +kernel)
  refine ⟨hproper, hdistinct, hsame, by decide +kernel, ?_, hgone, fun engine => ?_⟩
  · rw [(horder other hsame).2, resolve_cons, resolve_cons, resolve_cons, hlisted, hnamed]
    rfl
  · obtain ⟨-, missing, -, -, -, -, hfails⟩ := hmissing ⟨"gone", by simp, hgone⟩ engine
    exact ⟨missing, hfails⟩

end SeedFiles

end Greybox
