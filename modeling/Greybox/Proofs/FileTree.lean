import Greybox.FileTree

namespace Greybox

/-- What an entry of a directory may be called: anything but the words for directories themselves,
and without a slash. -/
structure IsName (name : String) : Prop where
  ne_empty : name ≠ ""
  ne_dot : name ≠ "."
  ne_dots : name ≠ ".."
  no_slash : '/' ∉ name.toList

instance : DecidablePred IsName := fun name =>
  decidable_of_iff (name ≠ "" ∧ name ≠ "." ∧ name ≠ ".." ∧ '/' ∉ name.toList)
    ⟨fun ⟨hempty, hdot, hdots, hslash⟩ => ⟨hempty, hdot, hdots, hslash⟩,
      fun ⟨hempty, hdot, hdots, hslash⟩ => ⟨hempty, hdot, hdots, hslash⟩⟩

namespace Location

variable {directory location : Location} {name : String}

def IsFixed (location : Location) : Prop := location.isAncestral ∨ location = ["/"]

theorem not_isFixed_concat (hname : IsName name) (directory : Location) :
    ¬ IsFixed (directory ++ [name]) := by
  rintro (hup | hroot)
  · simp only [isAncestral, List.all_append, List.all_cons, Bool.and_eq_true,
      decide_eq_true_eq] at hup
    exact hname.ne_dots hup.2.1
  · have hlast : name = "/" := by simpa using congrArg List.getLast? hroot
    subst hlast
    exact hname.no_slash (by decide)

theorem parent_concat (hname : IsName name) (directory : Location) :
    parent (directory ++ [name]) = directory := by
  obtain ⟨hup, hroot⟩ := not_or.1 (not_isFixed_concat hname directory)
  rw [parent, if_neg hroot, if_neg hup, List.dropLast_concat]

end Location

namespace FileTree

variable {tree after last : FileTree} {location other : Location} {node : Node} {content : Bytes}
  {name : String}

theorem node?_of_isFixed (tree : FileTree) (h : location.IsFixed) :
    tree.node? location = some .directory := if_pos h

theorem node?_of_not_isFixed (tree : FileTree) (h : ¬ location.IsFixed) :
    tree.node? location = tree.entries.lookup location := if_neg h

theorem not_isFixed_of_file (h : tree.node? location = some (.file content)) :
    ¬ location.IsFixed := by
  intro hfixed
  cases (node?_of_isFixed tree hfixed).symm.trans h

theorem not_isFixed_of_none (h : tree.node? location = none) : ¬ location.IsFixed := by
  intro hfixed
  cases (node?_of_isFixed tree hfixed).symm.trans h

theorem isDirectoryAt_iff :
    tree.isDirectoryAt location = true ↔ tree.node? location = some .directory := by
  rw [isDirectoryAt, decide_eq_true_eq]

theorem isFileAt_iff :
    tree.isFileAt location = true ↔ ∃ content, tree.node? location = some (.file content) := by
  rw [isFileAt]
  split
  · exact iff_of_true rfl ⟨_, ‹_›⟩
  · rename_i hnone
    exact iff_of_false Bool.false_ne_true fun ⟨content, hfile⟩ => hnone content hfile

theorem lookup_filter_ne {entries : List (Location × Node)} (h : location ≠ other) :
    (entries.filter (·.1 ≠ other)).lookup location = entries.lookup location := by
  induction entries with
  | nil => rfl
  | cons entry entries ih =>
    obtain ⟨key, node⟩ := entry
    by_cases hkey : key = other
    · have hmiss : (location == key) = false := by simpa [hkey] using h
      rw [List.filter_cons_of_neg (by simpa using hkey), List.lookup_cons, hmiss]
      exact ih
    · rw [List.filter_cons_of_pos (by simpa using hkey), List.lookup_cons, List.lookup_cons, ih]

theorem lookup_filter_self (entries : List (Location × Node)) (location : Location) :
    (entries.filter (·.1 ≠ location)).lookup location = none := by
  rw [List.lookup_eq_none_iff]
  intro entry hentry
  have hne : entry.1 ≠ location := by simpa using (List.mem_filter.1 hentry).2
  simpa using hne.symm

theorem node?_eraseAt_of_ne (tree : FileTree) (h : location ≠ other) :
    (tree.eraseAt other).node? location = tree.node? location := by
  by_cases hfixed : location.IsFixed
  · rw [node?_of_isFixed _ hfixed, node?_of_isFixed _ hfixed]
  · rw [node?_of_not_isFixed _ hfixed, node?_of_not_isFixed _ hfixed]
    exact lookup_filter_ne h

theorem node?_eraseAt_self (h : tree.isFileAt location = true) :
    (tree.eraseAt location).node? location = none := by
  obtain ⟨content, hfile⟩ := isFileAt_iff.1 h
  rw [node?_of_not_isFixed _ (not_isFixed_of_file hfile)]
  exact lookup_filter_self _ _

theorem lookup_map_set (entries : List (Location × Node)) (location other : Location) (node : Node) :
    (entries.map fun entry => if entry.1 = location then (location, node) else entry).lookup other =
      if other = location then (entries.lookup location).map fun _ => node
      else entries.lookup other := by
  induction entries with
  | nil => split <;> rfl
  | cons entry entries ih =>
    obtain ⟨key, old⟩ := entry
    by_cases hother : other = location
    · subst other
      by_cases hkey : key = location
      · simp [hkey]
      · have hmiss : (location == key) = false := by simpa using Ne.symm hkey
        simpa [List.lookup_cons, hkey, hmiss] using ih
    · by_cases hkey : key = location
      · have hmiss : (other == location) = false := by simpa using hother
        simpa [List.lookup_cons, hkey, hother, hmiss] using ih
      · rw [if_neg hother] at ih
        simp [List.lookup_cons, hkey, hother, ih]

theorem node?_set (h : ¬ location.IsFixed) (tree : FileTree) (node : Node) (other : Location) :
    (tree.set location node).node? other = if other = location then some node else tree.node? other := by
  by_cases hother : other.IsFixed
  · have hne : other ≠ location := fun heq => h (heq ▸ hother)
    rw [if_neg hne, node?_of_isFixed _ hother, node?_of_isFixed _ hother]
  rw [node?_of_not_isFixed _ hother, node?_of_not_isFixed _ hother, set]
  split
  · rename_i hsome
    obtain ⟨old, hold⟩ := Option.isSome_iff_exists.1 hsome
    rw [lookup_map_set, hold, Option.map_some]
  · rename_i hnone
    rw [Bool.not_eq_true, Option.isSome_eq_false_iff, Option.isNone_iff_eq_none] at hnone
    rw [List.lookup_append]
    split
    · subst other
      simp [hnone]
    · have hmiss : (other == location) = false := by simpa using ‹_›
      simp [List.lookup_cons, hmiss]

theorem mem_entries_set {entry : Location × Node} (h : entry ∈ (tree.set location node).entries) :
    entry ∈ tree.entries ∨ entry.1 = location := by
  rw [set] at h
  split at h
  · obtain ⟨old, hold, rfl⟩ := List.mem_map.1 h
    split
    · exact .inr rfl
    · exact .inl hold
  · rcases List.mem_append.1 h with hold | hnew
    · exact .inl hold
    · exact .inr (congrArg Prod.fst (List.mem_singleton.1 hnew))

def HasRoomAt (tree : FileTree) (location : Location) : Prop :=
  ∃ directory name, location = directory ++ [name] ∧ IsName name ∧
    tree.isDirectoryAt directory = true

/-- Every entry has a name and lies in a directory. -/
def Proper (tree : FileTree) : Prop := ∀ entry ∈ tree.entries, tree.HasRoomAt entry.1

theorem proper_empty : (∅ : FileTree).Proper := fun _ hentry => absurd hentry List.not_mem_nil

theorem mem_of_node? (hfixed : ¬ location.IsFixed) (h : tree.node? location = some node) :
    (location, node) ∈ tree.entries := by
  rw [node?_of_not_isFixed _ hfixed, List.lookup_eq_some_iff] at h
  obtain ⟨before, rest, heq, -⟩ := h
  rw [heq]
  exact List.mem_append_right _ List.mem_cons_self

theorem Proper.isName (h : tree.Proper)
    (hfile : tree.node? (location ++ [name]) = some (.file content)) : IsName name := by
  have hentry := mem_of_node? (not_isFixed_of_file hfile) hfile
  obtain ⟨directory, last, heq, hlast, -⟩ := h _ hentry
  have hsame : some name = some last := by simpa using congrArg List.getLast? heq
  rwa [Option.some.inj hsame]

theorem Proper.isDirectoryAt_parent (h : tree.Proper) (hdir : tree.isDirectoryAt location = true) :
    tree.isDirectoryAt location.parent = true := by
  by_cases hfixed : location.IsFixed
  · have hparent : location.parent.IsFixed := by
      rw [Location.parent]
      split
      · exact hfixed
      · have hup := hfixed.resolve_right ‹_›
        rw [if_pos hup]
        exact .inl (by simpa [Location.isAncestral] using hup)
    exact isDirectoryAt_iff.2 (node?_of_isFixed _ hparent)
  · obtain ⟨directory, name, heq, hname, hlies⟩ :=
      h _ (mem_of_node? hfixed (isDirectoryAt_iff.1 hdir))
    obtain rfl : location = directory ++ [name] := heq
    rwa [Location.parent_concat hname]

theorem mem_namesAt (h : tree.Proper) : name ∈ tree.namesAt location ↔
    IsName name ∧ ∃ node, tree.node? (location ++ [name]) = some node := by
  simp only [namesAt, List.mem_filterMap, Option.ite_none_right_eq_some]
  constructor
  · rintro ⟨⟨place, node⟩, hentry, hparent, hlast⟩
    obtain ⟨directory, last, rfl, hname, -⟩ := h _ hentry
    rw [Location.parent_concat hname] at hparent
    rw [List.getLast?_concat, Option.some.injEq] at hlast
    subst hparent hlast
    refine ⟨hname, ?_⟩
    rw [node?_of_not_isFixed _ (Location.not_isFixed_concat hname _)]
    cases hlookup : tree.entries.lookup (directory ++ [last]) with
    | some node => exact ⟨node, rfl⟩
    | none =>
      rw [List.lookup_eq_none_iff] at hlookup
      simpa using hlookup _ hentry
  · rintro ⟨hname, node, hnode⟩
    refine ⟨_, mem_of_node? (Location.not_isFixed_concat hname _) hnode, ?_, ?_⟩
    · exact Location.parent_concat hname _
    · exact List.getLast?_concat

def Keeps (tree after : FileTree) : Prop :=
  ∀ location, tree.isDirectoryAt location = true → after.isDirectoryAt location = true

theorem HasRoomAt.mono (h : tree.HasRoomAt location) (hkeeps : tree.Keeps after) :
    after.HasRoomAt location := by
  obtain ⟨directory, name, heq, hname, hdir⟩ := h
  exact ⟨directory, name, heq, hname, hkeeps directory hdir⟩

/-- Directories were made where nothing was; all else is as before. -/
def Grows (tree after : FileTree) : Prop :=
  ∀ location, after.node? location = tree.node? location ∨
    tree.node? location = none ∧ after.node? location = some .directory

/-- The files at such locations are gone; all else is as before. -/
def Loses (gone : Location → Prop) (tree after : FileTree) : Prop :=
  ∀ location, (gone location ∧ tree.isFileAt location = true → after.node? location = none) ∧
    (¬ (gone location ∧ tree.isFileAt location = true) → after.node? location = tree.node? location)

theorem Grows.refl (tree : FileTree) : tree.Grows tree := fun _ => .inl rfl

theorem Loses.refl {gone : Location → Prop}
    (h : ∀ location, gone location → ¬ tree.isFileAt location = true) : Loses gone tree tree :=
  fun location => ⟨fun hlost => absurd hlost.2 (h location hlost.1), fun _ => rfl⟩

theorem Grows.trans (h : tree.Grows after) (h' : after.Grows last) : tree.Grows last := by
  intro location
  rcases h location with hsame | ⟨hnone, hmade⟩ <;>
    rcases h' location with hsame' | ⟨hnone', hmade'⟩
  · exact .inl (hsame'.trans hsame)
  · exact .inr ⟨hsame.symm.trans hnone', hmade'⟩
  · exact .inr ⟨hnone, hsame'.trans hmade⟩
  · cases hmade.symm.trans hnone'

theorem Grows.keeps (h : tree.Grows after) : tree.Keeps after := by
  intro location hdir
  rw [isDirectoryAt_iff] at hdir ⊢
  obtain hsame | ⟨hnone, -⟩ := h location
  · exact hsame.trans hdir
  · cases hdir.symm.trans hnone

theorem Grows.file_iff (h : tree.Grows after) :
    after.node? location = some (.file content) ↔ tree.node? location = some (.file content) := by
  obtain hsame | ⟨hnone, hmade⟩ := h location
  · rw [hsame]
  · simp [hnone, hmade]

theorem Loses.keeps {gone : Location → Prop} (h : Loses gone tree after) : tree.Keeps after := by
  intro location hdir
  rw [isDirectoryAt_iff] at hdir ⊢
  rw [(h location).2, hdir]
  rintro ⟨-, hfile⟩
  obtain ⟨content, hcontent⟩ := isFileAt_iff.1 hfile
  cases hdir.symm.trans hcontent

theorem Loses.file_iff {gone : Location → Prop} (h : Loses gone tree after) :
    after.node? location = some (.file content) ↔
      tree.node? location = some (.file content) ∧ ¬ gone location := by
  obtain ⟨hgone, hkept⟩ := h location
  by_cases hlost : gone location ∧ tree.isFileAt location = true
  · simp [hgone hlost, hlost.1]
  · rw [hkept hlost, iff_self_and]
    intro hfile hat
    exact hlost ⟨hat, isFileAt_iff.2 ⟨content, hfile⟩⟩

theorem Loses.isFileAt_iff {gone : Location → Prop} (h : Loses gone tree after) :
    after.isFileAt location = true ↔ tree.isFileAt location = true ∧ ¬ gone location := by
  simp only [FileTree.isFileAt_iff, h.file_iff, exists_and_right]

theorem Loses.congr {gone gone' : Location → Prop} (h : Loses gone tree after)
    (heq : ∀ location, tree.isFileAt location = true → (gone' location ↔ gone location)) :
    Loses gone' tree after := by
  intro location
  rw [and_congr_left (heq location)]
  exact h location

theorem Loses.trans {gone gone' : Location → Prop} (h : Loses gone tree after)
    (h' : Loses gone' after last) :
    Loses (fun location => gone location ∨ gone' location) tree last := by
  intro location
  obtain ⟨hgone, hkept⟩ := h location
  obtain ⟨hgone', hkept'⟩ := h' location
  rw [h.isFileAt_iff] at hgone' hkept'
  by_cases hlost : gone location ∧ tree.isFileAt location = true
  · -- What the first change took is no file any more, so the second one leaves it alone.
    have hstays := hkept' fun h => h.2.2 hlost.1
    exact ⟨fun _ => hstays.trans (hgone hlost), fun hnot => absurd ⟨.inl hlost.1, hlost.2⟩ hnot⟩
  · constructor
    · rintro ⟨hlater, hfile⟩
      have hnot : ¬ gone location := fun h => hlost ⟨h, hfile⟩
      exact hgone' ⟨hlater.resolve_left hnot, hfile, hnot⟩
    · intro hnot
      rw [hkept' fun h => hnot ⟨.inr h.1, h.2.1⟩, hkept hlost]

theorem loses_eraseAt (h : tree.isFileAt location = true) :
    Loses (· = location) tree (tree.eraseAt location) := by
  intro other
  constructor
  · rintro ⟨rfl, -⟩
    exact node?_eraseAt_self h
  · intro hnot
    exact node?_eraseAt_of_ne tree fun heq => hnot ⟨heq, heq ▸ h⟩

theorem Proper.eraseAt (h : tree.Proper) (hfile : tree.isFileAt location = true) :
    (tree.eraseAt location).Proper := by
  intro entry hentry
  exact (h entry (List.mem_filter.1 hentry).1).mono (loses_eraseAt hfile).keeps

theorem grows_set (h : tree.node? location = none) :
    tree.Grows (tree.set location .directory) := by
  intro other
  rw [node?_set (not_isFixed_of_none h)]
  split
  · subst other
    exact .inr ⟨h, rfl⟩
  · exact .inl rfl

theorem HasRoomAt.not_isFixed (h : tree.HasRoomAt location) : ¬ location.IsFixed := by
  obtain ⟨directory, name, rfl, hname, -⟩ := h
  exact Location.not_isFixed_concat hname directory

theorem Proper.set (h : tree.Proper) (hroom : tree.HasRoomAt location)
    (hfree : ¬ tree.isDirectoryAt location = true) (node : Node) : (tree.set location node).Proper := by
  have hkeeps : tree.Keeps (tree.set location node) := by
    intro other hother
    have hne : other ≠ location := fun heq => hfree (heq ▸ hother)
    rw [isDirectoryAt_iff] at hother ⊢
    rw [node?_set hroom.not_isFixed, if_neg hne, hother]
  intro entry hentry
  rcases mem_entries_set hentry with hold | hnew
  · exact (h entry hold).mono hkeeps
  · rw [hnew]
    exact hroom.mono hkeeps

end FileTree

end Greybox
