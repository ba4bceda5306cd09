import Greybox.Proofs.FileTree.Walk

namespace Greybox.FileTree

variable {tree other : FileTree} {start location place : Location} {node : Node}
  {parts : List String}

/-- No place has two entries. -/
def Distinct (tree : FileTree) : Prop := (tree.entries.map Prod.fst).Nodup

instance (tree : FileTree) : Decidable tree.Distinct :=
  inferInstanceAs (Decidable (tree.entries.map Prod.fst).Nodup)

/-- The same entries, in whatever order directories are enumerated. -/
def Rearranges (tree other : FileTree) : Prop := tree.entries.Perm other.entries

theorem Distinct.rearrange (h : tree.Distinct) (hsame : tree.Rearranges other) : other.Distinct :=
  (hsame.map Prod.fst).nodup_iff.1 h

theorem lookup_eq_some_iff_mem {entries : List (Location × Node)}
    (h : (entries.map Prod.fst).Nodup) :
    entries.lookup location = some node ↔ (location, node) ∈ entries := by
  induction entries with
  | nil => simp
  | cons entry entries ih =>
    obtain ⟨key, old⟩ := entry
    obtain ⟨hfresh, hrest⟩ := List.nodup_cons.1 h
    by_cases hkey : location = key
    · subst key
      have hnone : (location, node) ∉ entries := fun hmem =>
        hfresh (List.mem_map.2 ⟨_, hmem, rfl⟩)
      simp [hnone, eq_comm]
    · have hmiss : (location == key) = false := by simpa using hkey
      rw [List.lookup_cons, hmiss, ih hrest]
      simp [hkey]

theorem node?_rearrange (h : tree.Distinct) (hsame : tree.Rearranges other) :
    tree.node? = other.node? := by
  funext location
  by_cases hfixed : location.IsFixed
  · rw [node?_of_isFixed _ hfixed, node?_of_isFixed _ hfixed]
  · rw [node?_of_not_isFixed _ hfixed, node?_of_not_isFixed _ hfixed]
    apply Option.ext
    intro node
    rw [lookup_eq_some_iff_mem h, lookup_eq_some_iff_mem (h.rearrange hsame), hsame.mem_iff]

theorem Proper.rearrange (h : tree.Proper) (hdistinct : tree.Distinct)
    (hsame : tree.Rearranges other) : other.Proper := by
  have hkeeps : tree.Keeps other := by
    intro location hdir
    rwa [isDirectoryAt, ← node?_rearrange hdistinct hsame]
  intro entry hentry
  exact (h entry (hsame.mem_iff.2 hentry)).mono hkeeps

theorem walk_congr (h : tree.node? = other.node?) (start : Location) (parts : List String) :
    tree.walk start parts = other.walk start parts := by
  induction parts generalizing start with
  | nil => rfl
  | cons part parts ih => simp only [walk, h, ih]

theorem find_congr (h : tree.node? = other.node?) (path : String) :
    tree.find path = other.find path := by
  have hlocate : tree.locate (Path.components path) = other.locate (Path.components path) := by
    by_cases hparts : Path.components path = []
    · rw [hparts, locate, locate]
    · rw [locate_of_ne_nil _ hparts, locate_of_ne_nil _ hparts, walk_congr h]
  rw [find, find, hlocate, h]

theorem HasRoomAt.eq_concat {name : String} (h : tree.HasRoomAt place)
    (hlisted : (if place.parent = location then place.getLast? else none) = some name) :
    place = location ++ [name] := by
  obtain ⟨directory, last, rfl, hname, -⟩ := h
  rw [Option.ite_none_right_eq_some, Location.parent_concat hname, List.getLast?_concat,
    Option.some.injEq] at hlisted
  rw [hlisted.1, hlisted.2]

theorem Proper.nodup_namesAt (h : tree.Proper) (hdistinct : tree.Distinct) (location : Location) :
    (tree.namesAt location).Nodup := by
  rw [namesAt, List.Nodup, List.pairwise_filterMap]
  apply (List.pairwise_map.1 hdistinct).imp_of_mem
  intro entry entry' hentry hentry' hne name hname name' hname' heq
  have hplace := (h entry hentry).eq_concat hname
  have hplace' := (h entry' hentry').eq_concat hname'
  exact hne (by rw [hplace, hplace', heq])

end Greybox.FileTree
