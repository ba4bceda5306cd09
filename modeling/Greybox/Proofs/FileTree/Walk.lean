import Greybox.Proofs.FileTree

namespace Greybox

theorem not_mem_of_mem_splitOn {separator : Char} {text part : List Char}
    (h : part ∈ text.splitOn separator) : separator ∉ part := by
  induction text generalizing part with
  | nil =>
    obtain rfl := List.mem_singleton.1 h
    exact List.not_mem_nil
  | cons c text ih =>
    rw [List.splitOn_cons_eq_if_modifyHead] at h
    split at h
    · rcases List.mem_cons.1 h with rfl | hrest
      · exact List.not_mem_nil
      · exact ih hrest
    · rename_i hc
      obtain ⟨first, rest, hsplit⟩ := List.exists_cons_of_ne_nil (List.splitOn_ne_nil separator text)
      rw [hsplit] at ih h
      rcases List.mem_cons.1 h with rfl | hrest
      · have hne : c ≠ separator := by simpa using hc
        exact List.not_mem_cons_of_ne_of_not_mem hne.symm (ih List.mem_cons_self)
      · exact ih (List.mem_cons_of_mem _ hrest)

namespace Path

variable {name part path : String} {parts : List String}

theorem not_mem_of_mem_pieces (h : part ∈ pieces path) : '/' ∉ part.toList := by
  obtain ⟨text, htext, rfl⟩ := List.mem_map.1 h
  rw [String.toList_ofList]
  exact not_mem_of_mem_splitOn htext

theorem pieces_ne_nil (path : String) : pieces path ≠ [] := by
  simp [pieces, List.splitOn_ne_nil]

theorem pieces_append_slash (front back : String) :
    pieces (front ++ "/" ++ back) = pieces front ++ pieces back := by
  have h : (front ++ "/" ++ back).toList = front.toList ++ '/' :: back.toList := by simp
  rw [pieces, h, List.splitOn_append_cons_self, List.map_append]
  rfl

theorem pieces_eq_singleton (h : '/' ∉ name.toList) : pieces name = [name] := by
  rw [pieces, List.splitOn_eq_singleton h, List.map_singleton, String.ofList_toList]

theorem pieces_empty : pieces "" = [""] := pieces_eq_singleton List.not_mem_nil

theorem startsWith_slash_of_not_mem (h : '/' ∉ name.toList) : name.startsWith "/" = false := by
  rw [Bool.eq_false_iff, Ne, String.startsWith_string_iff]
  intro hpre
  exact h (hpre.subset (by decide))

theorem exists_append_of_endsWith (h : path.endsWith "/" = true) : ∃ body, path = body ++ "/" := by
  have hend : path.toSlice.endsWith "/" = true := h
  rw [String.Slice.endsWith_string_iff] at hend
  obtain ⟨body, hbody⟩ := hend
  refine ⟨String.ofList body, ?_⟩
  rw [String.ext_iff]
  simpa using hbody.symm

def rooted : List String → List String
  | "" :: rest => "/" :: rest
  | parts => parts

theorem components_of_ne_empty (h : path ≠ "") : components path = rooted (pieces path) := by
  rw [components]
  split
  · rename_i heq
    rw [if_neg (by simpa using h), heq, rooted]
  · rename_i hother
    rw [rooted.eq_2 _ hother]

theorem rooted_append (h : parts ≠ []) (more : List String) :
    rooted (parts ++ more) = rooted parts ++ more := by
  obtain ⟨first, rest, rfl⟩ := List.exists_cons_of_ne_nil h
  by_cases hfirst : first = ""
  · subst first
    rfl
  · simp [rooted, hfirst]

theorem components_name (hname : IsName name) : components name = [name] := by
  rw [components_of_ne_empty hname.ne_empty, pieces_eq_singleton hname.no_slash]
  simp [rooted, hname.ne_empty]

theorem components_join (hname : IsName name) (directory : String) : ∃ front,
    components (join directory name) = front ++ [name] ∧
      (components directory = front ∨ components directory = front ++ [""]) := by
  have hstart := startsWith_slash_of_not_mem hname.no_slash
  have hone := pieces_eq_singleton hname.no_slash
  by_cases hempty : directory = ""
  · subst directory
    exact ⟨[], by simpa [join] using components_name hname, .inl (by decide)⟩
  have hjoin : join directory name =
      if directory.endsWith "/" then directory ++ name else directory ++ "/" ++ name := by
    simp [join, hstart, hempty]
  by_cases hend : directory.endsWith "/" = true
  · obtain ⟨body, rfl⟩ := exists_append_of_endsWith hend
    have hlast : pieces (body ++ "/") = pieces body ++ [""] := by
      rw [← @String.append_empty (body ++ "/"), pieces_append_slash, pieces_empty]
    refine ⟨rooted (pieces body), ?_, .inr ?_⟩
    · rw [hjoin, if_pos hend, components_of_ne_empty (by simp), pieces_append_slash, hone,
        rooted_append (pieces_ne_nil body)]
    · rw [components_of_ne_empty hempty, hlast, rooted_append (pieces_ne_nil body)]
  · refine ⟨rooted (pieces directory), ?_, .inl (components_of_ne_empty hempty)⟩
    rw [hjoin, if_neg hend, components_of_ne_empty (by simp), pieces_append_slash, hone,
      rooted_append (pieces_ne_nil directory)]

end Path

def Location.follow (location : Location) (part : String) : Location :=
  if part = "" ∨ part = "." then location
  else if part = ".." then location.parent
  else location ++ [part]

theorem Location.follow_empty (location : Location) : location.follow "" = location :=
  if_pos (.inl rfl)

theorem Location.follow_name {name : String} (hname : IsName name) (location : Location) :
    location.follow name = location ++ [name] := by
  rw [follow, if_neg (by simp [hname.ne_empty, hname.ne_dot]), if_neg hname.ne_dots]

namespace FileTree

variable {tree after : FileTree} {start place location : Location} {node : Node}
  {part name directory path : String} {parts front back : List String}

theorem walk_nil_eq_ok_iff : tree.walk start [] = .ok place ↔ place = start := by
  rw [walk, Except.ok.injEq, eq_comm]

theorem walk_cons_eq_ok_iff : tree.walk start (part :: parts) = .ok place ↔
    tree.isDirectoryAt start = true ∧ tree.walk (start.follow part) parts = .ok place := by
  rw [isDirectoryAt_iff, walk, Location.follow]
  cases tree.node? start with
  | none => simp
  | some node =>
    cases node with
    | file content => simp
    | directory =>
      simp only [true_and]
      split
      · rfl
      · split <;> rfl

theorem walk_append_eq_ok_iff : tree.walk start (front ++ back) = .ok place ↔
    ∃ middle, tree.walk start front = .ok middle ∧ tree.walk middle back = .ok place := by
  induction front generalizing start with
  | nil => simp [walk_nil_eq_ok_iff]
  | cons part front ih =>
    simp only [List.cons_append, walk_cons_eq_ok_iff, ih, and_assoc, exists_and_left]

theorem isDirectoryAt_of_walk (h : tree.walk start parts = .ok place)
    (hdir : tree.isDirectoryAt place = true) : tree.isDirectoryAt start = true := by
  cases parts with
  | nil => rwa [← walk_nil_eq_ok_iff.1 h]
  | cons part parts => exact (walk_cons_eq_ok_iff.1 h).1

theorem Keeps.walk (h : tree.Keeps after) (hwalk : tree.walk start parts = .ok place) :
    after.walk start parts = .ok place := by
  induction parts generalizing start with
  | nil => exact hwalk
  | cons part parts ih =>
    obtain ⟨hdir, hrest⟩ := walk_cons_eq_ok_iff.1 hwalk
    exact walk_cons_eq_ok_iff.2 ⟨h start hdir, ih hrest⟩

theorem locate_of_ne_nil (tree : FileTree) (h : parts ≠ []) :
    tree.locate parts = tree.walk [] parts := by
  rw [locate.eq_def]
  split
  · exact absurd rfl h
  · rfl
  · rfl

theorem walk_of_locate (h : tree.locate parts = .ok place) : tree.walk [] parts = .ok place := by
  have hparts : parts ≠ [] := by
    rintro rfl
    cases h
  rwa [← locate_of_ne_nil tree hparts]

def Reaches (tree : FileTree) (start : Location) (parts : List String) (location : Location) : Prop :=
  tree.walk start parts = .ok location ∧ tree.isDirectoryAt location = true

/-- The path leads to a directory. The empty path stands for the working directory. -/
def LeadsTo (tree : FileTree) (path : String) (location : Location) : Prop :=
  tree.Reaches [] (Path.components path) location

theorem Keeps.reaches (h : tree.Keeps after) (hreach : tree.Reaches start parts location) :
    after.Reaches start parts location := ⟨h.walk hreach.1, h _ hreach.2⟩

theorem Reaches.unique (h : tree.Reaches start parts location) (h' : tree.Reaches start parts place) :
    location = place := Except.ok.inj (h.1.symm.trans h'.1)

theorem reaches_cons : tree.Reaches start (part :: parts) location ↔
    tree.isDirectoryAt start = true ∧ tree.Reaches (start.follow part) parts location := by
  rw [Reaches, walk_cons_eq_ok_iff, and_assoc]
  rfl

theorem reaches_filter :
    tree.Reaches start (parts.filter fun part => part ≠ "" ∧ part ≠ ".") location ↔
      tree.Reaches start parts location := by
  induction parts generalizing start with
  | nil => rfl
  | cons part parts ih =>
    rw [List.filter_cons]
    split
    · rw [reaches_cons, reaches_cons, ih]
    · rename_i hdrop
      rw [decide_eq_true_eq, ← not_or, Decidable.not_not] at hdrop
      have hstay : start.follow part = start := by rw [Location.follow, if_pos hdrop]
      rw [ih, reaches_cons, hstay, iff_and_self]
      exact fun h => isDirectoryAt_of_walk h.1 h.2

theorem locate_join (hname : IsName name) : tree.locate (Path.components (Path.join directory name)) =
    .ok place ↔ ∃ location, tree.LeadsTo directory location ∧ place = location ++ [name] := by
  obtain ⟨front, hjoin, hdirectory⟩ := Path.components_join hname directory
  have hlead : ∀ location, tree.LeadsTo directory location ↔
      tree.walk [] front = .ok location ∧ tree.isDirectoryAt location = true := by
    intro location
    rcases hdirectory with hsame | hslash
    · rw [LeadsTo, hsame, Reaches]
    · rw [LeadsTo, hslash, Reaches, walk_append_eq_ok_iff]
      simp only [walk_cons_eq_ok_iff, walk_nil_eq_ok_iff, Location.follow_empty]
      constructor
      · rintro ⟨⟨middle, hwalk, hdir, rfl⟩, -⟩
        exact ⟨hwalk, hdir⟩
      · rintro ⟨hwalk, hdir⟩
        exact ⟨⟨location, hwalk, hdir, rfl⟩, hdir⟩
  rw [hjoin, locate_of_ne_nil _ (by simp), walk_append_eq_ok_iff]
  simp only [walk_cons_eq_ok_iff, walk_nil_eq_ok_iff, Location.follow_name hname, hlead, and_assoc]

theorem leadsTo_join (hname : IsName name) : tree.LeadsTo (Path.join directory name) place ↔
    ∃ location, tree.LeadsTo directory location ∧ place = location ++ [name] ∧
      tree.isDirectoryAt place = true := by
  have hparts : Path.components (Path.join directory name) ≠ [] := by
    obtain ⟨front, hjoin, -⟩ := Path.components_join hname directory
    simp [hjoin]
  rw [LeadsTo, Reaches, ← locate_of_ne_nil tree hparts, locate_join hname]
  simp only [← and_assoc, exists_and_right]

theorem find_eq_ok_iff : tree.find path = .ok node ↔
    ∃ location, tree.locate (Path.components path) = .ok location ∧
      tree.node? location = some node := by
  cases hlocate : tree.locate (Path.components path) with
  | error error => simp [find, hlocate, bind, Except.bind]
  | ok location =>
    cases hnode : tree.node? location <;> simp [find, hlocate, bind, Except.bind, hnode]

theorem isFile_iff : tree.isFile path = true ↔ ∃ content, tree.find path = .ok (.file content) := by
  rw [isFile]
  split
  · exact iff_of_true rfl ⟨_, ‹_›⟩
  · rename_i hother
    exact iff_of_false Bool.false_ne_true fun ⟨content, hfile⟩ => hother content hfile

theorem isDirectory_iff : tree.isDirectory path = true ↔ tree.find path = .ok .directory := by
  rw [isDirectory]
  split
  · exact iff_of_true rfl ‹_›
  · exact iff_of_false Bool.false_ne_true ‹_›

theorem pathExists_iff : tree.pathExists path = true ↔
    tree.isFile path = true ∨ tree.isDirectory path = true := by
  rw [isFile_iff, isDirectory_iff, pathExists]
  cases tree.find path with
  | error error => simp [Except.toBool]
  | ok node => cases node <;> simp [Except.toBool]

theorem isFile_join (hname : IsName name) : tree.isFile (Path.join directory name) = true ↔
    ∃ location, tree.LeadsTo directory location ∧ tree.isFileAt (location ++ [name]) = true := by
  simp only [isFile_iff, isFileAt_iff, find_eq_ok_iff, locate_join hname]
  constructor
  · rintro ⟨content, place, ⟨location, hlead, rfl⟩, hfile⟩
    exact ⟨location, hlead, content, hfile⟩
  · rintro ⟨location, hlead, content, hfile⟩
    exact ⟨content, _, ⟨location, hlead, rfl⟩, hfile⟩

end FileTree

end Greybox
