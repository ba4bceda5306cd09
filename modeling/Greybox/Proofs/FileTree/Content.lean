import Greybox.Proofs.FileTree.Directories

namespace Greybox

theorem exists_eq_ok {ε α σ : Type} {outcome : Except ε α × σ} (h : outcome.1.isOk = true) :
    ∃ value later, outcome = (.ok value, later) := by
  obtain ⟨result, later⟩ := outcome
  cases result with
  | error error => cases h
  | ok value => exact ⟨value, later, rfl⟩

namespace FileTree

variable {tree after last : FileTree} {location place : Location} {path : String} {content : Bytes}
  {parts : List String} {change : Bytes → Bytes}

def contentAt (tree : FileTree) (location : Location) : Bytes :=
  match tree.node? location with
  | some (.file content) => content
  | _ => #[]

theorem contentAt_of_file (h : tree.node? location = some (.file content)) :
    tree.contentAt location = content := by
  rw [contentAt, h]

theorem contentAt_of_none (h : tree.node? location = none) : tree.contentAt location = #[] := by
  rw [contentAt, h]

/-- The location got a file with the content; everything else is as before. -/
structure Writes (tree : FileTree) (location : Location) (content : Bytes) (after : FileTree) :
    Prop where
  free : tree.isDirectoryAt location = false
  node?_eq : ∀ place, after.node? place =
    if place = location then some (.file content) else tree.node? place

namespace Writes

variable (h : tree.Writes location content after)

include h

theorem node?_self : after.node? location = some (.file content) := by
  rw [h.node?_eq, if_pos rfl]

theorem node?_of_ne (hne : place ≠ location) : after.node? place = tree.node? place := by
  rw [h.node?_eq, if_neg hne]

theorem isDirectoryAt_eq (place : Location) : after.isDirectoryAt place = tree.isDirectoryAt place := by
  by_cases hplace : place = location
  · subst place
    rw [h.free, isDirectoryAt, h.node?_self]
    rfl
  · rw [isDirectoryAt, h.node?_of_ne hplace, isDirectoryAt]

theorem keeps : tree.Keeps after := by
  intro place hdir
  rwa [h.isDirectoryAt_eq]

end Writes

theorem Keeps.locate (h : tree.Keeps after) (hlocate : tree.locate parts = .ok place) :
    after.locate parts = .ok place := by
  have hparts : parts ≠ [] := by
    rintro rfl
    cases hlocate
  rw [locate_of_ne_nil _ hparts]
  exact h.walk (walk_of_locate hlocate)

theorem writes_set (hfree : tree.isDirectoryAt location = false) (content : Bytes) :
    tree.Writes location content (tree.set location (.file content)) := by
  refine ⟨hfree, fun place => node?_set ?_ tree _ place⟩
  intro hfixed
  rw [isDirectoryAt_iff.2 (node?_of_isFixed tree hfixed)] at hfree
  cases hfree

theorem modifyFile_writes (change : Bytes → Bytes)
    (hlocate : tree.locate (Path.components path) = .ok location)
    (hfree : tree.isDirectoryAt location = false) :
    ∃ after, tree.modifyFile path change = .ok after ∧
      tree.Writes location (change (tree.contentAt location)) after := by
  refine ⟨_, ?_, writes_set hfree _⟩
  simp only [modifyFile, hlocate, bind, Except.bind, contentAt]
  cases hnode : tree.node? location with
  | none => rfl
  | some node =>
    cases node with
    | file content => rfl
    | directory => simp [isDirectoryAt, hnode] at hfree

theorem modifyFile_of_isDirectoryAt (hlocate : tree.locate (Path.components path) = .ok location)
    (hdir : tree.isDirectoryAt location = true) :
    tree.modifyFile path change = .error .isADirectory := by
  simp only [modifyFile, hlocate, bind, Except.bind, isDirectoryAt_iff.1 hdir]

theorem writes_of_modifyFile (h : tree.modifyFile path change = .ok after) :
    ∃ location, tree.locate (Path.components path) = .ok location ∧
      tree.Writes location (change (tree.contentAt location)) after := by
  cases hlocate : tree.locate (Path.components path) with
  | error error => simp [modifyFile, hlocate, bind, Except.bind] at h
  | ok location =>
    cases hdir : tree.isDirectoryAt location with
    | true =>
      rw [modifyFile_of_isDirectoryAt hlocate hdir] at h
      cases h
    | false =>
      obtain ⟨after', hmodify, hwrites⟩ := modifyFile_writes change hlocate hdir
      obtain rfl := Except.ok.inj (hmodify.symm.trans h)
      exact ⟨location, rfl, hwrites⟩

theorem read_eq_ok_iff : tree.read path = .ok content ↔
    ∃ location, tree.locate (Path.components path) = .ok location ∧
      tree.node? location = some (.file content) := by
  rw [← find_eq_ok_iff, read]
  cases tree.find path with
  | error error => simp [bind, Except.bind]
  | ok node => cases node <;> simp [bind, Except.bind]

theorem read_of_write (h : tree.write path content = .ok after) : after.read path = .ok content := by
  obtain ⟨location, hlocate, hwrites⟩ := writes_of_modifyFile h
  exact read_eq_ok_iff.2 ⟨location, hwrites.keeps.locate hlocate, hwrites.node?_self⟩

end FileTree

end Greybox
