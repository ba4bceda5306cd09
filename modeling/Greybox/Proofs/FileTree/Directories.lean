import Greybox.Proofs.FileTree.Walk

namespace Greybox

namespace Path

variable {parts fewer : List String}

def IsPlain (parts : List String) : Prop :=
  ∃ names, (parts = names ∨ parts = "/" :: names) ∧ ∀ name ∈ names, '/' ∉ name.toList

theorem IsPlain.sublist (h : IsPlain parts) (hfewer : fewer.Sublist parts) : IsPlain fewer := by
  obtain ⟨names, rfl | rfl, hnames⟩ := h
  · exact ⟨fewer, .inl rfl, fun name hname => hnames name (hfewer.subset hname)⟩
  · rcases List.sublist_cons_iff.1 hfewer with hrest | ⟨rest, rfl, hrest⟩
    · exact ⟨fewer, .inl rfl, fun name hname => hnames name (hrest.subset hname)⟩
    · exact ⟨rest, .inr rfl, fun name hname => hnames name (hrest.subset hname)⟩

theorem isPlain_components (path : String) : IsPlain (components path) := by
  by_cases hempty : path = ""
  · subst path
    exact ⟨[], .inl (by decide), by simp⟩
  have hpieces : ∀ name ∈ pieces path, '/' ∉ name.toList := fun name => not_mem_of_mem_pieces
  rw [components_of_ne_empty hempty, rooted.eq_def]
  split
  · rename_i rest heq
    rw [heq] at hpieces
    exact ⟨rest, .inr rfl, fun name hname => hpieces name (List.mem_cons_of_mem _ hname)⟩
  · exact ⟨_, .inl rfl, hpieces⟩

end Path

namespace FileTree

open Greybox.Path (IsPlain)

variable {tree after : FileTree} {start place : Location} {part path : String} {parts : List String}
  {result : Except OsError Unit}

theorem isDirectoryAt_origin (tree : FileTree) : tree.isDirectoryAt [] = true :=
  isDirectoryAt_iff.2 (node?_of_isFixed tree (.inl rfl))

theorem isDirectoryAt_root (tree : FileTree) : tree.isDirectoryAt ["/"] = true :=
  isDirectoryAt_iff.2 (node?_of_isFixed tree (.inr rfl))

theorem Proper.follow (h : tree.Proper) (hdir : tree.isDirectoryAt start = true)
    (hpart : '/' ∉ part.toList) : tree.isDirectoryAt (start.follow part) = true ∨
      IsName part ∧ start.follow part = start ++ [part] := by
  rw [Location.follow]
  split
  · exact .inl hdir
  · rename_i hword
    obtain ⟨hempty, hdot⟩ := not_or.1 hword
    split
    · exact .inl (h.isDirectoryAt_parent hdir)
    · exact .inr ⟨⟨hempty, hdot, ‹_›, hpart⟩, rfl⟩

theorem Proper.walk (h : tree.Proper) (hdir : tree.isDirectoryAt start = true)
    (hparts : ∀ part ∈ parts, '/' ∉ part.toList) (hwalk : tree.walk start parts = .ok place) :
    tree.isDirectoryAt place = true ∨ tree.HasRoomAt place := by
  induction parts generalizing start with
  | nil =>
    rw [walk_nil_eq_ok_iff.1 hwalk]
    exact .inl hdir
  | cons part parts ih =>
    obtain ⟨-, hrest⟩ := walk_cons_eq_ok_iff.1 hwalk
    obtain ⟨hpart, hparts⟩ := List.forall_mem_cons.1 hparts
    by_cases hnext : tree.isDirectoryAt (start.follow part) = true
    · exact ih hnext hparts hrest
    -- A walk does not go on from where there is no directory, so this was the last part.
    obtain ⟨hname, hfollow⟩ := (h.follow hdir hpart).resolve_left hnext
    cases parts with
    | nil => exact .inr ⟨start, part, (walk_nil_eq_ok_iff.1 hrest).trans hfollow, hname, hdir⟩
    | cons next parts => exact absurd (walk_cons_eq_ok_iff.1 hrest).1 hnext

theorem Proper.locate (h : tree.Proper) (hparts : IsPlain parts)
    (hlocate : tree.locate parts = .ok place) :
    tree.isDirectoryAt place = true ∨ tree.HasRoomAt place := by
  have hwalk := walk_of_locate hlocate
  obtain ⟨names, rfl | rfl, hnames⟩ := hparts
  · exact h.walk tree.isDirectoryAt_origin hnames hwalk
  · exact h.walk tree.isDirectoryAt_root hnames (walk_cons_eq_ok_iff.1 hwalk).2

theorem Proper.modifyFile {change : Bytes → Bytes} (h : tree.Proper)
    (hmodify : tree.modifyFile path change = .ok after) : after.Proper := by
  rw [FileTree.modifyFile] at hmodify
  cases hlocate : tree.locate (Path.components path) with
  | error error => simp [hlocate, bind, Except.bind] at hmodify
  | ok location =>
    have hplace := h.locate (Path.isPlain_components path) hlocate
    simp only [hlocate, bind, Except.bind] at hmodify
    split at hmodify
    · cases hmodify
    all_goals
      rename_i hnode
      have hfree : ¬ tree.isDirectoryAt location = true := by simp [isDirectoryAt_iff, hnode]
      obtain rfl := Except.ok.inj hmodify
      exact h.set (hplace.resolve_left hfree) hfree _

/-- What was done in order to have a directory where the components lead. -/
structure Provides (tree : FileTree) (parts : List String) (result : Except OsError Unit)
    (after : FileTree) : Prop where
  proper : after.Proper
  grows : tree.Grows after
  reaches : result = .ok () → ∃ location, after.Reaches [] parts location

theorem makeDirectory_ok (h : tree.Proper) (hparts : IsPlain parts)
    (hmake : tree.makeDirectory parts = .ok after) : tree.Provides parts (.ok ()) after := by
  rw [makeDirectory] at hmake
  cases hlocate : tree.locate parts with
  | error error => simp [hlocate, bind, Except.bind] at hmake
  | ok location =>
    simp only [hlocate, bind, Except.bind] at hmake
    split at hmake
    · cases hmake
    · rename_i hnode
      obtain rfl := Except.ok.inj hmake
      have hgrows := grows_set hnode
      have hfree : ¬ tree.isDirectoryAt location = true := by simp [isDirectoryAt_iff, hnode]
      have hroom := (h.locate hparts hlocate).resolve_left hfree
      have hstill := hgrows.keeps.walk (walk_of_locate hlocate)
      refine ⟨h.set hroom hfree _, hgrows, fun _ => ⟨_, hstill, ?_⟩⟩
      rw [isDirectoryAt_iff, node?_set hroom.not_isFixed, if_pos rfl]

theorem reaches_of_leadToDirectory (h : tree.leadToDirectory parts = true) :
    ∃ location, tree.Reaches [] parts location := by
  rw [leadToDirectory] at h
  split at h
  · exact ⟨_, walk_of_locate ‹_›, h⟩
  · cases h

theorem ensureDirectory_provides (h : tree.Proper) (hparts : IsPlain parts)
    (hmake : tree.ensureDirectory parts = (result, after)) : tree.Provides parts result after := by
  rw [ensureDirectory] at hmake
  split at hmake
  · obtain ⟨rfl, rfl⟩ := Prod.mk.inj hmake
    exact makeDirectory_ok h hparts ‹_›
  · obtain ⟨rfl, rfl⟩ := Prod.mk.inj hmake
    refine ⟨h, .refl tree, ?_⟩
    split
    · exact fun _ => reaches_of_leadToDirectory ‹_›
    · exact fun herror => by cases herror

theorem makeDirectoriesReversed_provides (h : tree.Proper) (hparts : IsPlain parts.reverse)
    (hmake : tree.makeDirectoriesReversed parts = (result, after)) :
    tree.Provides parts.reverse result after := by
  induction parts generalizing tree result after with
  | nil =>
    obtain ⟨rfl, rfl⟩ := Prod.mk.inj hmake
    exact ⟨h, .refl tree, fun _ => ⟨[], rfl, tree.isDirectoryAt_origin⟩⟩
  | cons last before ih =>
    have hbefore : IsPlain before.reverse := by
      rw [List.reverse_cons] at hparts
      exact hparts.sublist (List.sublist_append_left _ _)
    simp only [makeDirectoriesReversed] at hmake
    split at hmake
    · have hfirst := ensureDirectory_provides h hparts ‹_›
      split at hmake
      · obtain ⟨rfl, rfl⟩ := Prod.mk.inj hmake
        have hway := ih hfirst.proper hbefore ‹_›
        exact ⟨hway.proper, hfirst.grows.trans hway.grows, fun herror => by cases herror⟩
      · have hway := ih hfirst.proper hbefore ‹_›
        have hlast := ensureDirectory_provides hway.proper hparts hmake
        exact ⟨hlast.proper, (hfirst.grows.trans hway.grows).trans hlast.grows, hlast.reaches⟩
    · exact ensureDirectory_provides h hparts hmake

theorem makeDirectories_ok (h : tree.Proper) (hmake : tree.makeDirectories path = (result, after)) :
    after.Proper ∧ tree.Grows after ∧
      (result = .ok () → ∃ location, after.LeadsTo path location) := by
  have hplain := (Path.isPlain_components path).sublist
    (List.filter_sublist (p := fun part => part ≠ "" ∧ part ≠ "."))
  have hprovides := makeDirectoriesReversed_provides h (by rwa [List.reverse_reverse]) hmake
  rw [List.reverse_reverse] at hprovides
  refine ⟨hprovides.proper, hprovides.grows, fun hok => ?_⟩
  obtain ⟨location, hreach⟩ := hprovides.reaches hok
  exact ⟨location, reaches_filter.1 hreach⟩

variable {location : Location} {front names : List String} {name directory : String}

def steps (path : String) : List String :=
  (Path.components path).filter fun part => part ≠ "" ∧ part ≠ "."

theorem steps_join (hname : IsName name) (directory : String) :
    steps (Path.join directory name) = steps directory ++ [name] := by
  obtain ⟨front, hjoin, hsame | hslash⟩ := Path.components_join hname directory
  · simp [steps, hjoin, hsame, hname.ne_empty, hname.ne_dot]
  · simp [steps, hjoin, hslash, hname.ne_empty, hname.ne_dot]

theorem walk_names (hnames : ∀ name ∈ names, IsName name)
    (hwalk : tree.walk start names = .ok place) : place = start ++ names := by
  induction names generalizing start with
  | nil => simpa [walk] using hwalk.symm
  | cons name names ih =>
    obtain ⟨hname, hnames⟩ := List.forall_mem_cons.1 hnames
    obtain ⟨-, hrest⟩ := walk_cons_eq_ok_iff.1 hwalk
    rw [Location.follow_name hname] at hrest
    rw [ih hnames hrest, List.append_assoc, List.singleton_append]

def Has (tree : FileTree) (made : List Location) (after : FileTree) : Prop :=
  ∀ place, after.node? place = if place ∈ made then some .directory else tree.node? place

theorem Has.nil (tree : FileTree) : tree.Has [] tree := fun _ => (if_neg List.not_mem_nil).symm

theorem Has.keeps {made : List Location} (h : tree.Has made after) : tree.Keeps after := by
  intro place hdir
  rw [isDirectoryAt_iff] at hdir ⊢
  rw [h place, hdir, ite_self]

theorem Has.trans {last : FileTree} {made more : List Location} (h : tree.Has made after)
    (h' : after.Has more last) : tree.Has (made ++ more) last := by
  intro place
  rw [h' place, h place]
  by_cases hmore : place ∈ more <;> by_cases hmade : place ∈ made <;> simp [hmore, hmade]

theorem ensureDirectory_has (hlocate : ∀ place, tree.locate parts = .ok place → place = location)
    (hmake : tree.ensureDirectory parts = (.ok (), after)) : tree.Has [location] after := by
  cases hplace : tree.locate parts with
  | error error =>
    simp only [ensureDirectory, makeDirectory, hplace, bind, Except.bind, leadToDirectory] at hmake
    cases hmake
  | ok place =>
    obtain rfl := hlocate place hplace
    cases hnode : tree.node? place with
    | none =>
      simp only [ensureDirectory, makeDirectory, hplace, bind, Except.bind, hnode] at hmake
      obtain rfl := (Prod.mk.inj hmake).2
      intro other
      rw [node?_set (not_isFixed_of_none hnode)]
      simp only [List.mem_singleton]
    | some node =>
      simp only [ensureDirectory, makeDirectory, hplace, bind, Except.bind, hnode, leadToDirectory]
        at hmake
      obtain ⟨hresult, rfl⟩ := Prod.mk.inj hmake
      split at hresult
      · intro other
        by_cases hother : other = place
        · subst other
          rw [if_pos List.mem_cons_self]
          exact isDirectoryAt_iff.1 ‹_›
        · rw [if_neg (by simpa using hother)]
      · cases hresult

theorem eq_of_ensureDirectory_error {error : OsError}
    (h : tree.ensureDirectory parts = (.error error, after)) : after = tree := by
  rw [ensureDirectory] at h
  split at h
  · cases h
  · exact (Prod.mk.inj h).2.symm

/-- The locations on the way from a location into directories, one in the other. The names stand in
reverse, the innermost one first. -/
def onTheWay (location : Location) : List String → List Location
  | [] => []
  | name :: outer => onTheWay location outer ++ [location ++ (name :: outer).reverse]

theorem has_of_walk (hnames : ∀ name ∈ names, IsName name)
    (hwalk : tree.walk location (name :: names).reverse = .ok place) :
    tree.Has (onTheWay location names) tree := by
  induction names generalizing name place with
  | nil => exact .nil tree
  | cons next names ih =>
    rw [List.reverse_cons, walk_append_eq_ok_iff] at hwalk
    obtain ⟨middle, houter, hlast⟩ := hwalk
    obtain rfl := walk_names (fun name hname => hnames name (List.mem_reverse.1 hname)) houter
    have hdir := (walk_cons_eq_ok_iff.1 hlast).1
    refine (ih (fun name hname => hnames name (List.mem_cons_of_mem _ hname)) houter).trans ?_
    intro other
    by_cases hother : other = location ++ (next :: names).reverse
    · subst other
      rw [if_pos List.mem_cons_self, isDirectoryAt_iff.1 hdir]
    · rw [if_neg (by simpa using hother)]

theorem makeDirectoriesReversed_of_reaches (h : tree.Reaches [] front location) :
    tree.makeDirectoriesReversed front.reverse = (.ok (), tree) := by
  cases hfront : front.reverse with
  | nil => rfl
  | cons last before =>
    have hparts : (last :: before).reverse = front := by rw [← hfront, List.reverse_reverse]
    have hne : front ≠ [] := by
      rintro rfl
      cases hfront
    have hlocate : tree.locate front = .ok location := (locate_of_ne_nil tree hne).trans h.1
    have hensure : tree.ensureDirectory front = (.ok (), tree) := by
      simp only [ensureDirectory, makeDirectory, hlocate, bind, Except.bind,
        isDirectoryAt_iff.1 h.2, leadToDirectory, h.2, ↓reduceIte]
    simp only [makeDirectoriesReversed, hparts, hensure]

theorem makeDirectoriesReversed_has (hnames : ∀ name ∈ names, IsName name)
    (hreach : tree.Reaches [] front location)
    (hmake : tree.makeDirectoriesReversed (names ++ front.reverse) = (.ok (), after)) :
    tree.Has (onTheWay location names) after := by
  induction names generalizing after with
  | nil =>
    rw [List.nil_append, makeDirectoriesReversed_of_reaches hreach] at hmake
    obtain ⟨-, rfl⟩ := Prod.mk.inj hmake
    exact .nil tree
  | cons name names ih =>
    have hwalk : ∀ {tree : FileTree} {place}, tree.Reaches [] front location →
        tree.locate (name :: (names ++ front.reverse)).reverse = .ok place →
        tree.walk location (name :: names).reverse = .ok place := by
      intro tree place hreach hlocate
      rw [← List.cons_append, List.reverse_append, List.reverse_reverse] at hlocate
      obtain ⟨middle, hfront, hrest⟩ := walk_append_eq_ok_iff.1 (walk_of_locate hlocate)
      rwa [Except.ok.inj (hreach.1.symm.trans hfront)]
    have hplace : ∀ {tree : FileTree}, tree.Reaches [] front location → ∀ place,
        tree.locate (name :: (names ++ front.reverse)).reverse = .ok place →
        place = location ++ (name :: names).reverse := fun hreach place hlocate =>
      walk_names (fun name hname => hnames name (List.mem_reverse.1 hname)) (hwalk hreach hlocate)
    have houter := fun name hname => hnames name (List.mem_cons_of_mem _ hname)
    rw [List.cons_append, makeDirectoriesReversed] at hmake
    split at hmake
    · obtain rfl := eq_of_ensureDirectory_error ‹_›
      split at hmake
      · cases hmake
      · rename_i hway
        have hmade := ih houter hway
        exact hmade.trans (ensureDirectory_has (hplace (hmade.keeps.reaches hreach)) hmake)
    · -- The innermost directory could be made at once, or was there, so all others were there.
      have hmade := ensureDirectory_has (hplace hreach) hmake
      cases hlocate : tree.locate (name :: (names ++ front.reverse)).reverse with
      | ok place => exact (has_of_walk houter (hwalk hreach hlocate)).trans hmade
      | error error =>
        simp only [ensureDirectory, makeDirectory, hlocate, bind, Except.bind, leadToDirectory] at hmake
        cases hmake

theorem makeDirectories_has (hnames : ∀ name ∈ names, IsName name)
    (hlead : tree.LeadsTo directory location) (hsteps : steps path = steps directory ++ names)
    (hmake : tree.makeDirectories path = (.ok (), after)) :
    tree.Has (onTheWay location names.reverse) after := by
  change tree.makeDirectoriesReversed (steps path).reverse = (.ok (), after) at hmake
  rw [hsteps, List.reverse_append] at hmake
  exact makeDirectoriesReversed_has (fun name hname => hnames name (List.mem_reverse.1 hname))
    (reaches_filter.2 hlead) hmake

theorem not_isFixed_below (hname : IsName name) (location : Location) (names : List String) :
    ¬ (location ++ name :: names).IsFixed := by
  rintro (hup | hroot)
  · simp only [Location.isAncestral, List.all_append, List.all_cons, Bool.and_eq_true,
      decide_eq_true_eq] at hup
    exact hname.ne_dots hup.2.1
  · have hmem : name ∈ ["/"] := by
      rw [← hroot]
      simp
    obtain rfl := List.mem_singleton.1 hmem
    exact hname.no_slash (by decide)

theorem Proper.node?_below (h : tree.Proper) (hempty : tree.namesAt location = [])
    (hname : IsName name) (names : List String) : tree.node? (location ++ name :: names) = none := by
  -- What lies deeper lies in a directory, so the induction is on the names from the innermost one out.
  rw [← names.reverse_reverse]
  induction names.reverse with
  | nil =>
    cases hnode : tree.node? (location ++ [name]) with
    | none => exact hnode
    | some node =>
      have hmem := (mem_namesAt h).2 ⟨hname, node, hnode⟩
      rw [hempty] at hmem
      cases hmem
  | cons last outer ih =>
    cases hnode : tree.node? (location ++ name :: (last :: outer).reverse) with
    | none => rfl
    | some node =>
      obtain ⟨directory, other, heq, -, hdir⟩ :=
        h _ (mem_of_node? (not_isFixed_below hname location _) hnode)
      rw [List.reverse_cons, ← List.cons_append, ← List.append_assoc] at heq
      obtain rfl := (List.append_inj' heq rfl).1
      rw [isDirectoryAt_iff, ih] at hdir
      cases hdir

end FileTree

end Greybox
