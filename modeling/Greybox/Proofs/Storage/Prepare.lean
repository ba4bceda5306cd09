import Greybox.Proofs.FileTree.Directories
import Greybox.Proofs.Storage.Calls
import Greybox.Storage.Disk

namespace Greybox.DiskStore

open FileTree

variable {tree after : FileTree} {location output : Location} {name directory outputDir : String}
  {names : List String} {logTrials : Bool} {store : DiskStore}

def artifactNames : List String := ["corpus_index.json", "coverage_hash", "coverage.bin", "plot_data"]

theorem isName_of_mem_artifactNames : ∀ name ∈ artifactNames, IsName name := by
  decide

theorem removeFile_join (h : tree.Proper) (hname : IsName name)
    (hlead : tree.LeadsTo directory location) :
    (removeFile tree (Path.join directory name)).Proper ∧
      Loses (· = location ++ [name]) tree (removeFile tree (Path.join directory name)) := by
  have hlocate := (locate_join hname).2 ⟨location, hlead, rfl⟩
  simp only [removeFile, hlocate]
  split
  · exact ⟨h.eraseAt ‹_›, loses_eraseAt ‹_›⟩
  · refine ⟨h, .refl ?_⟩
    rintro _ rfl
    assumption

theorem removeFiles_join (h : tree.Proper) (hnames : ∀ name ∈ names, IsName name)
    (hlead : tree.LeadsTo directory location)
    (hafter : names.foldl (fun tree name => removeFile tree (Path.join directory name)) tree = after) :
    after.Proper ∧ Loses (fun place => ∃ name ∈ names, place = location ++ [name]) tree after := by
  induction names generalizing tree with
  | nil =>
    subst hafter
    exact ⟨h, .refl (by simp)⟩
  | cons name names ih =>
    obtain ⟨hname, hnames⟩ := List.forall_mem_cons.1 hnames
    obtain ⟨hproper, hlost⟩ := removeFile_join h hname hlead
    obtain ⟨hproper', hlost'⟩ := ih hproper hnames (hlost.keeps.reaches hlead) hafter
    refine ⟨hproper', (hlost.trans hlost').congr fun place _ => ?_⟩
    simp only [List.mem_cons, exists_eq_or_imp]

/-- The artifacts go by their names, the files of the corpus directory without regard to theirs. -/
theorem clear_loses (h : tree.Proper) (hlead : tree.LeadsTo outputDir output)
    (hcorpus : tree.isDirectoryAt (output ++ ["corpus"]) = true) :
    (clear tree outputDir).Proper ∧
      Loses (fun place => (∃ name ∈ artifactNames, place = output ++ [name]) ∨
        ∃ name, place = output ++ ["corpus"] ++ [name]) tree (clear tree outputDir) := by
  generalize hmiddle : artifactNames.foldl
    (fun tree name => removeFile tree (Path.join outputDir name)) tree = middle
  obtain ⟨hproper, hlost⟩ := removeFiles_join h isName_of_mem_artifactNames hlead hmiddle
  have hcorpusName : IsName "corpus" := by decide
  have hcorpusLead : middle.LeadsTo (corpusDirIn outputDir) (output ++ ["corpus"]) :=
    (leadsTo_join hcorpusName).2 ⟨output, hlost.keeps.reaches hlead, rfl, hlost.keeps _ hcorpus⟩
  have hnames : middle.names (corpusDirIn outputDir) = middle.namesAt (output ++ ["corpus"]) := by
    have hlocate := (locate_join hcorpusName).2 ⟨output, hlost.keeps.reaches hlead, rfl⟩
    rw [names, corpusDirIn, hlocate]
  have hclear : (middle.namesAt (output ++ ["corpus"])).foldl
      (fun tree name => removeFile tree (Path.join (corpusDirIn outputDir) name)) middle =
        clear tree outputDir := by
    rw [← hnames, ← hmiddle]
    rfl
  obtain ⟨hproper', hlost'⟩ := removeFiles_join hproper
    (fun name hname => ((mem_namesAt hproper).1 hname).1) hcorpusLead hclear
  -- Every file in the corpus directory is among the names that it lists.
  have hlisted : ∀ place, middle.isFileAt place = true →
      ((∃ name, place = output ++ ["corpus"] ++ [name]) ↔
        ∃ name ∈ middle.namesAt (output ++ ["corpus"]), place = output ++ ["corpus"] ++ [name]) := by
    intro place hfile
    constructor
    · rintro ⟨name, rfl⟩
      obtain ⟨content, hfile⟩ := isFileAt_iff.1 hfile
      exact ⟨name, (mem_namesAt hproper).2 ⟨hproper.isName hfile, _, hfile⟩, rfl⟩
    · rintro ⟨name, -, rfl⟩
      exact ⟨name, rfl⟩
  exact ⟨hproper', hlost.trans (hlost'.congr hlisted)⟩

theorem openIn_ok (h : tree.Proper) (hopen : openIn tree outputDir logTrials = (.ok store, after)) :
    tree.Grows after ∧ store.tree = after ∧ after.Proper := by
  rw [openIn] at hopen
  split at hopen
  · simp only at hopen
    split at hopen
    · cases hopen
    · obtain ⟨hstore, rfl⟩ := Prod.mk.inj hopen
      obtain ⟨hproper, hgrows, -⟩ := makeDirectories_ok h ‹_›
      exact ⟨hgrows, (congrArg DiskStore.tree (Except.ok.inj hstore)).symm, hproper⟩
  · obtain ⟨hstore, rfl⟩ := Prod.mk.inj hopen
    exact ⟨.refl tree, (congrArg DiskStore.tree (Except.ok.inj hstore)).symm, h⟩

theorem prepare_opens (hprepare : prepare tree outputDir logTrials = (.ok store, after)) :
    ∃ made, tree.makeDirectories (corpusDirIn outputDir) = (.ok (), made) ∧
      openIn (clear made outputDir) outputDir logTrials = (.ok store, after) := by
  rw [prepare] at hprepare
  split at hprepare
  · cases hprepare
  split at hprepare
  · cases hprepare
  · exact ⟨_, ‹_›, hprepare⟩

theorem prepare_ok (h : tree.Proper)
    (hprepare : prepare tree outputDir logTrials = (.ok store, after)) :
    ∃ made output, tree.Grows made ∧ made.LeadsTo outputDir output ∧
      made.isDirectoryAt (output ++ ["corpus"]) = true ∧
      Loses (fun place => (∃ name ∈ artifactNames, place = output ++ [name]) ∨
        ∃ name, place = output ++ ["corpus"] ++ [name]) made (clear made outputDir) ∧
      (clear made outputDir).Grows after ∧ store.tree = after ∧ after.Proper := by
  obtain ⟨made, hmake, hopen⟩ := prepare_opens hprepare
  obtain ⟨hproper, hgrows, hmade⟩ := makeDirectories_ok h hmake
  obtain ⟨corpus, hcorpus⟩ := hmade rfl
  obtain ⟨output, hlead, rfl, hdir⟩ := (leadsTo_join (by decide)).1 hcorpus
  obtain ⟨hcleared, hlost⟩ := clear_loses hproper hlead hdir
  exact ⟨made, output, hgrows, hlead, hdir, hlost, openIn_ok hcleared hopen⟩

/-- A prepared output directory has lost exactly the files with the names of artifacts in it, and
all the files directly in its corpus directory. -/
theorem prepare_removes (h : tree.Proper)
    (hprepare : prepare tree outputDir logTrials = (.ok store, after)) :
    ∃ output, after.LeadsTo outputDir output ∧ after.isDirectoryAt (output ++ ["corpus"]) = true ∧
      (∀ location content, after.node? location = some (.file content) ↔
        tree.node? location = some (.file content) ∧
          (∀ name ∈ artifactNames, location ≠ output ++ [name]) ∧
          ∀ name, location ≠ output ++ ["corpus", name]) ∧
      ∀ location, tree.isDirectoryAt location = true → after.isDirectoryAt location = true := by
  obtain ⟨made, output, hgrows, hlead, hdir, hlost, hopened, -⟩ := prepare_ok h hprepare
  have hkeeps : made.Keeps after := fun location hmade => hopened.keeps _ (hlost.keeps _ hmade)
  refine ⟨output, hkeeps.reaches hlead, hkeeps _ hdir, fun location content => ?_,
    fun location hold => hkeeps _ (hgrows.keeps _ hold)⟩
  rw [hopened.file_iff, hlost.file_iff, hgrows.file_iff]
  simp only [not_or, not_exists, not_and, List.append_assoc, List.singleton_append, ne_eq]

/-- Notes that someone left in the corpus directory do not survive, those beside it do. -/
theorem prepare_removes_notes :
    let tree : FileTree := ⟨[(["out"], .directory), (["out", "notes.txt"], .file #[7]),
      (["out", "corpus"], .directory), (["out", "corpus", "notes.txt"], .file #[7])]⟩
    tree.Proper ∧ ∃ store after, prepare tree "out" false = (.ok store, after) ∧
      after.node? ["out", "notes.txt"] = some (.file #[7]) ∧
      after.node? ["out", "corpus", "notes.txt"] ≠ some (.file #[7]) := by
  intro tree
  have hproper : tree.Proper := by
    simp only [FileTree.Proper, HasRoomAt, tree, List.forall_mem_cons]
    exact ⟨⟨[], "out", rfl, by decide, by decide⟩, ⟨["out"], "notes.txt", rfl, by decide, by decide⟩,
      ⟨["out"], "corpus", rfl, by decide, by decide⟩,
      ⟨["out", "corpus"], "notes.txt", rfl, by decide, by decide⟩, by simp⟩
  have hok : (prepare tree "out" false).1.isOk = true := by decide +kernel
  cases hprepare : prepare tree "out" false with
  | mk result after =>
    rw [hprepare] at hok
    cases result with
    | error error => cases hok
    | ok store =>
      obtain ⟨output, hlead, -, hfiles, hkeeps⟩ := prepare_removes hproper hprepare
      have hout : tree.LeadsTo "out" ["out"] := by
        rw [FileTree.LeadsTo, Path.components_name (by decide)]
        exact ⟨rfl, by decide⟩
      obtain rfl := (Keeps.reaches hkeeps hout).unique hlead
      refine ⟨hproper, store, after, rfl, (hfiles _ _).2 ⟨by decide, by decide, by simp⟩, ?_⟩
      rw [Ne, hfiles]
      exact fun h => h.2.2 "notes.txt" rfl

variable {later : DiskStore} {result : Except StorageError Unit}

theorem writeFile_proper {path : String} {content : Bytes} {report : OsError → StorageError}
    (h : store.tree.Proper) (hwrite : store.writeFile path content report = (result, later)) :
    later.tree.Proper := by
  rw [writeFile] at hwrite
  split at hwrite
  · obtain ⟨-, rfl⟩ := Prod.mk.inj hwrite
    exact h.modifyFile ‹_›
  · obtain ⟨-, rfl⟩ := Prod.mk.inj hwrite
    exact h

theorem call_proper (h : store.tree.Proper) (hcall : Storage.Call store later) :
    later.tree.Proper := by
  cases hcall with
  | persistInput hcall =>
    simp only [Storage.persistInput, persistInput] at hcall
    split at hcall
    · obtain ⟨-, rfl⟩ := Prod.mk.inj hcall
      exact writeFile_proper h ‹_›
    · rename_i kept hkeep
      obtain ⟨-, rfl⟩ := Prod.mk.inj hcall
      have hkept : kept.tree.Proper := writeFile_proper h hkeep
      refine writeFile_proper ?_ rfl
      exact hkept
  | writeCoverage hcall =>
    simp only [Storage.writeCoverage, writeCoverage] at hcall
    split at hcall
    · obtain ⟨-, rfl⟩ := Prod.mk.inj hcall
      exact writeFile_proper h ‹_›
    · exact writeFile_proper (writeFile_proper h ‹_›) hcall
  | appendPlotLine hcall =>
    simp only [Storage.appendPlotLine, appendPlotLine] at hcall
    split at hcall
    · obtain ⟨-, rfl⟩ := Prod.mk.inj hcall
      exact h.modifyFile ‹_›
    · obtain ⟨-, rfl⟩ := Prod.mk.inj hcall
      exact h
  | logTrial hcall =>
    simp only [Storage.logTrial, logTrial] at hcall
    split at hcall
    · obtain ⟨-, rfl⟩ := Prod.mk.inj hcall
      exact h
    · exact writeFile_proper h hcall

theorem prepare_leads_proper (h : tree.Proper)
    (hprepare : prepare tree outputDir logTrials = (.ok store, after))
    (hleads : Storage.Leads store later) : later.tree.Proper := by
  induction hleads with
  | refl =>
    obtain ⟨-, -, -, -, -, -, -, rfl, hproper⟩ := prepare_ok h hprepare
    exact hproper
  | tail _ hcall ih => exact call_proper ih hcall

end Greybox.DiskStore
