import Greybox.Proofs.FileTree.Content
import Greybox.Proofs.Storage.Prepare
import Greybox.Proofs.Storage.Requests
import Greybox.Proofs.Storage.Slots

namespace Greybox

namespace FileTree

variable {tree middle after last : FileTree} {location place : Location} {content : Bytes}
  {places more : List Location} {writes written : List (Location × Bytes)}

inductive WritesAll : FileTree → List (Location × Bytes) → FileTree → Prop
  | nil {tree : FileTree} : WritesAll tree [] tree
  | cons {tree middle after : FileTree} {location : Location} {content : Bytes}
      {writes : List (Location × Bytes)} (hfirst : tree.Writes location content middle)
      (hrest : WritesAll middle writes after) : WritesAll tree ((location, content) :: writes) after

theorem Writes.all (h : tree.Writes location content after) :
    tree.WritesAll [(location, content)] after := .cons h .nil

theorem WritesAll.single (h : tree.WritesAll [(location, content)] after) :
    tree.Writes location content after := by
  cases h with
  | cons hfirst hrest =>
    cases hrest
    exact hfirst

theorem WritesAll.node?_pair {other : Location} {content' : Bytes} (hne : location ≠ other)
    (h : tree.WritesAll [(location, content), (other, content')] after) :
    after.node? location = some (.file content) ∧ after.node? other = some (.file content') := by
  cases h with
  | cons hfirst hrest =>
    have hlast := hrest.single
    exact ⟨(hlast.node?_of_ne hne).trans hfirst.node?_self, hlast.node?_self⟩

/-- Files were written at some of the places; everything else is as before. -/
def Touches (tree : FileTree) (places : List Location) (after : FileTree) : Prop :=
  ∀ place, after.node? place = tree.node? place ∨
    place ∈ places ∧ tree.isDirectoryAt place = false ∧ after.isDirectoryAt place = false

theorem Touches.refl (tree : FileTree) (places : List Location) : tree.Touches places tree :=
  fun _ => .inl rfl

theorem Touches.keeps (h : tree.Touches places after) : tree.Keeps after := by
  intro place hdir
  rcases h place with hsame | ⟨-, hfree, -⟩
  · rwa [isDirectoryAt, hsame]
  · cases hdir.symm.trans hfree

theorem Touches.node?_eq (h : tree.Touches places after) (hplace : place ∉ places) :
    after.node? place = tree.node? place :=
  (h place).resolve_right fun hwritten => hplace hwritten.1

theorem Touches.trans (h : tree.Touches places after) (h' : after.Touches more last) :
    tree.Touches (places ++ more) last := by
  intro place
  rcases h' place with hsame' | ⟨hplace', hfree', hfile'⟩
  · have hlast : last.isDirectoryAt place = after.isDirectoryAt place := by
      rw [isDirectoryAt, hsame', isDirectoryAt]
    rw [hsame', hlast]
    exact (h place).imp id fun hwritten => ⟨List.mem_append_left _ hwritten.1, hwritten.2⟩
  · refine .inr ⟨List.mem_append_right _ hplace', ?_, hfile'⟩
    rcases h place with hsame | hwritten
    · rwa [isDirectoryAt, hsame, ← isDirectoryAt] at hfree'
    · exact hwritten.2.1

theorem Touches.mono (h : tree.Touches places after) (hsub : ∀ place ∈ places, place ∈ more) :
    tree.Touches more after :=
  fun place => (h place).imp id fun hwritten => ⟨hsub place hwritten.1, hwritten.2⟩

theorem Writes.touches (h : tree.Writes location content after) :
    tree.Touches [location] after := by
  intro place
  by_cases heq : place = location
  · subst place
    exact .inr ⟨List.mem_cons_self, h.free, (h.isDirectoryAt_eq _).trans h.free⟩
  · exact .inl (h.node?_of_ne heq)

theorem WritesAll.touches (h : tree.WritesAll writes after) :
    tree.Touches (writes.map Prod.fst) after := by
  induction h with
  | nil => exact .refl _ _
  | cons hfirst _ ih => exact hfirst.touches.trans ih

end FileTree

namespace DiskStore

open FileTree Storage

variable {store later : DiskStore} {outputDir directory name : String} {output location : Location}
  {logTrials : Bool} {content : Bytes} {report : OsError → StorageError} {request : Request}

def writes (store : DiskStore) (output : Location) (logTrials : Bool) :
    Request → List (Location × Bytes)
  | .persistInput id bytes entry =>
    [(output ++ ["corpus", slotName id], bytes), (output ++ ["corpus_index.json"],
      utf8 (CorpusIndex.render (store.index.insert id entry)))]
  | .writeCoverage map =>
    [(output ++ ["coverage_hash"], utf8 (listing map)),
      (output ++ ["coverage.bin"], CoverageState.encode map)]
  | .appendPlotLine line =>
    [(output ++ ["plot_data"],
      store.tree.contentAt (output ++ ["plot_data"]) ++ utf8 (line ++ "\n"))]
  | .logTrial trial bytes =>
    if logTrials then [(output ++ ["all", "success", trialName trial], bytes)] else []

def places (output : Location) (logTrials : Bool) : Request → List Location
  | .persistInput id _ _ => [output ++ ["corpus", slotName id], output ++ ["corpus_index.json"]]
  | .writeCoverage _ => [output ++ ["coverage_hash"], output ++ ["coverage.bin"]]
  | .appendPlotLine _ => [output ++ ["plot_data"]]
  | .logTrial trial _ => if logTrials then [output ++ ["all", "success", trialName trial]] else []

theorem map_fst_writes (store : DiskStore) (output : Location) (logTrials : Bool)
    (request : Request) :
    (store.writes output logTrials request).map Prod.fst = places output logTrials request := by
  cases request with
  | persistInput | writeCoverage | appendPlotLine => rfl
  | logTrial trial bytes => cases logTrials <;> rfl

def indexed (store : DiskStore) : Request → Std.TreeMap Nat EntryMetadata
  | .persistInput id _ entry => store.index.insert id entry
  | .writeCoverage _ | .appendPlotLine _ | .logTrial _ _ => store.index

/-- The store has its directories where the path of its output directory leads. -/
structure Laid (store : DiskStore) (outputDir : String) (output : Location) (logTrials : Bool) :
    Prop where
  outputDir_eq : store.outputDir = outputDir
  trialDir_eq : store.trialDir =
    if logTrials then some (Path.join (Path.join outputDir "all") "success") else none
  leads : store.tree.LeadsTo outputDir output
  corpus : store.tree.LeadsTo (corpusDirIn outputDir) (output ++ ["corpus"])
  trials : logTrials = true → store.tree.LeadsTo (Path.join (Path.join outputDir "all") "success")
    (output ++ ["all", "success"])

theorem Laid.keeps {tree : FileTree} (h : store.Laid outputDir output logTrials)
    (hkeeps : store.tree.Keeps tree) (index : Std.TreeMap Nat EntryMetadata) :
    Laid { store with tree, index } outputDir output logTrials :=
  ⟨h.outputDir_eq, h.trialDir_eq, hkeeps.reaches h.leads, hkeeps.reaches h.corpus,
    fun hlogs => hkeeps.reaches (h.trials hlogs)⟩

/-- What becomes of a request: all its files are written, or some of the first ones, because there
is a directory in the place of another. -/
inductive Performs (store : DiskStore) (output : Location) (logTrials : Bool) (request : Request) :
    Except StorageError Unit → DiskStore → Prop
  | completes {tree : FileTree}
      (h : store.tree.WritesAll (store.writes output logTrials request) tree) :
      Performs store output logTrials request (.ok ())
        { store with tree, index := store.indexed request }
  | stops {error : StorageError} {written : List (Location × Bytes)} {tree : FileTree}
      {index : Std.TreeMap Nat EntryMetadata}
      (hwritten : written <+: store.writes output logTrials request)
      (h : store.tree.WritesAll written tree)
      (hdir : ∃ place ∈ places output logTrials request, store.tree.isDirectoryAt place = true) :
      Performs store output logTrials request (.error error) { store with tree, index }

theorem writeFile_cases (hlead : store.tree.LeadsTo directory location) (hname : IsName name)
    (content : Bytes) (report : OsError → StorageError) :
    (store.tree.isDirectoryAt (location ++ [name]) = true ∧ ∃ error,
      store.writeFile (Path.join directory name) content report = (.error error, store)) ∨
    ∃ tree, store.writeFile (Path.join directory name) content report =
      (.ok (), { store with tree }) ∧ store.tree.Writes (location ++ [name]) content tree := by
  have hlocate := (locate_join hname).2 ⟨location, hlead, rfl⟩
  cases hdir : store.tree.isDirectoryAt (location ++ [name]) with
  | true =>
    refine .inl ⟨rfl, report .isADirectory, ?_⟩
    simp only [writeFile, FileTree.write, modifyFile_of_isDirectoryAt hlocate hdir]
  | false =>
    obtain ⟨tree, hmodify, hwrites⟩ := modifyFile_writes (fun _ => content) hlocate hdir
    refine .inr ⟨tree, ?_, hwrites⟩
    simp only [writeFile, FileTree.write, hmodify]

theorem perform_persistInput (h : store.Laid outputDir output logTrials) (id : Nat) (bytes : Bytes)
    (entry : EntryMetadata) :
    store.Performs output logTrials (.persistInput id bytes entry)
      (perform store (.persistInput id bytes entry)).1
      (perform store (.persistInput id bytes entry)).2 := by
  obtain rfl := h.outputDir_eq
  have hslot : output ++ ["corpus"] ++ [slotName id] = output ++ ["corpus", slotName id] := by simp
  simp only [perform, Storage.persistInput, persistInput, corpusDir, indexPath, indexPathIn]
  rcases writeFile_cases h.corpus (isName_slotName id) bytes
    (.inputFile (Path.join (corpusDirIn store.outputDir) (slotName id))) with
    ⟨hdir, error, hwrite⟩ | ⟨middle, hwrite, hfirst⟩ <;> simp only [hwrite]
  · exact .stops List.nil_prefix .nil ⟨_, List.mem_cons_self, hslot ▸ hdir⟩
  rw [hslot] at hfirst
  have hlaid := h.keeps hfirst.keeps (store.index.insert id entry)
  rcases writeFile_cases hlaid.leads (isName_of_mem_artifactNames "corpus_index.json" (by decide))
    (utf8 (CorpusIndex.render (store.index.insert id entry)))
    (.indexFile (Path.join store.outputDir "corpus_index.json")) with
    ⟨hdir, error, hwrite⟩ | ⟨tree, hwrite, hlast⟩ <;> simp only [hwrite]
  · rw [hfirst.isDirectoryAt_eq] at hdir
    exact .stops (List.prefix_append _ _) hfirst.all
      ⟨_, List.mem_cons_of_mem _ List.mem_cons_self, hdir⟩
  · exact .completes (.cons hfirst hlast.all)

theorem perform_writeCoverage (h : store.Laid outputDir output logTrials) (map : Coverage) :
    store.Performs output logTrials (.writeCoverage map) (perform store (.writeCoverage map)).1
      (perform store (.writeCoverage map)).2 := by
  obtain rfl := h.outputDir_eq
  simp only [perform, Storage.writeCoverage, writeCoverage, listingPathIn, statePath, statePathIn]
  rcases writeFile_cases h.leads (isName_of_mem_artifactNames "coverage_hash" (by decide))
    (utf8 (listing map)) .system with ⟨hdir, error, hwrite⟩ | ⟨middle, hwrite, hfirst⟩ <;>
    simp only [hwrite]
  · exact .stops List.nil_prefix .nil ⟨_, List.mem_cons_self, hdir⟩
  have hlaid := h.keeps hfirst.keeps store.index
  rcases writeFile_cases hlaid.leads (isName_of_mem_artifactNames "coverage.bin" (by decide))
    (CoverageState.encode map) .system with ⟨hdir, error, hwrite⟩ | ⟨tree, hwrite, hlast⟩ <;>
    simp only [hwrite]
  · rw [hfirst.isDirectoryAt_eq] at hdir
    exact .stops (List.prefix_append _ _) hfirst.all
      ⟨_, List.mem_cons_of_mem _ List.mem_cons_self, hdir⟩
  · exact .completes (.cons hfirst hlast.all)

theorem perform_appendPlotLine (h : store.Laid outputDir output logTrials) (line : String) :
    store.Performs output logTrials (.appendPlotLine line) (perform store (.appendPlotLine line)).1
      (perform store (.appendPlotLine line)).2 := by
  obtain rfl := h.outputDir_eq
  have hname := isName_of_mem_artifactNames "plot_data" (by decide)
  have hlocate := (locate_join hname).2 ⟨output, h.leads, rfl⟩
  simp only [perform, Storage.appendPlotLine, appendPlotLine, plotPath, plotPathIn, FileTree.append]
  cases hdir : store.tree.isDirectoryAt (output ++ ["plot_data"]) with
  | true =>
    simp only [modifyFile_of_isDirectoryAt hlocate hdir]
    exact .stops List.nil_prefix .nil ⟨_, List.mem_cons_self, hdir⟩
  | false =>
    obtain ⟨tree, hmodify, hwrites⟩ :=
      modifyFile_writes (· ++ utf8 (line ++ "\n")) hlocate hdir
    simp only [hmodify]
    exact .completes hwrites.all

theorem perform_logTrial (h : store.Laid outputDir output logTrials) (trial : Nat) (bytes : Bytes) :
    store.Performs output logTrials (.logTrial trial bytes) (perform store (.logTrial trial bytes)).1
      (perform store (.logTrial trial bytes)).2 := by
  cases hlogs : logTrials with
  | false =>
    have hnone : store.trialDir = none := by rw [h.trialDir_eq, hlogs]; rfl
    simp only [perform, Storage.logTrial, logTrial, hnone]
    exact .completes .nil
  | true =>
    have hsome : store.trialDir = some (Path.join (Path.join outputDir "all") "success") := by
      rw [h.trialDir_eq, hlogs]; rfl
    have hplace : output ++ ["all", "success"] ++ [trialName trial] =
      output ++ ["all", "success", trialName trial] := by simp
    simp only [perform, Storage.logTrial, logTrial, hsome]
    rcases writeFile_cases (h.trials hlogs) (isName_trialName trial) bytes .system with
      ⟨hdir, error, hwrite⟩ | ⟨tree, hwrite, hwrites⟩ <;> rw [trialName] at hwrite <;>
      simp only [hwrite]
    · exact .stops List.nil_prefix .nil ⟨_, List.mem_cons_self, hplace ▸ hdir⟩
    · rw [hplace] at hwrites
      exact .completes hwrites.all

theorem perform_performs (h : store.Laid outputDir output logTrials) (request : Request) :
    store.Performs output logTrials request (perform store request).1 (perform store request).2 := by
  cases request with
  | persistInput id bytes entry => exact perform_persistInput h id bytes entry
  | writeCoverage map => exact perform_writeCoverage h map
  | appendPlotLine line => exact perform_appendPlotLine h line
  | logTrial trial bytes => exact perform_logTrial h trial bytes

namespace Performs

variable {result : Except StorageError Unit}
  (hperforms : store.Performs output logTrials request result later)

include hperforms

theorem touches : store.tree.Touches (places output logTrials request) later.tree := by
  cases hperforms with
  | completes h =>
    rw [← map_fst_writes store]
    exact h.touches
  | stops hwritten h =>
    rw [← map_fst_writes store]
    exact h.touches.mono fun place hplace => (hwritten.map Prod.fst).subset hplace

theorem laid (h : store.Laid outputDir output logTrials) : later.Laid outputDir output logTrials := by
  have hkeeps := hperforms.touches.keeps
  cases hperforms with
  | completes => exact h.keeps hkeeps _
  | stops => exact h.keeps hkeeps _

end Performs

theorem afterAll_touches (h : store.Laid outputDir output logTrials) (requests : List Request) :
    (afterAll store requests).Laid outputDir output logTrials ∧
      store.tree.Touches (requests.flatMap (places output logTrials))
        (afterAll store requests).tree := by
  induction requests generalizing store with
  | nil => exact ⟨h, .refl _ _⟩
  | cons request requests ih =>
    have hfirst := perform_performs h request
    obtain ⟨hlaid, hrest⟩ := ih (hfirst.laid h)
    exact ⟨hlaid, hfirst.touches.trans hrest⟩

variable {tree after : FileTree}

theorem openIn_laid (h : tree.Proper) (hlead : tree.LeadsTo outputDir output)
    (hcorpus : tree.isDirectoryAt (output ++ ["corpus"]) = true)
    (hopen : openIn tree outputDir logTrials = (.ok store, after)) :
    store.Laid outputDir output logTrials := by
  have hcorpusLead : tree.LeadsTo (corpusDirIn outputDir) (output ++ ["corpus"]) :=
    (leadsTo_join (by decide)).2 ⟨output, hlead, rfl, hcorpus⟩
  rw [openIn] at hopen
  split at hopen
  · simp only at hopen
    split at hopen
    · cases hopen
    · rename_i hlogs _ made hmake
      obtain ⟨hstore, rfl⟩ := Prod.mk.inj hopen
      obtain rfl := Except.ok.inj hstore
      obtain ⟨-, hgrows, hmade⟩ := makeDirectories_ok h hmake
      obtain ⟨trials, htrials⟩ := hmade rfl
      obtain ⟨all, hall, rfl, -⟩ := (leadsTo_join (by decide)).1 htrials
      obtain ⟨start, hstart, rfl, -⟩ := (leadsTo_join (by decide)).1 hall
      have hlead' := hgrows.keeps.reaches hlead
      obtain rfl := hstart.unique hlead'
      refine ⟨rfl, by rw [if_pos hlogs], hlead', hgrows.keeps.reaches hcorpusLead, fun _ => ?_⟩
      simpa using htrials
  · rename_i hlogs
    obtain ⟨hstore, rfl⟩ := Prod.mk.inj hopen
    obtain rfl := Except.ok.inj hstore
    exact ⟨rfl, by rw [if_neg hlogs], hlead, hcorpusLead, fun h => absurd h hlogs⟩

theorem prepare_laid (h : tree.Proper)
    (hprepare : prepare tree outputDir logTrials = (.ok store, after)) :
    ∃ output, store.Laid outputDir output logTrials ∧ store.tree = after := by
  obtain ⟨made, hmake, hopen⟩ := prepare_opens hprepare
  obtain ⟨hproper, -, hmade⟩ := makeDirectories_ok h hmake
  obtain ⟨corpus, hcorpus⟩ := hmade rfl
  obtain ⟨output, hlead, rfl, hdir⟩ := (leadsTo_join (by decide)).1 hcorpus
  obtain ⟨hcleared, hlost⟩ := clear_loses hproper hlead hdir
  exact ⟨output, openIn_laid hcleared (hlost.keeps.reaches hlead) (hlost.keeps _ hdir) hopen,
    (openIn_ok hcleared hopen).2.1⟩

end DiskStore

end Greybox
