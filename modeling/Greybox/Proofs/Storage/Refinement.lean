import Mathlib.Data.List.Basic
import Mathlib.Data.Set.Function
import Greybox.Proofs.Storage.CoverageState
import Greybox.Proofs.Storage.Disk
import Greybox.Storage.Memory

namespace Greybox

def MemoryStore.metadata (store : MemoryStore) : Std.TreeMap Nat EntryMetadata :=
  store.inputs.map fun _ saved => saved.2

def Storage.lastLogged (logged : Array (Nat × Bytes)) (trial : Nat) : Option Bytes :=
  logged.toList.reverse.lookup trial

theorem Storage.lastLogged_push (logged : Array (Nat × Bytes)) (trial other : Nat) (bytes : Bytes) :
    lastLogged (logged.push (trial, bytes)) other =
      if other = trial then some bytes else lastLogged logged other := by
  rw [lastLogged, Array.toList_push, List.reverse_append, List.reverse_singleton,
    List.singleton_append, List.lookup_cons, beq_eq_decide]
  by_cases hsame : other = trial <;> simp [hsame, lastLogged]

namespace DiskStore

open FileTree Storage

variable {tree after : FileTree} {output place : Location} {outputDir : String}
  {disk store : DiskStore} {memory : MemoryStore} {index : Std.TreeMap Nat EntryMetadata}
  {inputs : Std.TreeMap Nat (Bytes × EntryMetadata)} {coverage : Option Coverage}
  {lines : Array String}

/-- What is in a directory below the output directory are files named for numbers, and they hold the
contents that are given for these. -/
structure HoldsFiles (tree : FileTree) (output : Location) (way : List String) (naming : Nat → String)
    (contents : Nat → Option Bytes) : Prop where
  slot : ∀ n, tree.node? (output ++ (way ++ [naming n])) = (contents n).map .file
  named : ∀ name, (tree.node? (output ++ (way ++ [name]))).isSome = true → ∃ n, name = naming n

namespace HoldsFiles

variable {way : List String} {naming : Nat → String} {contents contents' : Nat → Option Bytes}
  (h : HoldsFiles tree output way naming contents)

include h

theorem congr (hsame : ∀ name, after.node? (output ++ (way ++ [name])) =
    tree.node? (output ++ (way ++ [name]))) : HoldsFiles after output way naming contents := by
  refine ⟨fun n => (hsame _).trans (h.slot n), fun name hsome => ?_⟩
  rw [hsame] at hsome
  exact h.named name hsome

theorem node?_eq {n : Nat} {bytes : Bytes} (hn : contents n = some bytes) :
    tree.node? (output ++ (way ++ [naming n])) = some (.file bytes) := by
  rw [h.slot, hn]
  rfl

theorem write (hnaming : Function.Injective naming) {n : Nat} {bytes : Bytes}
    (hslot : after.node? (output ++ (way ++ [naming n])) = some (.file bytes))
    (hsame : ∀ name, name ≠ naming n →
      after.node? (output ++ (way ++ [name])) = tree.node? (output ++ (way ++ [name])))
    (hself : contents' n = some bytes) (hrest : ∀ m, m ≠ n → contents' m = contents m) :
    HoldsFiles after output way naming contents' := by
  refine ⟨fun m => ?_, fun name hsome => ?_⟩
  · by_cases hm : m = n
    · rw [hm, hslot, hself]
      rfl
    · rw [hsame _ fun hname => hm (hnaming hname), h.slot, hrest m hm]
  · by_cases hname : name = naming n
    · exact ⟨n, hname⟩
    · rw [hsame name hname] at hsome
      exact h.named name hsome

theorem bijOn (hnaming : Function.Injective naming) :
    Set.BijOn naming {n | (contents n).isSome = true}
      {name | (tree.node? (output ++ (way ++ [name]))).isSome = true} := by
  have hsome : ∀ n, (tree.node? (output ++ (way ++ [naming n]))).isSome = (contents n).isSome := by
    intro n
    rw [h.slot, Option.isSome_map]
  refine ⟨fun n hn => (hsome n).trans hn, hnaming.injOn, fun name hname => ?_⟩
  obtain ⟨n, rfl⟩ := h.named name hname
  exact ⟨n, (hsome n).symm.trans hname, rfl⟩

end HoldsFiles

structure HoldsInputs (tree : FileTree) (output : Location) (index : Std.TreeMap Nat EntryMetadata)
    (inputs : Std.TreeMap Nat (Bytes × EntryMetadata)) : Prop where
  files : HoldsFiles tree output ["corpus"] slotName fun id => inputs[id]?.map Prod.fst
  known : ∀ id : Nat, index[id]? = inputs[id]?.map Prod.snd
  indexFile : tree.node? (output ++ ["corpus_index.json"]) =
    (if inputs.isEmpty then none else some (utf8 (CorpusIndex.render index))).map .file

theorem HoldsInputs.congr (h : HoldsInputs tree output index inputs)
    (hfiles : ∀ name, after.node? (output ++ ["corpus", name]) =
      tree.node? (output ++ ["corpus", name]))
    (hindex : after.node? (output ++ ["corpus_index.json"]) =
      tree.node? (output ++ ["corpus_index.json"])) : HoldsInputs after output index inputs :=
  ⟨h.files.congr hfiles, h.known, hindex.trans h.indexFile⟩

theorem HoldsInputs.persist (h : HoldsInputs tree output index inputs) {id : Nat} {bytes : Bytes}
    {entry : EntryMetadata} (hwrites : tree.WritesAll [(output ++ ["corpus", slotName id], bytes),
      (output ++ ["corpus_index.json"], utf8 (CorpusIndex.render (index.insert id entry)))] after) :
    HoldsInputs after output (index.insert id entry) (inputs.insert id (bytes, entry)) := by
  obtain ⟨hslot, hfile⟩ := hwrites.node?_pair (by simp)
  refine ⟨h.files.write slotName_injective hslot ?_ ?_ ?_, ?_, ?_⟩
  · intro name hname
    exact hwrites.touches.node?_eq (by simp [hname])
  · rw [Std.TreeMap.getElem?_insert_self]
    rfl
  · intro other hother
    rw [Std.TreeMap.getElem?_insert, if_neg (by simpa using hother.symm)]
  · intro other
    rw [Std.TreeMap.getElem?_insert, Std.TreeMap.getElem?_insert, h.known]
    split <;> rfl
  · rw [hfile, Std.TreeMap.isEmpty_insert]
    rfl

theorem HoldsInputs.render_index (h : HoldsInputs tree output index memory.inputs) :
    CorpusIndex.render index = CorpusIndex.render memory.metadata := by
  have hequiv : index.Equiv memory.metadata := .of_forall_constGet?_eq fun id => by
    rw [h.known, MemoryStore.metadata, Std.TreeMap.getElem?_map]
  rw [CorpusIndex.render, CorpusIndex.render, hequiv.isEmpty_eq, hequiv.toList_eq]

structure HoldsCoverage (tree : FileTree) (output : Location) (coverage : Option Coverage) :
    Prop where
  listing : tree.node? (output ++ ["coverage_hash"]) =
    (coverage.map fun map => utf8 (DiskStore.listing map)).map .file
  state : tree.node? (output ++ ["coverage.bin"]) = (coverage.map CoverageState.encode).map .file

theorem HoldsCoverage.congr (h : HoldsCoverage tree output coverage)
    (hlisting : after.node? (output ++ ["coverage_hash"]) = tree.node? (output ++ ["coverage_hash"]))
    (hstate : after.node? (output ++ ["coverage.bin"]) = tree.node? (output ++ ["coverage.bin"])) :
    HoldsCoverage after output coverage :=
  ⟨hlisting.trans h.listing, hstate.trans h.state⟩

theorem holdsCoverage_of_writes {map : Coverage}
    (hwrites : tree.WritesAll [(output ++ ["coverage_hash"], utf8 (DiskStore.listing map)),
      (output ++ ["coverage.bin"], CoverageState.encode map)] after) :
    HoldsCoverage after output (some map) := by
  obtain ⟨hlisting, hstate⟩ := hwrites.node?_pair (by simp)
  exact ⟨hlisting, hstate⟩

def plotFile (lines : Array String) : Bytes := lines.flatMap fun line => utf8 (line ++ "\n")

def HoldsPlot (tree : FileTree) (output : Location) (lines : Array String) : Prop :=
  tree.node? (output ++ ["plot_data"]) =
    (if lines.isEmpty then none else some (plotFile lines)).map .file

theorem HoldsPlot.contentAt_eq (h : HoldsPlot tree output lines) :
    tree.contentAt (output ++ ["plot_data"]) = plotFile lines := by
  rw [HoldsPlot] at h
  cases hempty : lines.isEmpty with
  | true =>
    rw [hempty] at h
    rw [contentAt_of_none h, Array.isEmpty_iff.1 hempty, plotFile, Array.flatMap_empty]
  | false =>
    rw [hempty] at h
    exact contentAt_of_file h

theorem HoldsPlot.append (h : HoldsPlot tree output lines) {line : String}
    (hwrites : tree.Writes (output ++ ["plot_data"])
      (tree.contentAt (output ++ ["plot_data"]) ++ utf8 (line ++ "\n")) after) :
    HoldsPlot after output (lines.push line) := by
  rw [h.contentAt_eq, plotFile, ← Array.flatMap_push] at hwrites
  rw [HoldsPlot, hwrites.node?_self, Array.isEmpty_push]
  rfl

/-- The files are what the store in memory keeps. -/
structure Agrees (disk : DiskStore) (output : Location) (memory : MemoryStore) : Prop where
  inputs : HoldsInputs disk.tree output disk.index memory.inputs
  coverage : HoldsCoverage disk.tree output memory.coverage
  plot : HoldsPlot disk.tree output memory.plotLines
  trials : HoldsFiles disk.tree output ["all", "success"] trialName (lastLogged memory.loggedTrials)

namespace Agrees

theorem perform (h : disk.Agrees output memory) (hlaid : disk.Laid outputDir output true)
    {request : Request} (hok : (Storage.perform disk request).1 = .ok ()) :
    (Storage.perform disk request).2.Agrees output (Storage.perform memory request).2 := by
  have hperforms := perform_performs hlaid request
  have htouches := hperforms.touches
  generalize Storage.perform disk request = outcome at *
  obtain ⟨result, later⟩ := outcome
  cases hperforms with
  | stops => cases hok
  | completes hwrites =>
    -- Each request has places of its own, so three of the four parts stay as they are.
    have hsame : ∀ place, place ∉ places output true request → _ :=
      fun place => htouches.node?_eq
    cases request with
    | persistInput id bytes entry =>
      exact ⟨h.inputs.persist hwrites,
        h.coverage.congr (hsame _ (by simp [places])) (hsame _ (by simp [places])),
        (hsame _ (by simp [places])).trans h.plot,
        h.trials.congr fun name => hsame _ (by simp [places])⟩
    | writeCoverage map =>
      exact ⟨h.inputs.congr (fun name => hsame _ (by simp [places])) (hsame _ (by simp [places])),
        holdsCoverage_of_writes hwrites, (hsame _ (by simp [places])).trans h.plot,
        h.trials.congr fun name => hsame _ (by simp [places])⟩
    | appendPlotLine line =>
      exact ⟨h.inputs.congr (fun name => hsame _ (by simp [places])) (hsame _ (by simp [places])),
        h.coverage.congr (hsame _ (by simp [places])) (hsame _ (by simp [places])),
        h.plot.append hwrites.single, h.trials.congr fun name => hsame _ (by simp [places])⟩
    | logTrial trial bytes =>
      have htrials := h.trials.write trialName_injective hwrites.single.node?_self
        (fun name hname => hsame _ (by simp [places, hname]))
        ((lastLogged_push memory.loggedTrials trial trial bytes).trans (if_pos rfl))
        fun other hother => (lastLogged_push ..).trans (if_neg hother)
      exact ⟨h.inputs.congr (fun name => hsame _ (by simp [places])) (hsame _ (by simp [places])),
        h.coverage.congr (hsame _ (by simp [places])) (hsame _ (by simp [places])),
        (hsame _ (by simp [places])).trans h.plot, htrials⟩

theorem afterAll (h : disk.Agrees output memory) (hlaid : disk.Laid outputDir output true)
    {requests : List Request}
    (hok : ∀ result ∈ (inTurn Storage.perform disk requests).1, result = .ok ()) :
    (afterAll disk requests).Agrees output (Storage.afterAll memory requests) := by
  induction requests generalizing disk memory with
  | nil => exact h
  | cons request requests ih =>
    obtain ⟨hfirst, hrest⟩ := List.forall_mem_cons.1 hok
    exact ih (h.perform hlaid hfirst) ((perform_performs hlaid request).laid hlaid) hrest

end Agrees

theorem prepare_has (h : tree.Proper) (hlead : tree.LeadsTo outputDir output)
    (hempty : tree.namesAt output = []) (hprepare : prepare tree outputDir true = (.ok store, after)) :
    store.Laid outputDir output true ∧ store.index = ∅ ∧
      tree.Has [output ++ ["corpus"], output ++ ["all"], output ++ ["all", "success"]] store.tree := by
  have hnothing : ∀ {name : String}, IsName name → ∀ names,
      tree.node? (output ++ name :: names) = none := h.node?_below hempty
  obtain ⟨made, hmake, hopen⟩ := prepare_opens hprepare
  have hmade : tree.Has [output ++ ["corpus"]] made :=
    makeDirectories_has (show ∀ name ∈ ["corpus"], IsName name by decide) hlead
      (steps_join (by decide) _) hmake
  have hcorpus : made.isDirectoryAt (output ++ ["corpus"]) = true := by
    rw [isDirectoryAt_iff, hmade, if_pos List.mem_cons_self]
  obtain ⟨hproper, -⟩ := makeDirectories_ok h hmake
  have hfile : ∀ {place}, made.isFileAt place = true → tree.node? place ≠ none := by
    intro place hfile hnone
    obtain ⟨content, hcontent⟩ := isFileAt_iff.1 hfile
    rw [hmade place] at hcontent
    split at hcontent
    · cases hcontent
    · cases hcontent.symm.trans hnone
  -- All that would be cleared lies below the directory that was empty, so there is nothing to clear.
  have hcleared : made.Has [] (clear made outputDir) := by
    obtain ⟨-, hlost⟩ := clear_loses hproper (hmade.keeps.reaches hlead) hcorpus
    intro place
    rw [if_neg List.not_mem_nil]
    refine (hlost place).2 ?_
    rintro ⟨⟨name, hname, rfl⟩ | ⟨name, rfl⟩, hheld⟩
    · exact hfile hheld (hnothing (isName_of_mem_artifactNames name hname) [])
    · rw [List.append_assoc] at hheld
      exact hfile hheld (hnothing (by decide) [name])
  have hready := hmade.trans hcleared
  rw [openIn, if_pos rfl] at hopen
  simp only at hopen
  split at hopen
  · cases hopen
  · rename_i last hmakeTrials
    obtain ⟨hstore, rfl⟩ := Prod.mk.inj hopen
    have htrials := makeDirectories_has (show ∀ name ∈ ["all", "success"], IsName name by decide)
      (hready.keeps.reaches hlead)
      (by rw [steps_join (by decide), steps_join (by decide), List.append_assoc]; rfl) hmakeTrials
    have hall := hready.trans htrials
    obtain ⟨output', hlaid, htree⟩ := prepare_laid h hprepare
    rw [← htree] at hall
    obtain rfl := hlaid.leads.unique (hall.keeps.reaches hlead)
    exact ⟨hlaid, by rw [← Except.ok.inj hstore], hall⟩

theorem agrees_empty (h : tree.Proper) (hlead : tree.LeadsTo outputDir output)
    (hempty : tree.namesAt output = []) (hprepare : prepare tree outputDir true = (.ok store, after)) :
    store.Laid outputDir output true ∧ store.Agrees output ∅ := by
  obtain ⟨hlaid, hindex, hhas⟩ := prepare_has h hlead hempty hprepare
  have hnone : ∀ {name : String} (names : List String), IsName name →
      name :: names ∉ [["corpus"], ["all"], ["all", "success"]] →
      store.tree.node? (output ++ name :: names) = none := by
    intro name names hname hother
    rw [hhas, if_neg, h.node?_below hempty hname]
    simpa using hother
  have hfiles : ∀ way naming, way ∈ [["corpus"], ["all", "success"]] →
      HoldsFiles store.tree output way naming fun _ => none := by
    intro way naming hway
    have hslots : ∀ name, store.tree.node? (output ++ (way ++ [name])) = none := by
      intro name
      rcases List.mem_pair.1 hway with rfl | rfl <;> exact hnone _ (by decide) (by simp)
    refine ⟨fun n => hslots _, fun name hsome => ?_⟩
    rw [hslots] at hsome
    cases hsome
  refine ⟨hlaid, ⟨?_, ?_, ?_⟩, ⟨?_, ?_⟩, ?_, ?_⟩
  · exact hfiles _ _ (by decide)
  · intro id
    rw [hindex]
    rfl
  · exact hnone [] (by decide) (by decide)
  · exact hnone [] (by decide) (by decide)
  · exact hnone [] (by decide) (by decide)
  · exact hnone [] (by decide) (by decide)
  · exact hfiles _ _ (by decide)

theorem coverage_afterAll {requests : List Request} {map : Coverage}
    (h : (afterAll memory requests).coverage = some map) :
    memory.coverage = some map ∨ .writeCoverage map ∈ requests := by
  induction requests generalizing memory with
  | nil => exact .inl h
  | cons request requests ih =>
    rcases ih h with hfirst | hrest
    · cases request with
      | persistInput | appendPlotLine | logTrial => exact .inl hfirst
      | writeCoverage written =>
        obtain rfl := Option.some.inj hfirst
        exact .inr List.mem_cons_self
    · exact .inr (List.mem_cons_of_mem _ hrest)

/-- If a store that was prepared in an empty directory performs some requests and none fails, its
files are what the store in memory keeps after the same requests: one for every saved input, the
index of these, the coverage, the plot lines, and one for every logged trial. There is no file for
what there was no request for. -/
theorem prepared_store_mirrors_memory (h : tree.Proper) (hlead : tree.LeadsTo outputDir output)
    (hempty : tree.namesAt output = []) (hprepare : prepare tree outputDir true = (.ok store, after))
    {requests : List Request}
    (hok : ∀ result ∈ (inTurn perform store requests).1, result = .ok ())
    (hsizes : ∀ map, .writeCoverage map ∈ requests → map.size < UInt64.size) :
    let disk := afterAll store requests
    let memory := afterAll (∅ : MemoryStore) requests
    (Set.BijOn slotName {id | id ∈ memory.inputs}
        {name | (disk.tree.node? (output ++ ["corpus", name])).isSome = true} ∧
      ∀ id bytes entry, memory.inputs[id]? = some (bytes, entry) →
        disk.tree.node? (output ++ ["corpus", slotName id]) = some (.file bytes)) ∧
    (disk.tree.node? (output ++ ["corpus_index.json"]) =
      if memory.inputs.isEmpty then none
      else some (.file (utf8 (CorpusIndex.render memory.metadata)))) ∧
    (((disk.tree.node? (output ++ ["coverage.bin"])).isSome = true ↔ memory.coverage.isSome = true) ∧
      ∀ map, memory.coverage = some map → CoverageState.load disk.tree disk.statePath = .ok map) ∧
    (disk.tree.node? (output ++ ["plot_data"]) =
      if memory.plotLines.isEmpty then none else some (.file (plotFile memory.plotLines))) ∧
    (Set.BijOn trialName {trial | (lastLogged memory.loggedTrials trial).isSome = true}
        {name | (disk.tree.node? (output ++ ["all", "success", name])).isSome = true} ∧
      ∀ trial bytes, lastLogged memory.loggedTrials trial = some bytes →
        disk.tree.node? (output ++ ["all", "success", trialName trial]) = some (.file bytes)) := by
  intro disk memory
  obtain ⟨hlaid, hstart⟩ := agrees_empty h hlead hempty hprepare
  have hagrees := hstart.afterAll hlaid hok
  obtain ⟨hlast, -⟩ := afterAll_touches hlaid requests
  refine ⟨⟨?_, ?_⟩, ?_, ⟨?_, ?_⟩, ?_, ?_, ?_⟩
  · have hbij := hagrees.inputs.files.bijOn slotName_injective
    simp only [Option.isSome_map, ← Std.TreeMap.mem_iff_isSome_getElem?] at hbij
    exact hbij
  · intro id bytes entry hsaved
    refine hagrees.inputs.files.node?_eq ?_
    rw [hsaved]
    rfl
  · rw [hagrees.inputs.indexFile, hagrees.inputs.render_index]
    split <;> rfl
  · rw [hagrees.coverage.state, Option.isSome_map, Option.isSome_map]
  · intro map hmap
    have hstate := hagrees.coverage.state
    rw [hmap] at hstate
    have hread : disk.tree.read disk.statePath = .ok (CoverageState.encode map) := by
      rw [read_eq_ok_iff, statePath, hlast.outputDir_eq]
      exact ⟨_, (locate_join (by decide)).2 ⟨output, hlast.leads, rfl⟩, hstate⟩
    rw [CoverageState.load, hread]
    exact CoverageState.decode_encode (hsizes map
      ((coverage_afterAll hmap).resolve_left (Option.some_ne_none map).symm))
  · rw [hagrees.plot]
    split <;> rfl
  · exact hagrees.trials.bijOn trialName_injective
  · intro trial bytes hlogged
    exact hagrees.trials.node?_eq hlogged

theorem prepared_store_mirrors_memory_overwritten :
    let tree : FileTree := ⟨[(["out"], .directory)]⟩
    let requests : List Request := [.persistInput 1000000 #[7, 7] ⟨"seed", "+cov", none, 2⟩,
      .logTrial 1 #[5, 6], .appendPlotLine "1", .writeCoverage ⟨#[0, 9]⟩,
      .persistInput 1000000 #[8] ⟨"random", "+max", some 0, 1⟩, .logTrial 1 #[5], .appendPlotLine "2"]
    ∃ store after, prepare tree "out" true = (.ok store, after) ∧
      (afterAll store requests).tree.node? ["out", "corpus", "id_1000000"] = some (.file #[8]) ∧
      CoverageState.load (afterAll store requests).tree (afterAll store requests).statePath =
        .ok ⟨#[0, 9]⟩ ∧
      (afterAll store requests).tree.node? ["out", "plot_data"] = some (.file (utf8 "1\n2\n")) ∧
      (afterAll store requests).tree.node? ["out", "all", "success", "id_000000001"] =
        some (.file #[5]) := by
  intro tree requests
  have hproper : tree.Proper := by
    simp only [FileTree.Proper, HasRoomAt, tree, List.forall_mem_cons]
    exact ⟨⟨[], "out", rfl, by decide, by decide⟩, by simp⟩
  have hlead : tree.LeadsTo "out" ["out"] := by
    rw [FileTree.LeadsTo, Path.components_name (by decide)]
    exact ⟨rfl, by decide⟩
  have hallOk : (prepare tree "out" true).1.toOption.all (fun store =>
      (inTurn perform store requests).1.all (·.isOk)) = true := by decide +kernel
  obtain ⟨store, after, hprepare⟩ :=
    exists_eq_ok (show (prepare tree "out" true).1.isOk = true by decide +kernel)
  rw [hprepare] at hallOk
  have hok : ∀ result ∈ (inTurn perform store requests).1, result = .ok () := by
    intro result hresult
    cases result with
    | ok => rfl
    | error => cases List.all_eq_true.1 hallOk _ hresult
  obtain ⟨⟨-, hinputs⟩, -, ⟨-, hcoverage⟩, hplot, -, htrials⟩ :=
    prepared_store_mirrors_memory hproper hlead (by decide +kernel) hprepare hok
      (by simp [requests, UInt64.size, Coverage.size])
  have hslot : slotName 1000000 = "id_1000000" := by decide +kernel
  have htrial : trialName 1 = "id_000000001" := by decide +kernel
  have hlines : plotFile (afterAll (∅ : MemoryStore) requests).plotLines = utf8 "1\n2\n" := by
    decide +kernel
  have hinput := hinputs 1000000 #[8] ⟨"random", "+max", some 0, 1⟩ (by decide +kernel)
  have hlogged := htrials 1 #[5] (by decide +kernel)
  rw [hslot] at hinput
  rw [htrial] at hlogged
  rw [if_neg (by decide), hlines] at hplot
  exact ⟨store, after, hprepare, hinput, hcoverage _ (by decide +kernel), hplot, hlogged⟩

/-- Before an input is saved there is no index, not even that of no inputs. -/
theorem no_index_at_first :
    let tree : FileTree := ⟨[(["out"], .directory)]⟩
    let requests : List Request := [.appendPlotLine "1"]
    ∃ store after, prepare tree "out" true = (.ok store, after) ∧
      (afterAll store requests).tree.node? ["out", "corpus_index.json"] ≠
        some (.file (utf8 (CorpusIndex.render (afterAll (∅ : MemoryStore) requests).metadata))) := by
  intro tree requests
  have hnone : (match prepare tree "out" true with
      | (.ok store, _) => ((afterAll store requests).tree.node? ["out", "corpus_index.json"]).isNone
      | (.error _, _) => false) = true := by decide +kernel
  obtain ⟨store, after, hprepare⟩ :=
    exists_eq_ok (show (prepare tree "out" true).1.isOk = true by decide +kernel)
  rw [hprepare] at hnone
  refine ⟨store, after, hprepare, ?_⟩
  rw [Option.isNone_iff_eq_none.1 hnone]
  nofun

end DiskStore

end Greybox
