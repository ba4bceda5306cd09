import Mathlib.Data.List.Basic
import Greybox.Proofs.Storage.Disk

namespace Greybox.DiskStore

open FileTree Storage

variable {tree before after : FileTree} {output place : Location} {outputDir : String}
  {earlier store : DiskStore} {logTrials logAgain : Bool} {requests : List Request} {request : Request}

def IsTrialSlot (output place : Location) : Prop :=
  ∃ name, place = output ++ ["all", "success", name]

/-- A store keeps its files there: its artifacts, the saved inputs and the logged trials. -/
def IsSlot (output place : Location) : Prop :=
  (∃ name ∈ artifactNames, place = output ++ [name]) ∨ (∃ name, place = output ++ ["corpus", name]) ∨
    IsTrialSlot output place

theorem isSlot_of_mem_places (h : place ∈ places output logTrials request) : IsSlot output place := by
  cases request with
  | persistInput id bytes entry =>
    rcases List.mem_pair.1 h with rfl | rfl
    · exact .inr (.inl ⟨_, rfl⟩)
    · exact .inl ⟨_, by decide, rfl⟩
  | writeCoverage map =>
    rcases List.mem_pair.1 h with rfl | rfl <;> exact .inl ⟨_, by decide, rfl⟩
  | appendPlotLine line => exact .inl ⟨_, by decide, List.mem_singleton.1 h⟩
  | logTrial trial bytes =>
    cases logTrials with
    | false => cases h
    | true => exact .inr (.inr ⟨_, List.mem_singleton.1 h⟩)

theorem isTrialSlot_iff_of_mem_places (h : place ∈ places output logTrials request) :
    IsTrialSlot output place ↔ ∃ trial bytes, request = .logTrial trial bytes := by
  cases request with
  | persistInput id bytes entry =>
    rcases List.mem_pair.1 h with rfl | rfl <;> simp [IsTrialSlot]
  | writeCoverage map => rcases List.mem_pair.1 h with rfl | rfl <;> simp [IsTrialSlot]
  | appendPlotLine line =>
    obtain rfl := List.mem_singleton.1 h
    simp [IsTrialSlot]
  | logTrial trial bytes =>
    cases logTrials with
    | false => cases h
    | true => exact iff_of_true ⟨_, List.mem_singleton.1 h⟩ ⟨trial, bytes, rfl⟩

theorem spared_iff (h : IsSlot output place) :
    ¬ ((∃ name ∈ artifactNames, place = output ++ [name]) ∨
      ∃ name, place = output ++ ["corpus"] ++ [name]) ↔ IsTrialSlot output place := by
  rcases h with hartifact | ⟨name, rfl⟩ | ⟨name, rfl⟩
  · obtain ⟨name, -, rfl⟩ := id hartifact
    exact iff_of_false (fun hspared => hspared (.inl hartifact)) (by simp [IsTrialSlot])
  · exact iff_of_false (fun hspared => hspared (.inr ⟨name, by simp⟩)) (by simp [IsTrialSlot])
  · exact iff_of_true (by simp) ⟨name, rfl⟩

theorem prepare_keeps (h : tree.Proper)
    (hprepare : prepare tree outputDir logTrials = (.ok store, after)) : tree.Keeps after := by
  obtain ⟨made, output, hgrows, -, -, hlost, hopened, -⟩ := prepare_ok h hprepare
  exact fun location hdir => hopened.keeps _ (hlost.keeps _ (hgrows.keeps _ hdir))

theorem file_iff_of_prepare (h : tree.Proper) (hlead : tree.LeadsTo outputDir output)
    (hprepare : prepare tree outputDir logTrials = (.ok store, after)) (hslot : IsSlot output place)
    (content : Bytes) : after.node? place = some (.file content) ↔
      tree.node? place = some (.file content) ∧ IsTrialSlot output place := by
  obtain ⟨made, output', hgrows, hlead', -, hlost, hopened, -⟩ := prepare_ok h hprepare
  obtain rfl := (hgrows.keeps.reaches hlead).unique hlead'
  rw [hopened.file_iff, hlost.file_iff, hgrows.file_iff, spared_iff hslot]

/-- Of the files that an earlier session wrote, exactly the logged trials are left when the
directory is prepared again. So what is found in a slot later on was written by the new session, or
is a trial that was there before. -/
theorem prepare_leaves_trials (h : tree.Proper)
    (hprepare : prepare tree outputDir logTrials = (.ok earlier, before))
    (hagain : prepare (afterAll earlier requests).tree outputDir logAgain = (.ok store, after)) :
    ∃ output, before.LeadsTo outputDir output ∧ after.LeadsTo outputDir output ∧
      (∀ request ∈ requests, ∀ place ∈ places output logTrials request,
        (afterAll earlier requests).tree.isFileAt place = true →
          (after.isFileAt place = true ↔ ∃ trial bytes, request = .logTrial trial bytes)) ∧
      ∀ more place, IsSlot output place →
        (∀ request ∈ more, place ∉ places output logAgain request) → ∀ content,
          ((afterAll store more).tree.node? place = some (.file content) ↔
            (afterAll earlier requests).tree.node? place = some (.file content) ∧
              IsTrialSlot output place) := by
  obtain ⟨output, hlaid, rfl⟩ := prepare_laid h hprepare
  obtain ⟨hleft, -⟩ := afterAll_touches hlaid requests
  have hproper := prepare_leads_proper h hprepare (afterAll_leads earlier requests)
  have hfiles := fun place (hslot : IsSlot output place) =>
    file_iff_of_prepare hproper hleft.leads hagain hslot
  obtain ⟨output', hagainLaid, rfl⟩ := prepare_laid hproper hagain
  have hlead := (prepare_keeps hproper hagain).reaches hleft.leads
  obtain rfl := hlead.unique hagainLaid.leads
  refine ⟨output, hlaid.leads, hlead, ?_, ?_⟩
  · intro request _ place hplace hfile
    obtain ⟨content, hcontent⟩ := isFileAt_iff.1 hfile
    rw [← isTrialSlot_iff_of_mem_places hplace, isFileAt_iff]
    simp only [hfiles place (isSlot_of_mem_places hplace), hcontent]
    simp
  · intro more place hslot hunwritten content
    obtain ⟨-, htouches⟩ := afterAll_touches hagainLaid more
    rw [htouches.node?_eq (by simpa using hunwritten), hfiles place hslot]

/-- Trials are logged in a first session and not in the second one: the input that the first one
saved is gone, its trial is still there. -/
theorem prepare_leaves_trials_logged :
    ∃ earlier before store after, prepare ∅ "out" true = (.ok earlier, before) ∧
      prepare (afterAll earlier [.persistInput 0 #[7] ⟨"seed", "+cov", none, 1⟩,
        .logTrial 1 #[7]]).tree "out" false = (.ok store, after) ∧
      after.isFileAt ["out", "corpus", "id_000000"] = false ∧
      after.isFileAt ["out", "all", "success", "id_000000001"] = true := by
  let requests : List Request :=
    [.persistInput 0 #[7] ⟨"seed", "+cov", none, 1⟩, .logTrial 1 #[7]]
  have hok : (match prepare ∅ "out" true with
      | (.ok earlier, _) => (prepare (afterAll earlier requests).tree "out" false).1.isOk &&
          (afterAll earlier requests).tree.isFileAt ["out", "corpus", slotName 0] &&
          (afterAll earlier requests).tree.isFileAt ["out", "all", "success", trialName 1]
      | (.error _, _) => false) = true := by decide +kernel
  have hslot : slotName 0 = "id_000000" := by decide +kernel
  have htrial : trialName 1 = "id_000000001" := by decide +kernel
  obtain ⟨earlier, before, hprepare⟩ :=
    exists_eq_ok (show (prepare ∅ "out" true).1.isOk = true by decide +kernel)
  rw [hprepare] at hok
  simp only [Bool.and_eq_true] at hok
  obtain ⟨⟨hok, hcorpus⟩, htrials⟩ := hok
  obtain ⟨store, after, hagain⟩ := exists_eq_ok hok
  obtain ⟨output, -, hlead, hwritten, -⟩ := prepare_leaves_trials proper_empty hprepare hagain
  obtain rfl : output = ["out"] := by
    rw [FileTree.LeadsTo, Path.components_name (by decide)] at hlead
    exact (Except.ok.inj hlead.1).symm
  have hgone := hwritten (.persistInput 0 #[7] ⟨"seed", "+cov", none, 1⟩) (by simp [requests])
    ["out", "corpus", slotName 0] (by simp [places]) hcorpus
  have hkept := hwritten (.logTrial 1 #[7]) (by simp [requests])
    ["out", "all", "success", trialName 1] (by simp [places]) htrials
  rw [hslot] at hgone
  rw [htrial] at hkept
  refine ⟨earlier, before, store, after, hprepare, hagain, ?_, hkept.2 ⟨1, #[7], rfl⟩⟩
  simpa using hgone

end Greybox.DiskStore
