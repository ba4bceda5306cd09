import Mathlib.Data.List.Dedup
import Mathlib.Data.List.Induction
import Greybox.Proofs.Corpus

namespace Greybox.Corpus

/-- What is done to a corpus: an input is saved with the points that it claims, or a child is
counted for an input. -/
inductive Change
  | save (input : Input) (claims : PointSet)
  | credit (parent : Nat)

def apply (corpus : Corpus) : Change → Corpus
  | .save input claims => (corpus.insert input claims).1
  | .credit parent =>
    match corpus.recordOffspring parent with
    | .ok credited => credited
    | .error _ => corpus

def ofChanges (changes : List Change) : Corpus := changes.foldl apply ∅

def saves (changes : List Change) : List (Input × PointSet) :=
  changes.filterMap fun
    | .save input claims => some (input, claims)
    | .credit _ => none

def lastClaimant (saved : List (Input × PointSet)) (p : Nat) : Option Nat :=
  (saved.zipIdx.reverse.find? fun entry => p ∈ entry.1.2).map (·.2)

variable {corpus : Corpus} {changes : List Change} {saved : List (Input × PointSet)} {α : Type}
  {f : Input → α} {p : Nat}

theorem ofChanges_concat (changes : List Change) (change : Change) :
    ofChanges (changes ++ [change]) = (ofChanges changes).apply change :=
  List.foldl_concat _ _ _ _

theorem saves_concat_save (changes : List Change) (input : Input) (claims : PointSet) :
    saves (changes ++ [.save input claims]) = saves changes ++ [(input, claims)] :=
  List.filterMap_append

theorem saves_concat_credit (changes : List Change) (parent : Nat) :
    saves (changes ++ [.credit parent]) = saves changes :=
  List.filterMap_append.trans (List.append_nil _)

theorem apply_credit {P : Corpus → Prop} (parent : Nat) (h : P corpus)
    (hcredited : ∀ credited, corpus.recordOffspring parent = .ok credited → P credited) :
    P (corpus.apply (.credit parent)) := by
  rw [apply]
  split
  · exact hcredited _ ‹_›
  · exact h

theorem readings_ofChanges (hf : Fixed f) (changes : List Change) :
    (ofChanges changes).readings f =
      (saves changes).zipIdx.map fun saved => f (saved.1.1.asEntry saved.2 saved.1.2) := by
  induction changes using List.reverseRecOn with
  | nil => rfl
  | append_singleton changes change ih =>
    rw [ofChanges_concat]
    cases change with
    | save input claims =>
      have hsize := congrArg List.length ih
      rw [length_readings, List.length_map, List.length_zipIdx] at hsize
      rw [apply, readings_insert hf, ih, hsize, saves_concat_save, List.zipIdx_append, List.map_append,
        Nat.zero_add]
      rfl
    | credit parent =>
      rw [saves_concat_credit, ← ih]
      refine apply_credit (P := fun later => later.readings f = _) parent rfl ?_
      intro credited h
      exact readings_recordOffspring hf h

theorem size_ofChanges (changes : List Change) :
    (ofChanges changes).size = (saves changes).length := by
  have hreadings := readings_ofChanges (f := fun _ => ()) ⟨fun _ _ => rfl, fun _ _ => rfl⟩ changes
  have hlength := congrArg List.length hreadings
  rwa [length_readings, List.length_map, List.length_zipIdx] at hlength

theorem lockstep_ofChanges (changes : List Change) : (ofChanges changes).Lockstep := by
  induction changes using List.reverseRecOn with
  | nil => exact lockstep_empty
  | append_singleton changes change ih =>
    rw [ofChanges_concat]
    cases change with
    | save input claims => exact lockstep_insert ih input claims
    | credit parent => exact apply_credit parent ih fun _ => lockstep_recordOffspring ih

theorem lastClaimant_concat (saved : List (Input × PointSet)) (input : Input) (claims : PointSet)
    (p : Nat) : lastClaimant (saved ++ [(input, claims)]) p =
      if p ∈ claims then some saved.length else lastClaimant saved p := by
  rw [lastClaimant, List.zipIdx_append, List.reverse_append]
  by_cases hp : p ∈ claims <;> simp [lastClaimant, hp]

theorem exists_lastClaimant :
    (∃ id, lastClaimant saved p = some id) ↔ ∃ entry ∈ saved, p ∈ entry.2 := by
  induction saved using List.reverseRecOn with
  | nil => simp [lastClaimant]
  | append_singleton saved entry ih =>
    rw [lastClaimant_concat]
    by_cases hp : p ∈ entry.2 <;> simp [hp, ih]

theorem owner?_ofChanges (changes : List Change) (p : Nat) :
    (ofChanges changes).owner? p = lastClaimant (saves changes) p := by
  induction changes using List.reverseRecOn with
  | nil => exact owner?_empty p
  | append_singleton changes change ih =>
    rw [ofChanges_concat]
    cases change with
    | save input claims =>
      rw [apply, owner?_insert, size_ofChanges, ih, saves_concat_save, lastClaimant_concat]
    | credit parent =>
      rw [saves_concat_credit, ← ih]
      refine apply_credit (P := fun later => later.owner? p = _) parent rfl ?_
      intro credited h
      exact owner?_recordOffspring h p

def core (entry : Input) : Input × Bool :=
  ({ entry with responsibilities := none, offspring := 0 }, entry.responsibilities.isSome)

theorem fixed_core : Fixed core where
  release entry p := by simp [core, Input.release]
  credit entry n := rfl

theorem get?_ofChanges {id : Nat} {input : Input} {claims : PointSet}
    (hsaved : (saves changes)[id]? = some (input, claims)) :
    ∃ points offspring, (ofChanges changes).get? id =
        some { input with
          id := some id, favored := !claims.isEmpty, responsibilities := some points, offspring } ∧
      ∀ p, p ∈ points ↔ (ofChanges changes).owner? p = some id := by
  have hcore : ((ofChanges changes).readings core)[id]? =
      some (core (input.asEntry id claims)) := by
    rw [readings_ofChanges fixed_core]
    simp [hsaved]
  rw [getElem?_readings, Option.map_eq_some_iff] at hcore
  obtain ⟨entry, hentry, hcore⟩ := hcore
  obtain ⟨hkept, hheld⟩ := Prod.ext_iff.1 hcore
  obtain ⟨points, hpoints⟩ := Option.isSome_iff_exists.1 hheld
  refine ⟨points, entry.offspring, ?_, ?_⟩
  · have hlater : entry = { (core entry).1 with
        responsibilities := some points, offspring := entry.offspring } := by
      rw [← hpoints]
      rfl
    rw [hkept] at hlater
    exact hentry.trans (congrArg some hlater)
  · intro p
    rw [lockstep_ofChanges changes p id, hentry]
    simp [Input.Owns, hpoints]

/-- Whatever inputs are saved with whatever claims, and whatever children are counted in between:
ids follow the order of saving, the owner of a point is the last input saved that claimed it, and an
entry is the input as it was saved, holds exactly the points that it owns, and is favored if it
claimed any, also when it has lost them all. As many points are held as were ever claimed. A child
of an input that is not in the corpus is refused and changes nothing. -/
theorem ownership_follows_claims (changes : List Change) :
    let corpus := ofChanges changes
    let saved := saves changes
    corpus.size = saved.length ∧
    (∀ p, corpus.owner? p = lastClaimant saved p) ∧
    (∀ id input claims, saved[id]? = some (input, claims) → ∃ points offspring,
      corpus.get? id = some { input with
        id := some id, favored := !claims.isEmpty, responsibilities := some points, offspring } ∧
      ∀ p, p ∈ points ↔ corpus.owner? p = some id) ∧
    corpus.responsibilitySum = (saved.flatMap (·.2.toList)).dedup.length ∧
    ∀ parent, corpus.size ≤ parent →
      corpus.recordOffspring parent = .error ⟨parent⟩ ∧ corpus.apply (.credit parent) = corpus := by
  intro corpus saved
  refine ⟨size_ofChanges changes, owner?_ofChanges changes, fun _ _ _ => get?_ofChanges, ?_, ?_⟩
  · apply responsibilitySum_eq_length (lockstep_ofChanges changes) (List.nodup_dedup _)
    intro p
    rw [owner?_ofChanges, exists_lastClaimant, List.mem_dedup, List.mem_flatMap]
    rfl
  · intro parent hparent
    have hrefused : corpus.recordOffspring parent = .error ⟨parent⟩ := if_neg (Nat.not_lt.2 hparent)
    refine ⟨hrefused, ?_⟩
    rw [apply, hrefused]

theorem ownership_follows_claims_stolen :
    let input := Input.ofGenerated (.fresh {} 0) "random"
    let changes : List Change := [.save input (.ofList [1, 2]), .credit 0,
      .save input (.ofList [2, 5]), .credit 7, .save input (.ofList [5])]
    (ofChanges changes).responsibilitySum = 3 ∧ (ofChanges changes).owner? 5 = some 2 ∧
      ∃ entry points, (ofChanges changes).get? 1 = some entry ∧ entry.favored = true ∧
        entry.responsibilities = some points ∧ 5 ∉ points := by
  intro input changes
  obtain ⟨-, howner, hentries, hsum, -⟩ := ownership_follows_claims changes
  have hlast : (ofChanges changes).owner? 5 = some 2 := (howner 5).trans (by decide +kernel)
  obtain ⟨points, offspring, hentry, hpoints⟩ := hentries 1 input (.ofList [2, 5]) rfl
  have hfavored : (!(PointSet.ofList [2, 5]).isEmpty) = true := by decide +kernel
  refine ⟨hsum.trans (by decide +kernel), hlast, _, points, hentry, hfavored, rfl, ?_⟩
  rw [hpoints 5, hlast]
  decide

end Greybox.Corpus
