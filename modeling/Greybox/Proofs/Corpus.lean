import Greybox.Corpus

namespace Greybox

namespace Input

def Owns (input : Input) (p : Nat) : Prop :=
  ∃ points, input.responsibilities = some points ∧ p ∈ points

theorem owns_release {input : Input} {p q : Nat} :
    (input.release p).Owns q ↔ input.Owns q ∧ q ≠ p := by
  simp only [Owns, release, Option.map_eq_some_iff]
  constructor
  · rintro ⟨_, ⟨points, hpoints, rfl⟩, hq⟩
    exact ⟨⟨points, hpoints, (PointSet.mem_erase.1 hq).1⟩, (PointSet.mem_erase.1 hq).2⟩
  · rintro ⟨⟨points, hpoints, hq⟩, hne⟩
    exact ⟨_, ⟨points, hpoints, rfl⟩, PointSet.mem_erase.2 ⟨hq, hne⟩⟩

def points (input : Input) : List Nat := (input.responsibilities.map (·.toList)).getD []

theorem mem_points {input : Input} {p : Nat} : p ∈ input.points ↔ input.Owns p := by
  rw [points, Owns]
  cases input.responsibilities with
  | none => simp
  | some points =>
    constructor
    · intro hp
      exact ⟨points, rfl, hp⟩
    · rintro ⟨_, h, hp⟩
      cases h
      exact hp

theorem nodup_points (input : Input) : input.points.Nodup := by
  rw [points]
  cases input.responsibilities with
  | none => exact List.nodup_nil
  | some points => exact points.ascending.imp Nat.ne_of_lt

theorem length_points (input : Input) : input.points.length = input.responsibilityCount := by
  rw [points, responsibilityCount]
  cases input.responsibilities with
  | none => rfl
  | some points => rfl

def asEntry (input : Input) (id : Nat) (claims : PointSet) : Input :=
  { input with id := some id, favored := !claims.isEmpty, responsibilities := some claims }

theorem owns_asEntry {input : Input} {id p : Nat} {claims : PointSet} :
    (input.asEntry id claims).Owns p ↔ p ∈ claims := by
  simp [Owns, asEntry]

end Input

namespace Corpus

variable {corpus corpus' : Corpus} {input : Input} {claims : PointSet} {parent : Nat}
  {P : Nat → Input → Prop}

def Each (P : Nat → Input → Prop) (corpus : Corpus) : Prop :=
  ∀ id entry, corpus.get? id = some entry → P id entry

/-- The property of an entry outlasts what saving later inputs does to the entry. -/
structure Stable (P : Nat → Input → Prop) : Prop where
  release : ∀ {id entry} p, P id entry → P id (entry.release p)
  credit : ∀ {id entry} n, P id entry → P id { entry with offspring := n }

theorem get?_lt {id : Nat} {entry : Input} (h : corpus.get? id = some entry) : id < corpus.size :=
  (Array.getElem?_eq_some_iff.1 h).1

theorem exists_get? {id : Nat} (h : id < corpus.size) : ∃ entry, corpus.get? id = some entry :=
  ⟨corpus.entries[id], Array.getElem?_eq_some_iff.2 ⟨h, rfl⟩⟩

@[simp] theorem get?_empty (id : Nat) : (∅ : Corpus).get? id = none := rfl

@[simp] theorem owner?_empty (p : Nat) : (∅ : Corpus).owner? p = none :=
  Std.TreeMap.getElem?_emptyc

theorem each_empty : (∅ : Corpus).Each P := fun id entry h => by simp at h

theorem exists_of_select {ρ : Type} [WordSource ρ] {g : ρ} (h : (corpus.select g).1 = some input) :
    ∃ id, corpus.get? id = some input := by
  rw [select] at h
  split at h
  · cases h
  · exact ⟨_, h⟩

section

variable (h : corpus.recordOffspring parent = .ok corpus')

theorem recordOffspring_eq_ok (hparent : parent < corpus.size) :
    corpus.recordOffspring parent = .ok { corpus with
      entries := corpus.entries.modify parent fun input =>
        { input with offspring := input.offspring + 1 } } :=
  if_pos hparent

include h

theorem eq_of_recordOffspring : corpus' = { corpus with
    entries := corpus.entries.modify parent fun input =>
      { input with offspring := input.offspring + 1 } } := by
  rw [recordOffspring] at h
  split at h
  · exact (Except.ok.inj h).symm
  · cases h

theorem size_recordOffspring : corpus'.size = corpus.size := by
  rw [eq_of_recordOffspring h]
  exact Array.size_modify

theorem owner?_recordOffspring (p : Nat) : corpus'.owner? p = corpus.owner? p := by
  rw [eq_of_recordOffspring h]
  rfl

theorem get?_recordOffspring (id : Nat) : corpus'.get? id = (corpus.get? id).map fun entry =>
    if parent = id then { entry with offspring := entry.offspring + 1 } else entry := by
  rw [eq_of_recordOffspring h]
  simp only [get?, Array.getElem?_modify]
  split <;> simp

theorem each_recordOffspring (hP : corpus.Each P) (hstable : Stable P) : corpus'.Each P := by
  intro id entry hentry
  rw [get?_recordOffspring h, Option.map_eq_some_iff] at hentry
  obtain ⟨old, hold, rfl⟩ := hentry
  split
  · exact hstable.credit _ (hP id old hold)
  · exact hP id old hold

end

def releaseAll (id : Nat) (entry : Input) (steals : List Steal) : Input :=
  (steals.filter (·.previous = id)).foldl (fun entry steal => entry.release steal.point) entry

theorem getElem?_release (steals : List Steal) (entries : Array Input) (id : Nat) :
    (steals.foldl (fun entries steal => entries.modify steal.previous (·.release steal.point))
      entries)[id]? = entries[id]?.map (releaseAll id · steals) := by
  induction steals generalizing entries with
  | nil => simp [releaseAll]
  | cons steal steals ih =>
    rw [List.foldl_cons, ih, Array.getElem?_modify]
    by_cases h : steal.previous = id
    · simp [releaseAll, h, Function.comp_def]
    · simp [releaseAll, h]

theorem size_release (steals : List Steal) (entries : Array Input) :
    (steals.foldl (fun entries steal => entries.modify steal.previous (·.release steal.point))
      entries).size = entries.size := by
  induction steals generalizing entries with
  | nil => rfl
  | cons steal steals ih => rw [List.foldl_cons, ih, Array.size_modify]

theorem owns_releaseAll {id p : Nat} {entry : Input} {steals : List Steal} :
    (releaseAll id entry steals).Owns p ↔
      entry.Owns p ∧ ∀ steal ∈ steals, steal.previous = id → steal.point ≠ p := by
  rw [releaseAll]
  induction steals generalizing entry with
  | nil => simp
  | cons steal steals ih =>
    by_cases h : steal.previous = id
    · simp only [List.filter_cons, h, decide_true, if_true, List.foldl_cons, ih, Input.owns_release]
      grind
    · simp only [List.filter_cons, h, decide_false, Bool.false_eq_true, if_false, ih]
      grind

theorem releaseAll_induction {Q : Input → Prop} {id : Nat} {entry : Input} (steals : List Steal)
    (hQ : Q entry) (hrelease : ∀ entry p, Q entry → Q (entry.release p)) :
    Q (releaseAll id entry steals) := by
  rw [releaseAll]
  generalize steals.filter (·.previous = id) = taken
  induction taken generalizing entry with
  | nil => exact hQ
  | cons steal taken ih => exact ih (hrelease entry steal.point hQ)

theorem mem_steals {steal : Steal} : steal ∈ corpus.steals claims ↔
    steal.point ∈ claims ∧ corpus.owner? steal.point = some steal.previous := by
  simp only [steals, List.mem_filterMap, Option.map_eq_some_iff]
  constructor
  · rintro ⟨point, hpoint, previous, hprevious, rfl⟩
    exact ⟨hpoint, hprevious⟩
  · rintro ⟨hpoint, hprevious⟩
    exact ⟨steal.point, hpoint, steal.previous, hprevious, rfl⟩

theorem size_insert (corpus : Corpus) (input : Input) (claims : PointSet) :
    (corpus.insert input claims).1.size = corpus.size + 1 := by
  simp only [insert, size, Array.size_push, size_release]

theorem get?_insert (corpus : Corpus) (input : Input) (claims : PointSet) (id : Nat) :
    (corpus.insert input claims).1.get? id =
      if id = corpus.size then some (input.asEntry id claims)
      else (corpus.get? id).map (releaseAll id · (corpus.steals claims)) := by
  simp only [insert, get?, Array.getElem?_push, size_release, getElem?_release]
  by_cases h : id = corpus.size
  · subst h
    simp [Input.asEntry, nextId, size]
  · have hne : ¬ id = corpus.entries.size := h
    simp only [h, hne, if_false]

theorem owner?_insert (corpus : Corpus) (input : Input) (claims : PointSet) (p : Nat) :
    (corpus.insert input claims).1.owner? p =
      if p ∈ claims then some corpus.size else corpus.owner? p := by
  change (claims.toList.foldl (fun owners point => owners.insert point corpus.size)
    corpus.owners)[p]? = if p ∈ claims.toList then some corpus.size else corpus.owners[p]?
  generalize claims.toList = points
  generalize corpus.owners = owners
  induction points generalizing owners with
  | nil => simp
  | cons q points ih =>
    rw [List.foldl_cons, ih, Std.TreeMap.getElem?_insert]
    grind

theorem each_insert (hP : corpus.Each P) (hstable : Stable P)
    (hnew : P corpus.size (input.asEntry corpus.size claims)) :
    (corpus.insert input claims).1.Each P := by
  intro id entry hentry
  rw [get?_insert] at hentry
  split at hentry
  · rename_i h
    subst h
    cases hentry
    exact hnew
  · obtain ⟨old, hold, rfl⟩ := Option.map_eq_some_iff.1 hentry
    exact releaseAll_induction _ (hP id old hold) fun _ => hstable.release

/-- The points that an entry holds are exactly the ones that the index gives it. -/
def Lockstep (corpus : Corpus) : Prop :=
  ∀ p id, corpus.owner? p = some id ↔ ∃ entry, corpus.get? id = some entry ∧ entry.Owns p

theorem lockstep_empty : (∅ : Corpus).Lockstep := fun p id => by simp

theorem lockstep_recordOffspring (hcorpus : corpus.Lockstep)
    (h : corpus.recordOffspring parent = .ok corpus') : corpus'.Lockstep := by
  intro p id
  rw [owner?_recordOffspring h, hcorpus p id, get?_recordOffspring h]
  simp only [Option.map_eq_some_iff]
  constructor
  · rintro ⟨entry, hentry, howns⟩
    refine ⟨_, ⟨entry, hentry, rfl⟩, ?_⟩
    split <;> exact howns
  · rintro ⟨_, ⟨entry, hentry, rfl⟩, howns⟩
    refine ⟨entry, hentry, ?_⟩
    split at howns <;> exact howns

theorem lockstep_insert (hcorpus : corpus.Lockstep) (input : Input) (claims : PointSet) :
    (corpus.insert input claims).1.Lockstep := by
  intro p id
  rw [owner?_insert, get?_insert]
  -- The new id has owned nothing so far; the entries under older ids lose what is claimed.
  by_cases hid : id = corpus.size
  · subst hid
    have hold : corpus.owner? p ≠ some corpus.size := by
      intro h
      obtain ⟨entry, hentry, -⟩ := (hcorpus p _).1 h
      exact absurd (get?_lt hentry) (Nat.lt_irrefl _)
    by_cases hp : p ∈ claims <;> simp [hp, hold, Input.owns_asEntry]
  · simp only [hid, if_false, Option.map_eq_some_iff]
    by_cases hp : p ∈ claims
    · simp only [hp, if_true, Option.some.injEq]
      refine iff_of_false (Ne.symm hid) ?_
      rintro ⟨_, ⟨entry, hentry, rfl⟩, howns⟩
      obtain ⟨hold, hkept⟩ := owns_releaseAll.1 howns
      have howner : corpus.owner? p = some id := (hcorpus p id).2 ⟨entry, hentry, hold⟩
      exact hkept ⟨p, id⟩ (mem_steals.2 ⟨hp, howner⟩) rfl rfl
    · simp only [hp, if_false, hcorpus p id]
      constructor
      · rintro ⟨entry, hentry, howns⟩
        refine ⟨_, ⟨entry, hentry, rfl⟩, owns_releaseAll.2 ⟨howns, ?_⟩⟩
        rintro steal hsteal - rfl
        exact hp (mem_steals.1 hsteal).1
      · rintro ⟨_, ⟨entry, hentry, rfl⟩, howns⟩
        exact ⟨entry, hentry, (owns_releaseAll.1 howns).1⟩

section

variable {α : Type} {f : Input → α}

structure Fixed (f : Input → α) : Prop where
  release : ∀ entry p, f (entry.release p) = f entry
  credit : ∀ (entry : Input) n, f { entry with offspring := n } = f entry

def readings (f : Input → α) (corpus : Corpus) : List α := corpus.entries.toList.map f

@[simp] theorem readings_empty (f : Input → α) : (∅ : Corpus).readings f = [] := rfl

@[simp] theorem length_readings (f : Input → α) (corpus : Corpus) :
    (corpus.readings f).length = corpus.size := by
  simp [readings, size]

theorem getElem?_readings (f : Input → α) (corpus : Corpus) (id : Nat) :
    (corpus.readings f)[id]? = (corpus.get? id).map f := by
  simp [readings, get?]

theorem readings_recordOffspring (hf : Fixed f) (h : corpus.recordOffspring parent = .ok corpus') :
    corpus'.readings f = corpus.readings f := by
  apply List.ext_getElem?
  intro id
  rw [getElem?_readings, getElem?_readings, get?_recordOffspring h, Option.map_map]
  congr 1
  funext entry
  by_cases hid : parent = id
  · simp [hid, hf.credit]
  · simp [hid]

theorem readings_insert (hf : Fixed f) (corpus : Corpus) (input : Input) (claims : PointSet) :
    (corpus.insert input claims).1.readings f =
      corpus.readings f ++ [f (input.asEntry corpus.size claims)] := by
  have hkept : ∀ id entry, f (releaseAll id entry (corpus.steals claims)) = f entry := by
    intro id entry
    exact releaseAll_induction (Q := fun released => f released = f entry) _ rfl
      fun released p h => (hf.release released p).trans h
  apply List.ext_getElem?
  intro id
  rw [getElem?_readings, get?_insert, List.getElem?_append, length_readings]
  by_cases hid : id = corpus.size
  · simp [hid]
  · by_cases hlt : id < corpus.size
    · rw [if_neg hid, if_pos hlt, getElem?_readings, Option.map_map]
      congr 1
      funext entry
      exact hkept id entry
    · have hnone : corpus.get? id = none := Array.getElem?_eq_none (Nat.not_lt.1 hlt)
      have hbeyond : id - corpus.size ≠ 0 := by omega
      simp [hid, hlt, hnone, hbeyond]

end

def heldPoints (corpus : Corpus) : List Nat := corpus.entries.toList.flatMap Input.points

theorem mem_heldPoints {p : Nat} :
    p ∈ corpus.heldPoints ↔ ∃ id entry, corpus.get? id = some entry ∧ entry.Owns p := by
  simp only [heldPoints, List.mem_flatMap, Input.mem_points]
  constructor
  · rintro ⟨entry, hmem, howns⟩
    obtain ⟨id, hentry⟩ := List.mem_iff_getElem?.1 hmem
    exact ⟨id, entry, Array.getElem?_toList.symm.trans hentry, howns⟩
  · rintro ⟨id, entry, hentry, howns⟩
    have hmem : entry ∈ corpus.entries.toList :=
      List.mem_iff_getElem?.2 ⟨id, Array.getElem?_toList.trans hentry⟩
    exact ⟨entry, hmem, howns⟩

theorem nodup_heldPoints (hcorpus : corpus.Lockstep) : corpus.heldPoints.Nodup := by
  refine List.pairwise_flatMap.2 ⟨fun entry _ => entry.nodup_points, ?_⟩
  rw [List.pairwise_iff_getElem]
  rintro i j hi hj hij p hp q hq rfl
  rw [Input.mem_points] at hp hq
  have hi' : corpus.get? i = some corpus.entries.toList[i] := by
    rw [get?, ← Array.getElem?_toList, List.getElem?_eq_getElem hi]
  have hj' : corpus.get? j = some corpus.entries.toList[j] := by
    rw [get?, ← Array.getElem?_toList, List.getElem?_eq_getElem hj]
  -- Both entries that hold the point would be its owner.
  have howner : corpus.owner? p = some i := (hcorpus p i).2 ⟨_, hi', hp⟩
  have howner' : corpus.owner? p = some j := (hcorpus p j).2 ⟨_, hj', hq⟩
  have heq : i = j := Option.some.inj (howner.symm.trans howner')
  exact absurd heq (Nat.ne_of_lt hij)

theorem responsibilitySum_eq (corpus : Corpus) :
    corpus.responsibilitySum =
      corpus.entries.toList.foldl (fun sum entry => sum + entry.responsibilityCount) 0 := by
  rw [responsibilitySum, Array.foldl_toList]

theorem length_heldPoints (corpus : Corpus) :
    corpus.heldPoints.length = corpus.responsibilitySum := by
  rw [responsibilitySum_eq, heldPoints, List.length_flatMap, List.sum_eq_foldl, List.foldl_map]
  congr 1
  funext sum entry
  congr 1
  exact entry.length_points

theorem responsibilitySum_eq_length {points : List Nat} (hcorpus : corpus.Lockstep)
    (hnodup : points.Nodup) (h : ∀ p, (∃ id, corpus.owner? p = some id) ↔ p ∈ points) :
    corpus.responsibilitySum = points.length := by
  rw [← length_heldPoints]
  apply List.Perm.length_eq
  rw [List.perm_ext_iff_of_nodup (nodup_heldPoints hcorpus) hnodup]
  intro p
  rw [← h p, mem_heldPoints]
  exact exists_congr fun id => (hcorpus p id).symm

end Corpus

end Greybox
