import Greybox.Proofs.Target.Replay

namespace Greybox

namespace Coverage

variable {map : Coverage} {p : Nat}

theorem toNat_get_recordHit (hp : p < map.size) (point : Nat) :
    ((map.recordHit point).get p).toNat =
      min 255 ((map.get p).toNat + if point = p then 1 else 0) := by
  have hget : (map.recordHit point).get p =
      if point = p then (if map.get p = 255 then 255 else map.get p + 1) else map.get p := by
    simp only [size] at hp
    simp [recordHit, get, Array.getD, hp, Array.getElem_modify]
  have hbound := (map.get p).toNat_lt
  rw [hget]
  by_cases hpoint : point = p
  · rw [if_pos hpoint, if_pos hpoint]
    by_cases hfull : map.get p = 255
    · rw [if_pos hfull, hfull]
      rfl
    · have hroom : (map.get p).toNat ≠ 255 := fun h => hfull (UInt8.toNat_inj.1 h)
      rw [if_neg hfull, UInt8.toNat_add, UInt8.toNat_one]
      omega
  · rw [if_neg hpoint, if_neg hpoint]
    omega

theorem toNat_get_foldl_recordHit (hp : p < map.size) (hits : List Nat) :
    ((hits.foldl recordHit map).get p).toNat = min 255 ((map.get p).toNat + hits.count p) := by
  induction hits generalizing map with
  | nil =>
    have hbound := (map.get p).toNat_lt
    simp only [List.foldl_nil, List.count_nil]
    omega
  | cons point hits ih =>
    rw [List.foldl_cons, ih (by simpa using hp), toNat_get_recordHit hp, List.count_cons]
    simp only [beq_iff_eq]
    omega

end Coverage

/-- The feed has the bytes in front of it and then the end of its source, and no read will fail. -/
def Feed.Holds (feed : Feed) (source : ByteSource) (done rest : List UInt8) : Prop :=
  feed.Delivered done ∧ done ++ rest = source.data ∧
    ∃ answers, handedOut answers = done ∧ feed.Draws source answers

namespace Feed.Holds

variable {feed : Feed} {source : ByteSource} {done rest : List UInt8}

theorem start (h : source.Reliable) (origin : String) :
    (Feed.start (.ofSeed (.ofSource origin source))).Holds source [] source.data := by
  refine ⟨⟨rfl, rfl, ?_⟩, rfl, [], rfl, Gives.refl.draws rfl⟩
  rintro _ ⟨⟩
  exact h

theorem next (h : feed.Holds source done rest) :
    feed.next.1 = (rest.head?.elim .ended .byte) ∧
      feed.next.2.Holds source (done ++ rest.take 1) (rest.drop 1) := by
  obtain ⟨hdelivered, hdata, answers, rfl, hdraws⟩ := h
  have hlater := hdraws.turns feed.next_turns
  obtain ⟨seed, -, hunread, hover, -⟩ := hlater.seed
  rw [← hdata, handedOut_append, handedOut_singleton, List.append_assoc,
    List.append_cancel_left_eq] at hunread
  rcases Feed.next_delivered hdelivered with ⟨value, hanswer, hdone⟩ | ⟨hanswer, hdone, hended⟩
  · rw [hanswer] at hunread hlater
    subst hunread
    refine ⟨hanswer, hdone, by simpa [Answer.byte?] using hdata, _, ?_, hlater⟩
    simp [Answer.byte?]
  · rw [hanswer, hover hended] at hunread
    obtain rfl : rest = [] := by simpa [Answer.byte?] using hunread.symm
    rw [hanswer] at hlater
    refine ⟨hanswer, by simpa using hdone, by simpa using hdata, _, ?_, hlater⟩
    simp [Answer.byte?]

theorem requested (h : feed.Holds source done rest) : feed.input.requested = done.length := by
  obtain ⟨hdelivered, -, answers, -, hdraws⟩ := h
  exact hdraws.aligned.requested.trans hdelivered.index

end Feed.Holds

namespace Target

/-- How a run ended, the number of bytes that it pulled, and its hits in order. -/
structure Trace where
  status : Status
  pulled : Nat
  hits : List Nat

def trace : Target → List UInt8 → Trace
  | pull next, [] => (next .ended).trace []
  | pull next, value :: rest =>
    let trace := (next (.byte value)).trace rest
    { trace with pulled := trace.pulled + 1 }
  | hit point next, bytes =>
    let trace := next.trace bytes
    { trace with hits := point :: trace.hits }
  | finish valid, _ => ⟨if valid then .valid else .invalid, 0, []⟩
  | crash text, _ => ⟨.crash (text.getD "Unknown panic type"), 0, []⟩

theorem run_trace (target : Target) {feed : Feed} {source : ByteSource} {done rest : List UInt8}
    (coverage : Coverage) (h : feed.Holds source done rest) :
    (target.run feed coverage).1 = (target.trace rest).status ∧
      (target.run feed coverage).2.2 = (target.trace rest).hits.foldl Coverage.recordHit coverage ∧
      (target.run feed coverage).2.1.input.requested = done.length + (target.trace rest).pulled := by
  induction target generalizing feed done rest coverage with
  | pull next ih =>
    cases rest with
    | nil =>
      obtain ⟨hanswer, hlater⟩ := h.next
      rw [List.take_nil, List.drop_nil, List.append_nil] at hlater
      simp only [run, hanswer]
      exact ih .ended coverage hlater
    | cons value rest =>
      obtain ⟨hanswer, hlater⟩ : feed.next.1 = .byte value ∧
          feed.next.2.Holds source (done ++ [value]) rest := h.next
      simp only [run, hanswer]
      obtain ⟨hstatus, hcoverage, hrequested⟩ := ih (.byte value) coverage hlater
      refine ⟨hstatus, hcoverage, hrequested.trans ?_⟩
      rw [List.length_append, List.length_singleton, Nat.add_assoc, Nat.add_comm 1]
      rfl
  | hit point next ih => exact ih (coverage.recordHit point) h
  | finish | crash => exact ⟨rfl, rfl, h.requested⟩

/-- Executing a target on a seed over a source that never fails is running it over the data. -/
theorem execute_trace (target : Target) (mapSize : Nat) {source : ByteSource} (h : source.Reliable)
    (origin : String) :
    let trace := target.trace source.data
    let (input, execution) := target.execute mapSize (.ofSeed (.ofSource origin source))
    execution = ⟨trace.status, trace.hits.foldl Coverage.recordHit (.zero mapSize)⟩ ∧
      input.requested = trace.pulled := by
  obtain ⟨hstatus, hcoverage, hrequested⟩ :=
    target.run_trace (.zero mapSize) (Feed.Holds.start h origin)
  rw [List.length_nil, Nat.zero_add] at hrequested
  refine ⟨?_, hrequested⟩
  rw [hstatus, hcoverage]

end Target

end Greybox
