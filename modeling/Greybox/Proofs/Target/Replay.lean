import Greybox.Proofs.Coverage
import Greybox.Proofs.Feed
import Greybox.Target.Basic

namespace Greybox

namespace ByteSource

variable {source : ByteSource}

def Reliable (source : ByteSource) : Prop :=
  source.afterwards = none ∧ ∀ reason, .failed reason ∉ source.upcoming

theorem Reliable.take (h : source.Reliable) :
    ∃ byte?, source.take.1 = .ok byte? ∧ source.take.2.Reliable := by
  obtain ⟨upcoming, afterwards⟩ := source
  obtain ⟨rfl, hreadings⟩ := h
  simp only [ByteSource.take] at hreadings ⊢
  induction upcoming with
  | nil => exact ⟨none, rfl, rfl, hreadings⟩
  | cons reading upcoming ih =>
    have hrest : ∀ reason, .failed reason ∉ upcoming := fun reason hmem =>
      hreadings reason (List.mem_cons_of_mem _ hmem)
    cases reading with
    | byte value => exact ⟨some value, rfl, rfl, hrest⟩
    | interrupted => exact ih hrest
    | failed reason => exact absurd List.mem_cons_self (hreadings reason)
    | endOfSource => exact ⟨none, rfl, rfl, hrest⟩

theorem reliable_ofBytes (bytes : Array UInt8) : (ofBytes bytes).Reliable := by
  refine ⟨rfl, ?_⟩
  intro reason hmem
  obtain ⟨value, -, hvalue⟩ := List.mem_map.1 hmem
  cases hvalue

end ByteSource

/-- The stream has handed out the given bytes, and no attempt to hand out more fails. -/
def Stream.Delivered : Stream → List UInt8 → Prop
  | .generated input, bytes =>
    input.requested = bytes.length ∧ input.bytes.toList.take bytes.length = bytes
  | .seed input, bytes =>
    input.bytes.toList = bytes ∧ ∀ source, input.source = some source → source.Reliable

def Stream.Continues (bytes : List UInt8) (answer : Answer) (stream : Stream) : Prop :=
  (∃ value, answer = .byte value ∧ stream.Delivered (bytes ++ [value])) ∨
    answer = .ended ∧ stream.Delivered bytes

theorem GeneratedInput.Serves.continues {input later : GeneratedInput} {answer : Answer}
    {bytes : List UInt8} (hserves : input.Serves bytes.length answer later)
    (h : (Stream.generated input).Delivered bytes) :
    Stream.Continues bytes answer (.generated later) := by
  obtain ⟨hrequested, hbytes⟩ := h
  have hsize : bytes.length ≤ input.bytes.size := by
    have hlength := List.length_take_le' bytes.length input.bytes.toList
    rwa [hbytes] at hlength
  have hlater := (Stream.Serves.generated hserves).requested
  have htake := (Stream.Serves.generated hserves).take_bytes hsize
  simp only [Stream.requested, Stream.bytes, hrequested, hbytes] at hlater htake
  cases hserves with
  | nothing => exact .inr ⟨rfl, hrequested, hbytes⟩
  | replayed | fresh =>
    refine .inl ⟨_, rfl, ?_, ?_⟩ <;> rw [List.length_append]
    · exact hlater
    · exact htake

theorem SeedInput.read_reliable {seed : SeedInput}
    (h : ∀ source, seed.source = some source → source.Reliable) :
    (∃ byte?, seed.read.1 = .ok byte?) ∧ seed.read.2.bytes = seed.bytes ∧
      ∀ source, seed.read.2.source = some source → source.Reliable := by
  rw [read]
  split
  · exact ⟨⟨none, rfl⟩, rfl, h⟩
  · rename_i source hsource
    obtain ⟨byte?, hbyte, hreliable⟩ := (h source hsource).take
    refine ⟨⟨byte?, hbyte⟩, rfl, ?_⟩
    intro later hlater
    cases hlater
    exact hreliable

theorem SeedInput.next_continues {seed : SeedInput} {bytes : List UInt8}
    (h : (Stream.seed seed).Delivered bytes) :
    Stream.Continues bytes (seed.next bytes.length).1 (.seed (seed.next bytes.length).2) := by
  obtain ⟨hbytes, hsource⟩ := h
  obtain ⟨⟨byte?, hread⟩, hkept, hlater⟩ := read_reliable hsource
  rw [← hkept] at hbytes
  rw [next]
  split
  · exact .inr ⟨rfl, hkept ▸ hbytes, hsource⟩
  · split <;> rename_i heq <;> rw [heq] at hread hbytes hlater
    · cases hread
    · exact .inr ⟨rfl, hbytes, hlater⟩
    · rename_i value later
      have hindex : bytes.length = later.bytes.size := by
        rw [← hbytes]
        exact Array.length_toList
      rw [if_pos hindex]
      refine .inl ⟨value, rfl, ?_, hlater⟩
      rw [Array.toList_push]
      exact congrArg (· ++ [value]) hbytes

theorem Stream.next_continues {stream : Stream} {bytes : List UInt8} (h : stream.Delivered bytes) :
    Stream.Continues bytes (stream.next bytes.length).1 (stream.next bytes.length).2 := by
  cases stream with
  | generated input => exact (input.next_serves bytes.length).continues h
  | seed input => exact SeedInput.next_continues h

theorem Stream.toList_bytes_trim {stream : Stream} {bytes : List UInt8} (h : stream.Delivered bytes) :
    stream.trim.2.bytes.toList = bytes := by
  cases stream with
  | generated input =>
    obtain ⟨hrequested, hbytes⟩ := h
    simp only [trim, GeneratedInput.trim, Stream.bytes, hrequested]
    simpa using hbytes
  | seed input => exact (congrArg Array.toList input.bytes_trim).trans h.1

structure Feed.Delivered (feed : Feed) (bytes : List UInt8) : Prop where
  index : feed.index = bytes.length
  stream : feed.input.stream.Delivered bytes

theorem Feed.Turns.delivered {feed later : Feed} {answer : Answer} {bytes : List UInt8}
    (hturns : feed.Turns answer later) (h : feed.Delivered bytes) :
    (∃ value, answer = .byte value ∧ later.Delivered (bytes ++ [value])) ∨
      answer = .ended ∧ later.Delivered bytes ∧ later.ended = true := by
  cases hturns with
  | idle hover => exact .inr ⟨rfl, h, hover⟩
  | asks _ hnext hindex hended =>
    obtain ⟨hanswer, hlater⟩ := Prod.ext_iff.1 hnext
    have hstream : Stream.Continues bytes (feed.input.next feed.index).1
        (feed.input.next feed.index).2.stream := by
      rw [h.index]
      exact Stream.next_continues h.stream
    rw [hanswer, hlater] at hstream
    rw [h.index] at hindex
    rcases hstream with ⟨value, rfl, hdelivered⟩ | ⟨rfl, hdelivered⟩
    · rw [← List.length_append] at hindex
      exact .inl ⟨value, rfl, hindex, hdelivered⟩
    · exact .inr ⟨rfl, ⟨hindex, hdelivered⟩, hended.2 rfl⟩

theorem Feed.next_delivered {feed : Feed} {bytes : List UInt8} (h : feed.Delivered bytes) :
    (∃ value, feed.next.1 = .byte value ∧ feed.next.2.Delivered (bytes ++ [value])) ∨
      feed.next.1 = .ended ∧ feed.next.2.Delivered bytes ∧ feed.next.2.ended = true :=
  feed.next_turns.delivered h

namespace Target

def pulled : Target → Feed → List UInt8
  | pull next, feed =>
    match feed.next with
    | (.byte value, feed) => value :: pulled (next (.byte value)) feed
    | (answer, feed) => pulled (next answer) feed
  | hit _ next, feed => pulled next feed
  | finish _, _ => []
  | crash _, _ => []

theorem pulled_of_byte {feed : Feed} {value : UInt8} (next : Answer → Target)
    (h : feed.next.1 = .byte value) :
    (pull next).pulled feed = value :: (next (.byte value)).pulled feed.next.2 := by
  rw [pulled]
  split
  · rename_i heq
    rw [heq] at h ⊢
    cases h
    rfl
  · rename_i hother heq
    rw [heq] at h
    exact absurd h (hother _)

theorem pulled_of_ended {feed : Feed} (next : Answer → Target) (h : feed.next.1 = .ended) :
    (pull next).pulled feed = (next .ended).pulled feed.next.2 := by
  rw [pulled]
  split
  · rename_i heq
    rw [heq] at h
    cases h
  · rename_i heq
    rw [heq] at h ⊢
    cases h
    rfl

theorem pulled_eq_nil (target : Target) {feed : Feed} (h : feed.ended = true) :
    target.pulled feed = [] := by
  induction target with
  | pull next ih =>
    have hnext : feed.next = (.ended, feed) := if_pos h
    rw [pulled_of_ended next (congrArg Prod.fst hnext), hnext]
    exact ih .ended
  | hit point next ih => exact ih
  | finish | crash => rfl

theorem run_delivered (target : Target) {feed : Feed} {bytes : List UInt8} (coverage : Coverage)
    (h : feed.Delivered bytes) :
    (target.run feed coverage).2.1.Delivered (bytes ++ target.pulled feed) := by
  induction target generalizing feed bytes coverage with
  | pull next ih =>
    rcases Feed.next_delivered h with ⟨value, hanswer, hlater⟩ | ⟨hanswer, hlater, hended⟩
    · rw [pulled_of_byte next hanswer, List.append_cons]
      simp only [run, hanswer]
      exact ih (.byte value) coverage hlater
    · rw [pulled_of_ended next hanswer]
      simp only [run, hanswer]
      exact ih .ended coverage hlater
  | hit point next ih => exact ih (coverage.recordHit point) h
  | finish | crash => simpa [pulled, run] using h

end Target

/-- The feed reads a seed that has delivered some bytes and holds the others, and then ends. -/
structure Feed.Replays (feed : Feed) (done rest : List UInt8) : Prop where
  seed : ∃ seed, feed.input.stream = .seed seed ∧ seed.bytes.toList = done ∧
    seed.source = some ⟨rest.map .byte, none⟩ ∧ (seed.exhausted = true → rest = [])
  index : feed.index = done.length
  ended : feed.ended = true → rest = []

namespace Feed.Replays

variable {feed : Feed} {done rest : List UInt8} {value : UInt8}

theorem start (origin : String) (bytes : List UInt8) :
    (Feed.start (.ofSeed (.ofSource origin (.ofBytes bytes.toArray)))).Replays [] bytes :=
  ⟨⟨_, rfl, rfl, rfl, nofun⟩, rfl, nofun⟩

theorem next_byte (h : feed.Replays done (value :: rest)) :
    feed.next.1 = .byte value ∧ feed.next.2.Replays (done ++ [value]) rest := by
  obtain ⟨⟨seed, hstream, hdone, hsource, hexhausted⟩, hindex, hended⟩ := h
  have hopen : seed.exhausted = false := Bool.eq_false_iff.2 fun h => nomatch hexhausted h
  have hrunning : feed.ended = false := Bool.eq_false_iff.2 fun h => nomatch hended h
  let later : SeedInput :=
    { seed with
      bytes := seed.bytes.push value
      requested := seed.requested + 1
      source := some ⟨rest.map .byte, none⟩
      requested_eq := by rw [Array.size_push, seed.requested_eq] }
  have hplace : feed.index = seed.bytes.size := by rw [hindex, ← hdone, Array.length_toList]
  have hseed : seed.next feed.index = (.byte value, later) := by
    have hread : seed.read =
        (.ok (some value), { seed with source := some ⟨rest.map .byte, none⟩ }) := by
      rw [SeedInput.read, hsource]
      rfl
    rw [SeedInput.next, hopen, hread]
    exact if_pos hplace
  have hinput : feed.input.next feed.index =
      (.byte value, { feed.input with stream := .seed later }) := by
    rw [Input.next, hstream]
    simp only [Stream.next, hseed]
  rw [Feed.next, hrunning, hinput]
  refine ⟨rfl, ⟨later, rfl, ?_, rfl, ?_⟩, ?_, ?_⟩
  · rw [Array.toList_push, hdone]
  · intro h
    cases hopen.symm.trans h
  · simp [hindex]
  · intro h
    exact absurd h Bool.false_ne_true

theorem next_ended (h : feed.Replays done []) :
    feed.next.1 = .ended ∧ feed.next.2.Replays done [] := by
  have hall := h
  obtain ⟨⟨seed, hstream, hdone, hsource, -⟩, hindex, -⟩ := h
  have hseed : ∃ exhausted, seed.next feed.index = (.ended, { seed with exhausted }) := by
    have hread : seed.read = (.ok none, seed) := by
      obtain ⟨origin, bytes, _, source, exhausted, _⟩ := seed
      obtain rfl : source = some ⟨[], none⟩ := hsource
      rfl
    rw [SeedInput.next, hread]
    -- A seed that has been found to end is not read again.
    split
    · exact ⟨seed.exhausted, rfl⟩
    · exact ⟨true, rfl⟩
  obtain ⟨exhausted, hseed⟩ := hseed
  have hinput : feed.input.next feed.index =
      (.ended, { feed.input with stream := .seed { seed with exhausted } }) := by
    rw [Input.next, hstream]
    simp only [Stream.next, hseed]
  rw [Feed.next, hinput]
  split
  · exact ⟨rfl, hall⟩
  · exact ⟨rfl, ⟨_, rfl, hdone, hsource, fun _ => rfl⟩, hindex, fun _ => rfl⟩

end Feed.Replays

/-- A target runs alike on a feed and on one that replays the bytes pulled from the first. -/
theorem Target.run_replays (target : Target) {feed replay : Feed} {bytes done : List UInt8}
    (coverage : Coverage) (hfeed : feed.Delivered bytes)
    (hreplay : replay.Replays done (target.pulled feed)) :
    (target.run replay coverage).1 = (target.run feed coverage).1 ∧
      (target.run replay coverage).2.2 = (target.run feed coverage).2.2 ∧
      (target.run replay coverage).2.1.Replays (done ++ target.pulled feed) [] := by
  -- The replaying feed holds what the run still pulls, no matter what the first feed holds beyond.
  induction target generalizing feed replay bytes done coverage with
  | pull next ih =>
    rcases Feed.next_delivered hfeed with ⟨value, hanswer, hlater⟩ | ⟨hanswer, hlater, hended⟩
    · rw [pulled_of_byte next hanswer] at hreplay ⊢
      obtain ⟨hanswer', hreplay'⟩ := hreplay.next_byte
      rw [List.append_cons]
      simp only [run, hanswer, hanswer']
      exact ih (.byte value) coverage hlater hreplay'
    · rw [pulled_of_ended next hanswer] at hreplay ⊢
      -- The target may pull on, but it gets nothing more, and so the other feed is at its end too.
      have hnone := pulled_eq_nil (next .ended) hended
      rw [hnone] at hreplay
      obtain ⟨hanswer', hreplay'⟩ := hreplay.next_ended
      rw [← hnone] at hreplay'
      simp only [run, hanswer, hanswer']
      exact ih .ended coverage hlater hreplay'
  | hit point next ih => exact ih (coverage.recordHit point) hfeed hreplay
  | finish | crash => exact ⟨rfl, rfl, by simpa [pulled, run] using hreplay⟩

theorem Feed.Replays.bytes_toList {feed : Feed} {done rest : List UInt8}
    (h : feed.Replays done rest) : feed.input.bytes.toList = done := by
  obtain ⟨seed, hstream, hdone, -⟩ := h.seed
  rw [Input.bytes, hstream]
  exact hdone

theorem Feed.Replays.requested {feed : Feed} {done rest : List UInt8}
    (h : feed.Replays done rest) : feed.input.requested = feed.input.size := by
  obtain ⟨seed, hstream, -⟩ := h.seed
  rw [Input.requested, Input.size, Input.bytes, hstream]
  exact seed.requested_eq

theorem Target.execute_replays (target : Target) (mapSize : Nat) {input : Input}
    (h : input.stream.Delivered []) (origin : String) :
    ∃ replayed,
      target.execute mapSize (.ofSeed (.ofSource origin
        (.ofBytes (target.execute mapSize input).1.trim.2.bytes))) =
        (replayed, (target.execute mapSize input).2) ∧
      replayed.bytes = (target.execute mapSize input).1.trim.2.bytes ∧
      replayed.requested = (target.execute mapSize input).1.trim.2.size := by
  have hstart : (Feed.start input).Delivered [] := ⟨rfl, h⟩
  have hdelivered := target.run_delivered (.zero mapSize) hstart
  rw [List.nil_append] at hdelivered
  have htrim : (target.execute mapSize input).1.trim.2.bytes.toList =
      target.pulled (.start input) := Stream.toList_bytes_trim hdelivered.stream
  have hreplay := Feed.Replays.start origin (target.pulled (.start input))
  rw [← htrim, Array.toArray_toList, htrim] at hreplay
  obtain ⟨hstatus, hcoverage, hend⟩ := target.run_replays (.zero mapSize) hstart hreplay
  rw [List.nil_append, ← htrim] at hend
  have hbytes := Array.toList_inj.1 hend.bytes_toList
  refine ⟨_, Prod.ext rfl ?_, hbytes, ?_⟩
  · change Execution.mk _ _ = Execution.mk _ _
    exact congr (congrArg Execution.mk hstatus) hcoverage
  · exact hend.requested.trans (congrArg Array.size hbytes)

theorem Input.Pulls.trans {input pulled later : Input} (h : input.Pulls pulled)
    (h' : pulled.Pulls later) : input.Pulls later := by
  induction h' with
  | refl => exact h
  | next index _ ih => exact ih.next index

theorem Feed.Turns.pulls {feed later : Feed} {answer : Answer} (h : feed.Turns answer later) :
    feed.input.Pulls later.input := by
  cases h with
  | idle => exact .refl
  | asks _ hnext =>
    have hpulls : feed.input.Pulls (feed.input.next feed.index).2 := .next feed.index .refl
    rwa [hnext] at hpulls

theorem Target.run_pulls (target : Target) (feed : Feed) (coverage : Coverage) :
    feed.input.Pulls (target.run feed coverage).2.1.input := by
  induction target generalizing feed coverage with
  | pull next ih => exact feed.next_turns.pulls.trans (ih feed.next.1 feed.next.2 coverage)
  | hit point next ih => exact ih feed (coverage.recordHit point)
  | finish | crash => exact .refl

theorem Target.size_run (target : Target) (feed : Feed) (coverage : Coverage) :
    (target.run feed coverage).2.2.size = coverage.size := by
  induction target generalizing feed coverage with
  | pull next ih => exact ih feed.next.1 feed.next.2 coverage
  | hit point next ih => exact (ih feed (coverage.recordHit point)).trans (by simp)
  | finish | crash => rfl

theorem Target.execute_returns (target : Target) (mapSize : Nat) (input : Input) :
    input.Pulls (target.execute mapSize input).1 ∧
      (target.execute mapSize input).2.coverage.size = mapSize := by
  have hsize := target.size_run (.start input) (.zero mapSize)
  rw [Coverage.size_zero] at hsize
  exact ⟨target.run_pulls (.start input) (.zero mapSize), hsize⟩

end Greybox
