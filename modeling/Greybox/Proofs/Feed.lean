import Greybox.Feed
import Greybox.Proofs.Input.Requests

namespace Greybox.Feed

variable {feed later : Feed} {answer : Answer} {answers : List Answer} {source : ByteSource}

inductive Turns (feed : Feed) : Answer → Feed → Prop
  | idle (hover : feed.ended = true) : Turns feed .ended feed
  | asks {answer : Answer} {later : Feed} (hopen : feed.ended = false)
      (hnext : feed.input.next feed.index = (answer, later.input))
      (hindex : later.index = feed.index + answer.byte?.toList.length)
      (hended : later.ended = true ↔ answer = .ended) : Turns feed answer later

theorem next_turns (feed : Feed) : feed.Turns feed.next.1 feed.next.2 := by
  rw [next]
  split
  · exact .idle ‹_›
  · have hopen : feed.ended = false := Bool.eq_false_iff.2 ‹_›
    split <;> rename_i heq
    · exact .asks hopen heq rfl (by simp [hopen])
    · exact .asks hopen heq rfl (by simp)
    · exact .asks hopen heq rfl (by simp [hopen])

theorem Turns.ended (h : feed.Turns .ended later) : later.ended = true := by
  cases h with
  | idle hover => exact hover
  | asks _ _ _ hended => exact hended.2 rfl

/-- Calls made one after the other on the first feed gave some answers and left the second. -/
inductive Gives (feed : Feed) : List Answer → Feed → Prop
  | refl : Gives feed [] feed
  | turn {answers : List Answer} {later : Feed} {answer : Answer} {last : Feed}
      (h : Gives feed answers later) (hturns : later.Turns answer last) :
      Gives feed (answers ++ [answer]) last

theorem Gives.trans {last : Feed} {more : List Answer} (h : feed.Gives answers later)
    (h' : later.Gives more last) : feed.Gives (answers ++ more) last := by
  induction h' with
  | refl => rwa [List.append_nil]
  | turn _ hturns ih => exact List.append_assoc _ _ _ ▸ ih.turn hturns

def calls (feed : Feed) (count : Nat) : List Answer × Feed :=
  inTurn (fun feed () => feed.next) feed (List.replicate count ())

theorem gives_calls (feed : Feed) (count : Nat) :
    feed.Gives (feed.calls count).1 (feed.calls count).2 := by
  have hstep : ∀ (answers : List Answer) (later : Feed) (_ : Unit), feed.Gives answers later →
      feed.Gives (answers ++ [later.next.1]) later.next.2 := fun _ later _ h =>
    h.turn later.next_turns
  exact inTurn_induction hstep .refl _

theorem Gives.index (h : feed.Gives answers later) :
    later.index = feed.index + (handedOut answers).length := by
  induction h with
  | refl => rfl
  | turn _ hturns ih =>
    rw [handedOut_append, handedOut_singleton, List.length_append, ← Nat.add_assoc, ← ih]
    cases hturns with
    | idle => rfl
    | asks _ _ hindex => exact hindex

variable {input : Input}

theorem Gives.index_eq (h : (start input).Gives answers feed) :
    feed.index = (handedOut answers).length :=
  h.index.trans (Nat.zero_add _)

theorem Gives.take_bytes (h : (start input).Gives answers feed) :
    feed.input.bytes.toList.take feed.index = handedOut answers := by
  induction h with
  | refl => exact List.take_zero
  | @turn answers feed answer later h hturns ih =>
    rw [handedOut_append, handedOut_singleton]
    cases hturns with
    | idle => rw [ih, Answer.byte?, Option.toList_none, List.append_nil]
    | asks _ hnext hindex =>
      have hheld : feed.index ≤ feed.input.bytes.size := by
        have hlength := List.length_take_le' feed.index feed.input.bytes.toList
        rwa [ih, ← h.index_eq] at hlength
      rw [hindex, ← ih]
      exact (Stream.Serves.of_next hnext).take_bytes hheld

structure Ends (feed : Feed) (answers : List Answer) : Prop where
  ended : .ended ∈ answers → feed.ended = true
  lasting : answers.Pairwise fun earlier later => earlier = .ended → later = .ended

theorem Ends.turns (h : feed.Ends answers) (hturns : feed.Turns answer later) :
    later.Ends (answers ++ [answer]) := by
  have hstays : feed.ended = true → answer = .ended ∧ later.ended = true := by
    intro hover
    cases hturns with
    | idle => exact ⟨rfl, hover⟩
    | asks hopen => cases hover.symm.trans hopen
  constructor
  · intro hmem
    rcases List.mem_append.1 hmem with hearlier | hlast
    · exact (hstays (h.ended hearlier)).2
    · obtain rfl := List.mem_singleton.1 hlast
      exact hturns.ended
  · refine List.pairwise_append.2 ⟨h.lasting, List.pairwise_singleton _ _, ?_⟩
    rintro _ hearlier _ hlast rfl
    rw [List.mem_singleton.1 hlast]
    exact (hstays (h.ended hearlier)).1

theorem Gives.ends (h : (start input).Gives answers feed) : feed.Ends answers := by
  induction h with
  | refl => exact ⟨fun hmem => absurd hmem List.not_mem_nil, .nil⟩
  | turn _ hturns ih => exact ih.turns hturns

/-- The feed asks for the position that the input expects, so that no request is misplaced. -/
structure Aligned (feed : Feed) (answers : List Answer) : Prop where
  requested : feed.input.requested = feed.index
  placed : ∀ answer ∈ answers, answer.isMisplaced = false

theorem Aligned.turns (h : feed.Aligned answers) (hturns : feed.Turns answer later) :
    later.Aligned (answers ++ [answer]) := by
  have hplaced : answer.isMisplaced = false →
      ∀ other ∈ answers ++ [answer], other.isMisplaced = false := by
    intro hlast other hother
    rcases List.mem_append.1 hother with hearlier | hlater
    · exact h.placed other hearlier
    · rwa [List.mem_singleton.1 hlater]
  cases hturns with
  | idle => exact ⟨h.requested, hplaced rfl⟩
  | asks _ hnext hindex =>
    have hserves := Stream.Serves.of_next hnext
    refine ⟨?_, hplaced (hserves.isMisplaced_eq_false h.requested.symm)⟩
    rw [hindex, ← h.requested]
    exact hserves.requested

theorem Gives.aligned (h : (start input).Gives answers feed) (huntouched : input.requested = 0) :
    feed.Aligned answers := by
  induction h with
  | refl => exact ⟨huntouched, fun _ hmem => absurd hmem List.not_mem_nil⟩
  | turn _ hturns ih => exact ih.turns hturns

/-- A feed over a seed has handed out the data of the source up to those that the seed has still to
read. Until there are none left, every call used up a reading. -/
structure Draws (source : ByteSource) (feed : Feed) (answers : List Answer) : Prop where
  aligned : feed.Aligned answers
  seed : ∃ seed, feed.input.stream = .seed seed ∧ handedOut answers ++ seed.unread = source.data ∧
    (feed.ended = true → seed.unread = []) ∧
    (seed.unread = [] ∨ (Stream.seed seed).remaining + answers.length ≤ source.upcoming.length)

theorem Draws.turns (h : feed.Draws source answers) (hturns : feed.Turns answer later) :
    later.Draws source (answers ++ [answer]) := by
  refine ⟨h.aligned.turns hturns, ?_⟩
  obtain ⟨seed, hstream, hdata, hover, hprogress⟩ := h.seed
  cases hturns with
  | idle hended =>
    refine ⟨seed, hstream, ?_, hover, .inl (hover hended)⟩
    simpa [Answer.byte?] using hdata
  | asks _ hnext _ hended =>
    have hplace : feed.index = seed.requested := by
      have hrequested := h.aligned.requested
      rw [Input.requested, hstream] at hrequested
      exact hrequested.symm
    -- The request is in order, so that just what is handed out leaves the data.
    have hserves := seed.next_serves feed.index
    rw [Input.next, hstream] at hnext
    obtain ⟨rfl, hlater⟩ := Prod.ext_iff.1 hnext
    have hunread := hserves.unread_eq (hserves.isMisplaced_eq_false hplace)
    refine ⟨(seed.next feed.index).2, congrArg Input.stream hlater.symm, ?_, ?_, ?_⟩
    · rw [← hdata, hunread, handedOut_append, handedOut_singleton, List.append_assoc]
      rfl
    · intro hover
      have hanswer : (seed.next feed.index).1 = .ended := hended.1 hover
      rw [hanswer] at hserves
      exact hserves.unread_of_ended
    · by_cases hrest : seed.unread = []
      · rw [hrest] at hunread
        exact .inl (List.append_eq_nil_iff.1 hunread.symm).2
      · have hless := seed.remaining_next_lt feed.index hrest
        have hbound := hprogress.resolve_left hrest
        rw [List.length_append, List.length_singleton]
        exact .inr (by omega)

theorem Gives.draws {origin : String} (h : (start input).Gives answers feed)
    (hinput : input.stream = .seed (.ofSource origin source)) : feed.Draws source answers := by
  induction h with
  | refl =>
    have huntouched : input.requested = 0 := by
      rw [Input.requested, hinput]
      rfl
    refine ⟨Gives.refl.aligned huntouched, _, hinput, rfl, ?_, .inr (Nat.le_refl _)⟩
    exact fun hover => absurd hover Bool.false_ne_true
  | turn _ hturns ih => exact ih.turns hturns

/-- A feed over a generated input gets a byte for every call until all that are allowed were handed
out, and from then on the end. -/
structure Delivers (generated : GeneratedInput) (feed : Feed) (answers : List Answer) : Prop where
  aligned : feed.Aligned answers
  stream : ∃ current, feed.input.stream = .generated current ∧
    current.allowance = generated.allowance ∧ generated.bytes.toList <+: current.bytes.toList
  index : feed.index = min answers.length generated.allowance
  ended : feed.ended = true → generated.allowance ≤ answers.length
  answers : answers = (handedOut answers).map .byte ++
    List.replicate (answers.length - generated.allowance) .ended

variable {generated : GeneratedInput} {allowed : Nat}

theorem append_byte_eq {value : UInt8} (hmore : answers.length < allowed)
    (h : answers = (handedOut answers).map .byte ++ List.replicate (answers.length - allowed) .ended) :
    answers ++ [.byte value] = (handedOut (answers ++ [.byte value])).map .byte ++
      List.replicate ((answers ++ [Answer.byte value]).length - allowed) .ended := by
  have hlength : (answers ++ [Answer.byte value]).length = answers.length + 1 := List.length_append
  rw [Nat.sub_eq_zero_of_le (Nat.le_of_lt hmore), List.replicate_zero, List.append_nil] at h
  rw [hlength, Nat.sub_eq_zero_of_le hmore, List.replicate_zero, List.append_nil, handedOut_append,
    List.map_append, ← h, handedOut_singleton]
  rfl

theorem append_ended_eq (hall : allowed ≤ answers.length)
    (h : answers = (handedOut answers).map .byte ++ List.replicate (answers.length - allowed) .ended) :
    answers ++ [.ended] = (handedOut (answers ++ [.ended])).map .byte ++
      List.replicate ((answers ++ [Answer.ended]).length - allowed) .ended := by
  have hlength : (answers ++ [Answer.ended]).length = answers.length + 1 := List.length_append
  rw [hlength, Nat.sub_add_comm hall, List.replicate_succ', ← List.append_assoc, handedOut_append,
    handedOut_singleton, Answer.byte?, Option.toList_none, List.append_nil, ← h]

theorem Delivers.turns (h : feed.Delivers generated answers) (hturns : feed.Turns answer later) :
    later.Delivers generated (answers ++ [answer]) := by
  obtain ⟨current, hstream, hallowance, hbytes⟩ := h.stream
  have hindex := h.index
  have haligned := h.aligned.turns hturns
  have hlength : (answers ++ [answer]).length = answers.length + 1 := List.length_append
  cases hturns with
  | idle hover =>
    have hall := h.ended hover
    refine ⟨haligned, h.stream, ?_, fun _ => ?_, append_ended_eq hall h.answers⟩ <;> omega
  | asks hopen hnext hplace hended =>
    have hrequested : current.requested = feed.index := by
      rw [← h.aligned.requested, Input.requested, hstream]
      rfl
    rw [Input.next, hstream, ← hrequested] at hnext
    obtain ⟨hanswer, hlater⟩ := Prod.ext_iff.1 hnext
    have hcurrent : ∃ current', later.input.stream = .generated current' ∧
        current'.allowance = generated.allowance ∧
        generated.bytes.toList <+: current'.bytes.toList :=
      ⟨(current.next current.requested).2, congrArg Input.stream hlater.symm,
        (current.allowance_next _).trans hallowance,
        hbytes.trans (current.next_serves _).extends_bytes⟩
    rcases current.next_requested with ⟨hmore, value, hbyte⟩ | ⟨hall, hend⟩
    · have hless : answers.length < generated.allowance := by omega
      obtain rfl : answer = .byte value := hanswer.symm.trans hbyte
      refine ⟨haligned, hcurrent, ?_, fun hover => ?_, append_byte_eq hless h.answers⟩
      · rw [hplace, Answer.byte?, Option.toList_some, List.length_singleton]
        omega
      · cases hended.1 hover
    · have hall : generated.allowance ≤ answers.length := by omega
      obtain rfl : answer = .ended := hanswer.symm.trans hend
      refine ⟨haligned, hcurrent, ?_, fun _ => ?_, append_ended_eq hall h.answers⟩
      · rw [hplace, Answer.byte?, Option.toList_none, List.length_nil]
        omega
      · omega

theorem Gives.delivers (h : (start input).Gives answers feed)
    (hinput : input.stream = .generated generated) (huntouched : input.requested = 0) :
    feed.Delivers generated answers := by
  induction h with
  | refl =>
    refine ⟨Gives.refl.aligned huntouched, ⟨generated, hinput, rfl, List.prefix_rfl⟩,
      (Nat.zero_min _).symm, ?_, ?_⟩
    · exact fun hover => absurd hover Bool.false_ne_true
    · rw [List.length_nil, Nat.zero_sub]
      rfl
  | turn _ hturns ih => exact ih.turns hturns

/-- Over an input from which nothing was pulled, no call is misplaced, whatever fails on the way.
The feed counts like its input, and what it handed out are the first bytes that the input holds.
Once it has answered that it ended, it answers nothing else. Over a generated input every call hands
out a byte until the limit is reached or, if the input ends with its buffer, the buffer was handed
out; the bytes of the buffer come first. Over a seed it hands out the data of the source up to its
first end, every byte once, and has handed out all when it ends or when every reading was used
up. -/
theorem calls_in_order (huntouched : input.requested = 0) (count : Nat) :
    let answers := ((start input).calls count).1
    let feed := ((start input).calls count).2
    answers.length = count ∧ (∀ answer ∈ answers, answer.isMisplaced = false) ∧
    feed.index = feed.input.requested ∧ feed.index = (handedOut answers).length ∧
    feed.input.bytes.toList.take feed.index = handedOut answers ∧
    (answers.Pairwise fun earlier later => earlier = .ended → later = .ended) ∧
    (∀ generated, input.stream = .generated generated →
      feed.index = min count generated.allowance ∧
      answers = (handedOut answers).map .byte ++
        List.replicate (count - generated.allowance) .ended ∧
      (handedOut answers).take generated.bytes.size = generated.bytes.toList.take feed.index) ∧
    ∀ origin source, input.stream = .seed (.ofSource origin source) →
      handedOut answers = source.data.take feed.index ∧
      (.ended ∈ answers → handedOut answers = source.data) ∧
      (source.upcoming.length ≤ count → handedOut answers = source.data) := by
  intro answers feed
  have hlength : answers.length = count := (length_inTurn _ _ _).trans List.length_replicate
  have hgives : (start input).Gives answers feed := gives_calls (start input) count
  have haligned := hgives.aligned huntouched
  have hends := hgives.ends
  refine ⟨hlength, haligned.placed, haligned.requested.symm, hgives.index_eq,
    hgives.take_bytes, hends.lasting, ?_, ?_⟩
  · intro generated hinput
    obtain ⟨-, ⟨current, hstream, -, hprefix⟩, hindex, -, hanswers⟩ :=
      hgives.delivers hinput huntouched
    rw [hlength] at hindex hanswers
    refine ⟨hindex, hanswers, ?_⟩
    have hheld : feed.input.bytes = current.bytes := congrArg Stream.bytes hstream
    rw [← hgives.take_bytes, hheld, List.take_take, List.prefix_iff_eq_take.1 hprefix, List.take_take,
      Array.length_toList, Nat.min_comm]
  intro origin source hinput
  obtain ⟨-, seed, -, hdata, hover, hprogress⟩ := hgives.draws hinput
  have hall : seed.unread = [] → handedOut answers = source.data := by
    intro hnone
    rwa [hnone, List.append_nil] at hdata
  refine ⟨?_, fun hended => hall (hover (hends.ended hended)), ?_⟩
  · rw [← hdata, hgives.index_eq, List.take_left']
    rfl
  · intro hcount
    by_cases hrest : seed.unread = []
    · exact hall hrest
    · have hbound := hprogress.resolve_left hrest
      have hless := seed.remaining_next_lt 0 hrest
      omega

theorem calls_in_order_faulty :
    let source : ByteSource :=
      ⟨[.byte 7, .interrupted, .failed "bad sector", .byte 8, .endOfSource, .byte 9], none⟩
    let input := Input.ofSeed (.ofSource "mem" source)
    let answers := ((start input).calls 6).1
    input.requested = 0 ∧
      answers = [.byte 7, .failed (.unreadable "bad sector"), .byte 8, .ended, .ended, .ended] ∧
      handedOut answers = source.data ∧ source.data = [7, 8] := by
  intro source input answers
  have huntouched : input.requested = 0 := rfl
  obtain ⟨-, -, -, -, -, -, -, hseed⟩ := calls_in_order huntouched 6
  obtain ⟨-, -, hall⟩ := hseed "mem" source rfl
  exact ⟨huntouched, by decide +kernel, hall (Nat.le_refl 6), rfl⟩

end Greybox.Feed
