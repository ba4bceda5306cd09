import Greybox.Proofs.Feed

namespace Greybox.Feed

namespace BulkRead

/-- The bytes that a caller learns of: none from a failing read. -/
def reported (call : BulkRead) : List UInt8 :=
  if call.error.isSome then [] else call.filled.toList

theorem reported_sublist (call : BulkRead) : call.reported.Sublist call.filled.toList := by
  rw [reported]
  split
  · exact List.nil_sublist _
  · exact .refl _

theorem reported_eq_iff (call : BulkRead) :
    call.reported = call.filled.toList ↔ (call.error.isSome → call.filled = #[]) := by
  rw [reported]
  split
  · rw [eq_comm, Array.toList_eq_nil_iff]
    exact ⟨fun hnone _ => hnone, fun hnone => hnone ‹_›⟩
  · exact iff_of_true rfl fun hfailed => absurd hfailed ‹_›

theorem flatMap_reported_sublist (calls : List BulkRead) :
    (calls.flatMap (·.reported)).Sublist (calls.flatMap (·.filled.toList)) := by
  induction calls with
  | nil => exact .refl _
  | cons call calls ih => exact call.reported_sublist.append ih

theorem flatMap_reported_eq_iff (calls : List BulkRead) :
    calls.flatMap (·.reported) = calls.flatMap (·.filled.toList) ↔
      ∀ call ∈ calls, call.error.isSome → call.filled = #[] := by
  induction calls with
  | nil => exact iff_of_true rfl fun _ hmem => absurd hmem List.not_mem_nil
  | cons call calls ih =>
    rw [List.forall_mem_cons, ← ih, ← reported_eq_iff, List.flatMap_cons, List.flatMap_cons]
    constructor
    · intro heq
      have hcall := call.reported_sublist
      have hcalls := flatMap_reported_sublist calls
      -- Neither part can make up for what the other one lacks.
      have hlength := congrArg List.length heq
      rw [List.length_append, List.length_append] at hlength
      have hle := hcall.length_le
      have hle' := hcalls.length_le
      exact ⟨hcall.eq_of_length (by omega), hcalls.eq_of_length (by omega)⟩
    · rintro ⟨hcall, hcalls⟩
      rw [hcall, hcalls]

end BulkRead

theorem gives_fill (feed : Feed) (filled : Bytes) (room : Nat) :
    ∃ answers, feed.Gives answers (feed.fill filled room).feed ∧
      (feed.fill filled room).filled.toList = filled.toList ++ handedOut answers := by
  induction room generalizing feed filled with
  | zero => exact ⟨[], .refl, (List.append_nil _).symm⟩
  | succ room ih =>
    have hfirst : feed.Gives [feed.next.1] feed.next.2 := Gives.refl.turn feed.next_turns
    rw [fill]
    rcases hfeed : feed.next with ⟨value | _ | error, later⟩ <;> rw [hfeed] at hfirst
    · obtain ⟨answers, hgives, hfilled⟩ := ih later (filled.push value)
      refine ⟨.byte value :: answers, hfirst.trans hgives, ?_⟩
      rw [hfilled, Array.toList_push, List.append_assoc]
      rfl
    · exact ⟨[.ended], hfirst, (List.append_nil _).symm⟩
    · exact ⟨[.failed error], hfirst, (List.append_nil _).symm⟩

theorem size_fill_le (feed : Feed) (filled : Bytes) (room : Nat) :
    filled.size ≤ (feed.fill filled room).filled.size := by
  obtain ⟨answers, -, hfilled⟩ := feed.gives_fill filled room
  have hlength := congrArg List.length hfilled
  rw [List.length_append, Array.length_toList, Array.length_toList] at hlength
  omega

theorem index_read (feed : Feed) (room : Nat) :
    (feed.read room).feed.index = feed.index + (feed.read room).filled.size := by
  obtain ⟨answers, hgives, hfilled⟩ := feed.gives_fill #[] room
  rw [List.nil_append] at hfilled
  rw [read, hgives.index, ← hfilled, Array.length_toList]

theorem size_fill_lt (feed : Feed) (filled : Bytes) (room : Nat)
    (h : (feed.fill filled room).error.isSome) :
    (feed.fill filled room).filled.size < filled.size + room := by
  induction room generalizing feed filled with
  | zero => exact absurd h Bool.false_ne_true
  | succ room ih =>
    rw [fill] at h ⊢
    rcases hfeed : feed.next with ⟨value | _ | error, later⟩ <;> rw [hfeed] at h
    · have hless := ih later (filled.push value) h
      rwa [Array.size_push, Nat.add_assoc, Nat.add_comm 1] at hless
    · exact absurd h Bool.false_ne_true
    · exact Nat.lt_add_of_pos_right (Nat.succ_pos room)

theorem size_read_eq_zero_iff (feed : Feed) (room : Nat) (h : (feed.read room).error.isSome) :
    (feed.read room).filled.size = 0 ↔ ∃ error, feed.next.1 = .failed error := by
  cases room with
  | zero => exact absurd h Bool.false_ne_true
  | succ room =>
    rw [read, fill] at h ⊢
    rcases hfeed : feed.next with ⟨value | _ | error, later⟩ <;> rw [hfeed] at h
    · have hsize := later.size_fill_le (#[].push value) room
      refine iff_of_false (Nat.ne_of_gt hsize) ?_
      rintro ⟨error, ⟨⟩⟩
    · exact absurd h Bool.false_ne_true
    · exact iff_of_true rfl ⟨error, rfl⟩

/-- Bulk reads made one after the other, into buffers of the given sizes, and the feed they
leave. -/
def reads (feed : Feed) (rooms : List Nat) : List BulkRead × Feed :=
  inTurn (fun feed room => (feed.read room, (feed.read room).feed)) feed rooms

theorem gives_reads (feed : Feed) (rooms : List Nat) :
    ∃ answers, feed.Gives answers (feed.reads rooms).2 ∧
      (feed.reads rooms).1.flatMap (·.filled.toList) = handedOut answers := by
  have hstep : ∀ (calls : List BulkRead) (later : Feed) (room : Nat),
      (∃ answers, feed.Gives answers later ∧
        calls.flatMap (·.filled.toList) = handedOut answers) →
      ∃ answers, feed.Gives answers (later.read room).feed ∧
        (calls ++ [later.read room]).flatMap (·.filled.toList) = handedOut answers := by
    rintro calls later room ⟨answers, hgives, hcalls⟩
    obtain ⟨more, hmore, hfilled⟩ := later.gives_fill #[] room
    refine ⟨answers ++ more, hgives.trans hmore, ?_⟩
    rw [List.flatMap_append, hcalls, handedOut_append, List.flatMap_singleton, read, hfilled]
    rfl
  exact inTurn_induction (P := fun (calls : List BulkRead) (later : Feed) =>
    ∃ answers, feed.Gives answers later ∧ calls.flatMap (·.filled.toList) = handedOut answers)
    hstep ⟨[], .refl, rfl⟩ rooms

/-- The bytes filled in by all reads, the failing ones included, are the first bytes of the input,
in order and as many as the index says. What the reads report is all of these only if every failing
read failed at its first byte: one that fails later moves the index by the bytes before the failure,
which no read reports. -/
theorem reads_account_for_input (input : Input) (rooms : List Nat) :
    let calls := ((start input).reads rooms).1
    let feed := ((start input).reads rooms).2
    let taken := calls.flatMap (·.filled.toList)
    taken = feed.input.bytes.toList.take feed.index ∧ feed.index = taken.length ∧
    (∀ origin source, input.stream = .seed (.ofSource origin source) →
      taken = source.data.take feed.index) ∧
    (calls.flatMap (·.reported) = feed.input.bytes.toList.take feed.index ↔
      ∀ call ∈ calls, call.error.isSome → call.filled = #[]) ∧
    ∀ room, let call := feed.read room
      call.feed.index = feed.index + call.filled.size ∧
      (call.error.isSome → call.filled.size < room ∧
        (call.feed.index = feed.index ↔ ∃ error, feed.next.1 = .failed error)) := by
  intro calls feed taken
  obtain ⟨answers, hgives, htaken⟩ := (start input).gives_reads rooms
  have hindex : feed.index = taken.length := hgives.index_eq.trans (congrArg _ htaken.symm)
  have hheld : taken = feed.input.bytes.toList.take feed.index :=
    htaken.trans hgives.take_bytes.symm
  refine ⟨hheld, hindex, ?_, ?_, ?_⟩
  · intro origin source hinput
    obtain ⟨-, seed, -, hdata, -⟩ := hgives.draws hinput
    rw [← htaken] at hdata
    rw [← hdata, hindex, List.take_left']
    rfl
  · rw [← hheld]
    exact BulkRead.flatMap_reported_eq_iff calls
  · intro room call
    have hmoved := feed.index_read room
    refine ⟨hmoved, fun hfailed => ⟨?_, ?_⟩⟩
    · have hless := feed.size_fill_lt #[] room hfailed
      rwa [Array.size_empty, Nat.zero_add] at hless
    · rw [hmoved, ← feed.size_read_eq_zero_iff room hfailed]
      exact Nat.add_eq_left

/-- A sector fails after two bytes. The first read takes them and reports nothing, so that of three
bytes only the last one is reported. -/
theorem reads_account_for_input_bad_sector :
    let source : ByteSource := ⟨[.byte 1, .byte 2, .failed "bad sector", .byte 3], none⟩
    let input := Input.ofSeed (.ofSource "disk" source)
    let first := (start input).read 5
    let calls := ((start input).reads [5, 5]).1
    first.error.isSome ∧ first.feed.index ≠ (start input).index ∧
      calls.flatMap (·.reported) = [3] ∧ calls.flatMap (·.filled.toList) = [1, 2, 3] ∧
      calls.flatMap (·.reported) ≠ ((start input).reads [5, 5]).2.input.bytes.toList.take
        ((start input).reads [5, 5]).2.index := by
  intro source input first calls
  have hfailed : first.error.isSome := by decide +kernel
  obtain ⟨-, -, -, -, hcalls⟩ := reads_account_for_input input []
  obtain ⟨-, hfailing⟩ := hcalls 5
  have hmoved : first.feed.index ≠ (start input).index := by
    intro hstays
    obtain ⟨error, hfirst⟩ := (hfailing hfailed).2.1 hstays
    have hbyte : (start input).next.1 = .byte 1 := by decide +kernel
    cases hbyte.symm.trans hfirst
  obtain ⟨htaken, -, -, hreported, -⟩ := reads_account_for_input input [5, 5]
  refine ⟨hfailed, hmoved, by decide +kernel, by decide +kernel, fun hall => ?_⟩
  exact absurd (hreported.1 hall) (by decide +kernel)

end Greybox.Feed
