import Mathlib.Algebra.GroupWithZero.Nat
import Mathlib.Data.List.Forall2
import Greybox.Proofs.Feed.BulkRead
import Greybox.Proofs.Target.Replay

namespace Greybox.Feed

variable {feed : Feed} {bytes : List UInt8}

theorem calls_succ (feed : Feed) (count : Nat) :
    feed.calls (count + 1) =
      (feed.next.1 :: (feed.next.2.calls count).1, (feed.next.2.calls count).2) := rfl

theorem calls_add (feed : Feed) (count more : Nat) :
    feed.calls (count + more) =
      ((feed.calls count).1 ++ ((feed.calls count).2.calls more).1,
        ((feed.calls count).2.calls more).2) := by
  rw [calls, ← List.replicate_append_replicate, inTurn_append]
  rfl

theorem length_handedOut_calls_le (feed : Feed) (count : Nat) :
    (handedOut (feed.calls count).1).length ≤ count := by
  have hlength : (feed.calls count).1.length = count :=
    (length_inTurn _ _ _).trans List.length_replicate
  calc (handedOut (feed.calls count).1).length
      ≤ (feed.calls count).1.length := List.length_filterMap_le _ _
    _ = count := hlength

theorem calls_of_ended (h : feed.ended = true) (count : Nat) :
    feed.calls count = (List.replicate count .ended, feed) := by
  have hnext : feed.next = (.ended, feed) := if_pos h
  induction count with
  | zero => rfl
  | succ count ih => rw [calls_succ, hnext, ih, List.replicate_succ]

def Unfailing (feed : Feed) : Prop := ∀ count error, .failed error ∉ (feed.calls count).1

theorem Unfailing.calls (h : feed.Unfailing) (count : Nat) : (feed.calls count).2.Unfailing := by
  intro more error hmem
  apply h (count + more) error
  rw [calls_add]
  exact List.mem_append_right _ hmem

theorem Unfailing.next (h : feed.Unfailing) : feed.next.2.Unfailing := h.calls 1

theorem Unfailing.next_ne_failed (h : feed.Unfailing) (error : InputError) :
    feed.next.1 ≠ .failed error := by
  intro hanswer
  apply h 1 error
  rw [← hanswer]
  exact List.mem_singleton_self _

theorem Delivered.unfailing (h : feed.Delivered bytes) : feed.Unfailing := by
  intro count error
  induction count generalizing feed bytes with
  | zero => exact List.not_mem_nil
  | succ count ih =>
    rw [calls_succ]
    rcases next_delivered h with ⟨value, hanswer, hlater⟩ | ⟨hanswer, hlater, -⟩ <;>
      simp [hanswer, ih hlater]

theorem write_eq_fill (feed : Feed) (filled : Bytes) (rest : List UInt8) :
    let got := feed.fill filled rest.length
    feed.write (filled ++ rest.toArray) filled.size rest.length =
      ⟨got.filled ++ (rest.drop (got.filled.size - filled.size)).toArray, got.filled.size,
        got.error, got.feed⟩ := by
  induction rest generalizing feed filled with
  | nil => simp [write, fill]
  | cons old rest ih =>
    rw [List.length_cons, write, fill]
    rcases hfeed : feed.next with ⟨value | _ | error, later⟩
    · have hwritten : (filled ++ (old :: rest).toArray).setIfInBounds filled.size value =
          filled.push value ++ rest.toArray := by
        apply Array.toList_inj.1
        simp
      have hsize := later.size_fill_le (filled.push value) rest.length
      have hlater := ih later (filled.push value)
      rw [Array.size_push] at hsize hlater
      have hbehind : (later.fill (filled.push value) rest.length).filled.size - filled.size =
          (later.fill (filled.push value) rest.length).filled.size - (filled.size + 1) + 1 := by
        omega
      simp only [hwritten, hlater]
      rw [hbehind, List.drop_succ_cons]
    · simp
    · simp

theorem readInto_eq_read (feed : Feed) (buffer : Bytes) :
    let got := feed.read buffer.size
    feed.readInto buffer = ⟨got.filled ++ (buffer.toList.drop got.filled.size).toArray,
      got.filled.size, got.error, got.feed⟩ := by
  have hwrite := feed.write_eq_fill #[] buffer.toList
  simpa [readInto, read] using hwrite

/-- A read makes the calls that its buffer has room for, or those up to the end of the feed, after
which more calls make no difference. -/
theorem Unfailing.fill (h : feed.Unfailing) (filled : Bytes) (room : Nat) :
    let got := feed.fill filled room
    let calls := feed.calls room
    got.error = none ∧ got.feed = calls.2 ∧
      got.filled.toList = filled.toList ++ handedOut calls.1 ∧
      (got.filled.size < filled.size + room → got.feed.ended = true) := by
  induction room generalizing feed filled with
  | zero => exact ⟨rfl, rfl, (List.append_nil _).symm, fun hless => absurd hless (Nat.lt_irrefl _)⟩
  | succ room ih =>
    have hlater := h.next
    have hturns := feed.next_turns
    have hfails := h.next_ne_failed
    rw [Feed.fill, calls_succ]
    rcases hfeed : feed.next with ⟨value | _ | error, later⟩ <;>
      rw [hfeed] at hlater hturns hfails
    · obtain ⟨herror, hlast, hfilled, hended⟩ := ih hlater (filled.push value)
      refine ⟨herror, hlast, ?_, ?_⟩
      · rw [hfilled, Array.toList_push, List.append_assoc]
        rfl
      · rwa [Array.size_push, Nat.add_assoc, Nat.add_comm 1] at hended
    · have hcalls := calls_of_ended hturns.ended room
      refine ⟨rfl, (congrArg Prod.snd hcalls).symm, ?_, fun _ => hturns.ended⟩
      change filled.toList = filled.toList ++ handedOut (.ended :: (later.calls room).1)
      rw [hcalls, ← List.replicate_succ, handedOut, List.filterMap_replicate_of_none rfl,
        List.append_nil]
    · exact absurd rfl (hfails error)

/-- The bytes that a read put into its buffer. -/
def BufferRead.delivered (read : BufferRead) : List UInt8 := read.buffer.toList.take read.count

structure Overwrites (buffer : Bytes) (read : BufferRead) : Prop where
  error : read.error = none
  size : read.buffer.size = buffer.size
  count : read.count ≤ buffer.size
  kept : read.buffer.toList.drop read.count = buffer.toList.drop read.count
  ended : read.count < buffer.size → read.feed.next = (.ended, read.feed)

theorem Unfailing.readInto (h : feed.Unfailing) (buffer : Bytes) :
    let read := feed.readInto buffer
    let calls := feed.calls buffer.size
    read.delivered = handedOut calls.1 ∧ read.feed = calls.2 ∧ Overwrites buffer read := by
  obtain ⟨herror, hfeed, hfilled, hended⟩ := h.fill #[] buffer.size
  rw [List.nil_append] at hfilled
  rw [Array.size_empty, Nat.zero_add] at hended
  have hcount : (feed.read buffer.size).filled.size ≤ buffer.size := by
    rw [read, ← Array.length_toList, hfilled]
    exact feed.length_handedOut_calls_le buffer.size
  rw [readInto_eq_read]
  refine ⟨?_, hfeed, herror, ?_, hcount, ?_, ?_⟩
  · rw [← hfilled]
    simp [BufferRead.delivered, read]
  · simp
    omega
  · simp
  · intro hless
    exact if_pos (hended hless)

theorem readInto_of_ended (h : feed.next = (.ended, feed)) (buffer : Bytes) :
    feed.readInto buffer = ⟨buffer, 0, none, feed⟩ := by
  rw [readInto]
  cases buffer.size with
  | zero => rfl
  | succ room => rw [write, h]

/-- Reads made one after the other, each into its own buffer, and the feed they leave. -/
def readsInto (feed : Feed) (buffers : List Bytes) : List BufferRead × Feed :=
  inTurn (fun feed buffer => (feed.readInto buffer, (feed.readInto buffer).feed)) feed buffers

theorem readsInto_cons (feed : Feed) (buffer : Bytes) (buffers : List Bytes) :
    feed.readsInto (buffer :: buffers) =
      let read := feed.readInto buffer
      (read :: (read.feed.readsInto buffers).1, (read.feed.readsInto buffers).2) := rfl

theorem count_readsInto_of_ended (h : feed.next = (.ended, feed)) (buffers : List Bytes) :
    ∀ read ∈ (feed.readsInto buffers).1, read.count = 0 := by
  induction buffers with
  | nil => exact fun _ hmem => absurd hmem List.not_mem_nil
  | cons buffer buffers ih =>
    rw [readsInto_cons, readInto_of_ended h]
    exact List.forall_mem_cons.2 ⟨rfl, ih⟩

/-- As long as no call fails, reads into buffers of any sizes deliver the bytes of as many single
calls as the buffers have room for, and leave the same feed, so that the input is left with the same
bytes and the same count. A read that falls short of its buffer has found the end of the input, and
every later one delivers nothing. -/
theorem readsInto_eq_calls (h : feed.Unfailing) (buffers : List Bytes) :
    let reads := (feed.readsInto buffers).1
    let calls := feed.calls (buffers.map (·.size)).sum
    reads.flatMap (·.delivered) = handedOut calls.1 ∧ (feed.readsInto buffers).2 = calls.2 ∧
      List.Forall₂ Overwrites buffers reads ∧
      reads.Pairwise fun earlier later => earlier.count < earlier.buffer.size → later.count = 0 := by
  induction buffers generalizing feed with
  | nil => exact ⟨rfl, rfl, .nil, .nil⟩
  | cons buffer buffers ih =>
    obtain ⟨hread, hfeed, hbuffer⟩ := h.readInto buffer
    have hlater := h.calls buffer.size
    rw [← hfeed] at hlater
    obtain ⟨hreads, hlast, hbuffers, hshort⟩ := ih hlater
    rw [readsInto_cons, List.map_cons, List.sum_cons, calls_add, ← hfeed]
    refine ⟨?_, hlast, .cons hbuffer hbuffers, List.pairwise_cons.2 ⟨?_, hshort⟩⟩
    · rw [List.flatMap_cons, hread, hreads, handedOut_append]
    · intro later hmem hless
      rw [hbuffer.size] at hless
      exact count_readsInto_of_ended (hbuffer.ended hless) buffers later hmem

theorem readsInto_eq_calls_limited :
    let limits : Limits := { maxInputSize := 4, endsWithBuffer := false }
    let input := Input.ofGenerated (.ofBytes #[7, 8] limits 1) "random"
    let reads := ((start input).readsInto [#[0, 0, 0], #[], #[1, 2, 3], #[4]]).1
    (start input).Unfailing ∧ reads.map (·.count) = [3, 0, 1, 0] ∧
      reads.flatMap (·.delivered) = handedOut ((start input).calls 7).1 ∧
      (reads.map (·.buffer.toList.drop 1))[2]? = some [2, 3] := by
  intro limits input reads
  have hstart : (start input).Delivered [] := ⟨rfl, rfl, rfl⟩
  obtain ⟨hreads, -⟩ :=
    readsInto_eq_calls hstart.unfailing [#[0, 0, 0], #[], #[1, 2, 3], #[4]]
  exact ⟨hstart.unfailing, by decide +kernel, hreads, by decide +kernel⟩

end Greybox.Feed
