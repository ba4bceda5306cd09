import Mathlib.Data.List.ReduceOption
import Greybox.Proofs.Input.Limits

namespace Greybox.GeneratedInput

variable {input later : GeneratedInput} {index : Nat} {answer : Answer} {limits : Limits}
  {returned : List UInt8}

theorem Serves.take_requested (hserves : input.Serves index answer later)
    (hheld : input.requested ≤ input.bytes.size) :
    later.bytes.toList.take later.requested =
      input.bytes.toList.take input.requested ++ answer.byte?.toList := by
  have htake : index ≤ input.bytes.size →
      later.bytes.toList.take (index + answer.byte?.toList.length) =
        input.bytes.toList.take index ++ answer.byte?.toList :=
    (Stream.Serves.generated hserves).take_bytes
  cases hserves with
  | nothing => exact (List.append_nil _).symm
  | replayed hplace | fresh _ _ hplace =>
    obtain rfl := hplace
    exact htake hheld

inductive Use
  | next (index : Nat)
  | trim

def perform (input : GeneratedInput) : Use → Option Answer × GeneratedInput
  | .next index => (some (input.next index).1, (input.next index).2)
  | .trim => (none, input.trim.2)

/-- The input has handed out the given bytes and no more than it may, and still holds them. -/
structure Holds (limits : Limits) (returned : List UInt8) (input : GeneratedInput) : Prop where
  fits : (Stream.generated input).Fits limits
  bytes : input.bytes.toList.take input.requested = returned

theorem Holds.serves (h : input.Holds limits returned) (hserves : input.Serves index answer later) :
    later.Holds limits (returned ++ answer.byte?.toList) := by
  obtain ⟨-, hheld, -⟩ := h.fits
  refine ⟨hserves.fits h.fits, ?_⟩
  rw [hserves.take_requested hheld, h.bytes]

theorem Holds.length (h : input.Holds limits returned) : returned.length = input.requested := by
  obtain ⟨-, hheld, -⟩ := h.fits
  rw [← h.bytes, List.length_take, Array.length_toList, Nat.min_eq_left hheld]

theorem Holds.bytes_trim (h : input.Holds limits returned) :
    input.trim.2.bytes.toList = returned := by
  rw [← h.bytes]
  simp [trim]

theorem Holds.result_trim (h : input.Holds limits returned) :
    input.trim.1 = if returned = [] then .error .emptyAfterTrim else .ok () := by
  have hempty : input.trim.2.bytes.isEmpty = true ↔ returned = [] := by
    rw [Array.isEmpty_iff, ← Array.toList_eq_nil_iff, h.bytes_trim]
  change (if input.trim.2.bytes.isEmpty = true then _ else _) = _
  simp only [hempty]

theorem trim_trim (input : GeneratedInput) : input.trim.2.trim = input.trim := by
  simp [GeneratedInput.trim]

theorem Holds.trim (h : input.Holds limits returned) : input.trim.2.Holds limits returned := by
  obtain ⟨hlimits, -, hmax⟩ := h.fits
  have hlength : input.trim.2.bytes.size = input.trim.2.requested := h.fits.requested_trim
  refine ⟨⟨hlimits, Nat.le_of_eq hlength.symm, hmax⟩, ?_⟩
  rw [List.take_of_length_le (Nat.le_of_eq hlength), h.bytes_trim]

theorem holds_perform (bytes : Bytes) (limits : Limits) (random : ChaCha) (uses : List Use) :
    (inTurn perform ⟨bytes, 0, limits, random⟩ uses).2.Holds limits
      (handedOut (inTurn perform ⟨bytes, 0, limits, random⟩ uses).1.reduceOption) := by
  apply inTurn_induction (P := fun answers (input : GeneratedInput) =>
    input.Holds limits (handedOut answers.reduceOption))
  · intro answers input use h
    rw [List.reduceOption_append, handedOut_append]
    cases use with
    | next index =>
      have hnext := h.serves (input.next_serves index)
      rwa [← handedOut_singleton] at hnext
    | trim => simpa [perform] using h.trim
  · exact ⟨⟨rfl, Nat.zero_le _, Nat.zero_le _⟩, List.take_zero⟩

theorem inTurn_next_of_drop {values : List UInt8}
    (hbytes : values <+: input.bytes.toList.drop input.requested)
    (hroom : input.requested + values.length ≤ input.limits.maxInputSize) :
    inTurn next input (List.range' input.requested values.length) =
      (values.map .byte, { input with requested := input.requested + values.length }) := by
  induction values generalizing input with
  | nil => rfl
  | cons value values ih =>
    obtain ⟨rest, hrest⟩ := hbytes
    have hbyte : input.bytes[input.requested]? = some value := by
      rw [← Array.getElem?_toList, ← List.head?_drop, ← hrest]
      rfl
    have hbehind : values <+: input.bytes.toList.drop (input.requested + 1) := by
      rw [← List.tail_drop, ← hrest]
      exact List.prefix_append _ _
    rw [List.length_cons] at hroom
    have hnext := next_of_lt (by omega) hbyte
    have hrest := @ih { input with requested := input.requested + 1 } hbehind
      (by rwa [Nat.add_right_comm])
    simp only [List.length_cons, List.range'_succ, List.map_cons, inTurn, hnext, hrest,
      Nat.add_assoc, Nat.add_comm 1]

theorem Holds.replay (h : input.Holds limits returned) {allowed : Limits}
    (hroom : returned.length ≤ allowed.maxInputSize) (seed : UInt64) :
    (inTurn next (ofBytes input.trim.2.bytes allowed seed) (List.range returned.length)).1 =
      returned.map .byte := by
  have hbytes : returned <+: input.trim.2.bytes.toList.drop 0 :=
    ⟨[], by rw [List.append_nil, List.drop_zero, h.bytes_trim]⟩
  have hreplay := @inTurn_next_of_drop (ofBytes input.trim.2.bytes allowed seed) returned hbytes
    (by rwa [ofBytes, Nat.zero_add])
  rw [List.range_eq_range']
  exact congrArg Prod.fst hreplay

/-- Whatever was requested from a generated input and however often it was trimmed, the bytes that
it returned are the first ones of its buffer, as many as it counts, and no more than the limit. A
request changes no byte of the buffer, and adds none if the input ends with its buffer. Trimming
leaves exactly the returned bytes, fails if there are none, and changes nothing when it is repeated.
An input over the trimmed buffer returns the same bytes in the same order. -/
theorem uses_account_for_bytes (bytes : Bytes) (limits : Limits) (random : ChaCha)
    (uses : List Use) :
    let returned := handedOut (inTurn perform ⟨bytes, 0, limits, random⟩ uses).1.reduceOption
    let input := (inTurn perform ⟨bytes, 0, limits, random⟩ uses).2
    let trimmed := input.trim.2
    returned = input.bytes.toList.take input.requested ∧
    input.requested ≤ input.bytes.size ∧ input.requested ≤ limits.maxInputSize ∧
    (∀ index, let later := (input.next index).2
      input.bytes.toList <+: later.bytes.toList ∧
      (limits.endsWithBuffer = true → later.bytes = input.bytes)) ∧
    trimmed.bytes.toList = returned ∧
    input.trim.1 = (if returned = [] then .error .emptyAfterTrim else .ok ()) ∧
    trimmed.trim = input.trim ∧
    ∀ allowed seed, returned.length ≤ allowed.maxInputSize →
      (inTurn next (ofBytes trimmed.bytes allowed seed) (List.range returned.length)).1 =
        returned.map .byte := by
  intro returned input trimmed
  have hholds : input.Holds limits returned := holds_perform bytes limits random uses
  obtain ⟨hlimits, hheld, hmax⟩ := hholds.fits
  refine ⟨hholds.bytes.symm, hheld, hmax, ?_, hholds.bytes_trim, ?_, ?_, ?_⟩
  · intro index later
    refine ⟨(input.next_serves index).extends_bytes, ?_⟩
    intro hends
    rw [← hlimits] at hends
    exact bytes_next_of_endsWithBuffer hends index
  · exact hholds.result_trim
  · exact input.trim_trim
  · intro allowed seed hroom
    exact hholds.replay hroom seed

theorem uses_account_for_bytes_regrown :
    let limits : Limits := { maxInputSize := 2, endsWithBuffer := false }
    let run := inTurn perform ⟨#[1, 2, 3], 0, limits, .ofSeed 5⟩
      [.next 0, .next 7, .trim, .next 1, .next 2]
    let returned := handedOut run.1.reduceOption
    returned.length = 2 ∧ returned[0]? = some 1 ∧ run.2.trim.2.bytes.toList = returned ∧
      (inTurn next (ofBytes run.2.trim.2.bytes { maxInputSize := 9 } 6)
        (List.range returned.length)).1 = returned.map .byte := by
  intro limits run returned
  have hlength : returned.length = 2 := by decide +kernel
  obtain ⟨-, -, -, -, hbytes, -, -, hreplay⟩ := uses_account_for_bytes #[1, 2, 3] limits
    (.ofSeed 5) [.next 0, .next 7, .trim, .next 1, .next 2]
  have hroom : returned.length ≤ 9 := by
    rw [hlength]
    decide
  exact ⟨hlength, by decide +kernel, hbytes, hreplay { maxInputSize := 9 } 6 hroom⟩

end Greybox.GeneratedInput
