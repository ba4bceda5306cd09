import Greybox.Input.Basic

namespace Greybox

@[simp] theorem SeedInput.bytes_trim (seed : SeedInput) : seed.trim.2.bytes = seed.bytes := by
  simp [trim, seed.requested_eq]

namespace Input

variable {input pulled trimmed : Input}

/-- Some bytes were pulled from the first input, at whatever positions, which left the second. -/
inductive Pulls (input : Input) : Input → Prop
  | refl : Pulls input input
  | next {pulled : Input} (index : Nat) : Pulls input pulled → Pulls input (pulled.next index).2

theorem next_eq (input : Input) (index : Nat) :
    (input.next index).2 = { input with stream := (input.next index).2.stream } := rfl

theorem isSeed_next (input : Input) (index : Nat) : (input.next index).2.isSeed = input.isSeed := by
  rcases input with ⟨_ | _⟩ <;> rfl

theorem Pulls.eq (h : input.Pulls pulled) : pulled = { input with stream := pulled.stream } := by
  induction h with
  | refl => rfl
  | next index _ ih => rw [next_eq, ih]

theorem Pulls.isSeed (h : input.Pulls pulled) : pulled.isSeed = input.isSeed := by
  induction h with
  | refl => rfl
  | next index _ ih => rw [isSeed_next, ih]

theorem Pulls.parent (h : input.Pulls pulled) : pulled.parent = input.parent := by rw [h.eq]

theorem isSeed_trim (input : Input) : input.trim.2.isSeed = input.isSeed := by
  rcases input with ⟨_ | _⟩ <;> rfl

theorem eq_of_trim (h : input.trim = (.ok (), trimmed)) : trimmed = input.trim.2 :=
  (congrArg Prod.snd h).symm

theorem isEmpty_of_trim (h : input.trim = (.ok (), trimmed)) : trimmed.isEmpty = false := by
  obtain rfl := eq_of_trim h
  have hok : input.trim.1 = .ok () := congrArg Prod.fst h
  rcases input with ⟨generated | seed⟩
  · simp only [trim, Stream.trim, GeneratedInput.trim] at hok
    simp only [trim, Stream.trim, GeneratedInput.trim, isEmpty, bytes, Stream.bytes]
    split at hok
    · cases hok
    · exact Bool.eq_false_iff.2 ‹_›
  · simp only [trim, Stream.trim, SeedInput.trim] at hok
    simp only [trim, Stream.trim, SeedInput.trim, isEmpty, bytes, Stream.bytes]
    split at hok
    · cases hok
    · exact Bool.eq_false_iff.2 ‹_›

end Input

end Greybox
