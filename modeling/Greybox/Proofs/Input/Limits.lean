import Greybox.Proofs.Input.Requests

namespace Greybox

/-- Nothing was handed out that the input does not hold, nor more than the limits allow. -/
def Stream.Fits (limits : Limits) : Stream → Prop
  | .generated input =>
    input.limits = limits ∧ input.requested ≤ input.bytes.size ∧
      input.requested ≤ limits.maxInputSize
  | .seed _ => True

theorem GeneratedInput.fits_ofBytes (bytes : Bytes) (limits : Limits) (seed : UInt64) :
    (Stream.generated (.ofBytes bytes limits seed)).Fits limits :=
  ⟨rfl, Nat.zero_le _, Nat.zero_le _⟩

theorem GeneratedInput.Serves.fits {limits : Limits} {input later : GeneratedInput} {index : Nat}
    {answer : Answer} (hserves : input.Serves index answer later)
    (h : (Stream.generated input).Fits limits) : (Stream.generated later).Fits limits := by
  obtain ⟨rfl, hbytes, hmax⟩ := h
  cases hserves with
  | nothing => exact ⟨rfl, hbytes, hmax⟩
  | replayed hplace hroom hbyte =>
    obtain rfl := hplace
    exact ⟨rfl, (Array.getElem?_eq_some_iff.1 hbyte).1, hroom⟩
  | fresh _ _ _ hroom =>
    refine ⟨rfl, ?_, hroom⟩
    rw [Array.size_push]
    exact Nat.succ_le_succ hbytes

theorem Stream.Fits.serves {limits : Limits} {stream later : Stream} {index : Nat}
    {answer : Answer} (h : stream.Fits limits) (hserves : stream.Serves index answer later) :
    later.Fits limits := by
  cases hserves with
  | generated hserves => exact hserves.fits h
  | seed => trivial

theorem Stream.Fits.next {limits : Limits} {stream : Stream} (h : stream.Fits limits)
    (index : Nat) : (stream.next index).2.Fits limits :=
  h.serves (stream.next_serves index)

theorem Stream.Fits.requested_trim {limits : Limits} {stream : Stream} (h : stream.Fits limits) :
    stream.trim.2.bytes.size = stream.trim.2.requested := by
  cases stream with
  | generated input =>
    obtain ⟨-, hbytes, -⟩ := h
    simp only [trim, GeneratedInput.trim, Stream.bytes, Stream.requested]
    rw [Array.take_eq_extract, Array.size_extract]
    omega
  | seed input => exact input.trim.2.requested_eq.symm

namespace Input

variable {limits : Limits} {input pulled trimmed : Input}

theorem Pulls.fits (hpulls : input.Pulls pulled) (h : input.stream.Fits limits) :
    pulled.stream.Fits limits := by
  induction hpulls with
  | refl => exact h
  | next index _ ih => exact ih.next index

structure IsTrimmed (limits : Limits) (input : Input) : Prop where
  size : input.size = input.requested
  allowed : input.isSeed = false → input.size ≤ limits.maxInputSize

theorem IsTrimmed.of_trim (htrim : input.trim = (.ok (), trimmed)) (h : input.stream.Fits limits) :
    trimmed.IsTrimmed limits := by
  obtain rfl := eq_of_trim htrim
  have hsize : input.trim.2.size = input.trim.2.requested := h.requested_trim
  refine ⟨hsize, ?_⟩
  intro hseed
  rw [isSeed_trim] at hseed
  rw [hsize]
  rcases input with ⟨generated | seed⟩
  · exact h.2.2
  · cases hseed

end Input

end Greybox
