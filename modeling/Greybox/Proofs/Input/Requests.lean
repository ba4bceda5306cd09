import Greybox.Proofs.Input

namespace Greybox

/-- Makes requests one after the other: their answers, and the state they leave. -/
def inTurn {σ ρ α : Type} (step : σ → ρ → α × σ) (state : σ) : List ρ → List α × σ
  | [] => ([], state)
  | request :: requests =>
    let (answer, later) := step state request
    let (answers, last) := inTurn step later requests
    (answer :: answers, last)

theorem inTurn_induction {σ ρ α : Type} {step : σ → ρ → α × σ} {P : List α → σ → Prop}
    (hstep : ∀ answers state request, P answers state →
      P (answers ++ [(step state request).1]) (step state request).2)
    {state : σ} (hstart : P [] state) (requests : List ρ) :
    P (inTurn step state requests).1 (inTurn step state requests).2 := by
  suffices ∀ answers state, P answers state →
      P (answers ++ (inTurn step state requests).1) (inTurn step state requests).2 by
    exact this [] state hstart
  clear hstart
  induction requests with
  | nil => intro answers state h; simpa [inTurn] using h
  | cons request requests ih =>
    intro answers state h
    have hrest := ih _ _ (hstep answers state request h)
    rwa [List.append_assoc, List.singleton_append] at hrest

theorem length_inTurn {σ ρ α : Type} (step : σ → ρ → α × σ) (state : σ) (requests : List ρ) :
    (inTurn step state requests).1.length = requests.length := by
  induction requests generalizing state with
  | nil => rfl
  | cons request requests ih => exact congrArg (· + 1) (ih _)

theorem inTurn_append {σ ρ α : Type} (step : σ → ρ → α × σ) (state : σ) (requests more : List ρ) :
    inTurn step state (requests ++ more) =
      let first := inTurn step state requests
      let last := inTurn step first.2 more
      (first.1 ++ last.1, last.2) := by
  induction requests generalizing state with
  | nil => rfl
  | cons request requests ih => simp only [List.cons_append, inTurn, ih]

namespace Answer

def byte? : Answer → Option UInt8
  | byte value => some value
  | ended | failed _ => none

def isMisplaced : Answer → Bool
  | failed (.outOfOrder _ _) => true
  | byte _ | ended | failed _ => false

end Answer

def handedOut (answers : List Answer) : List UInt8 := answers.filterMap Answer.byte?

@[simp] theorem handedOut_nil : handedOut [] = [] := rfl

@[simp] theorem handedOut_append (answers more : List Answer) :
    handedOut (answers ++ more) = handedOut answers ++ handedOut more :=
  List.filterMap_append

@[simp] theorem handedOut_singleton (answer : Answer) :
    handedOut [answer] = answer.byte?.toList := by
  cases answer <;> rfl

namespace GeneratedInput

inductive Serves (input : GeneratedInput) (index : Nat) : Answer → GeneratedInput → Prop
  | nothing : Serves input index .ended input
  | replayed {value : UInt8} (hplace : index = input.requested)
      (hroom : input.requested < input.limits.maxInputSize)
      (hbyte : input.bytes[index]? = some value) :
      Serves input index (.byte value) { input with requested := input.requested + 1 }
  | fresh (value : UInt8) (random : ChaCha) (hplace : index = input.requested)
      (hroom : input.requested < input.limits.maxInputSize) (hend : input.bytes.size ≤ index) :
      Serves input index (.byte value)
        { input with bytes := input.bytes.push value, requested := input.requested + 1, random }

theorem next_serves (input : GeneratedInput) (index : Nat) :
    input.Serves index (input.next index).1 (input.next index).2 := by
  rw [next]
  split
  · exact .nothing
  · rename_i hallowed
    obtain ⟨hindex, hlimit⟩ := not_or.1 hallowed
    have hplace := Classical.not_not.1 hindex
    have hroom := Nat.not_le.1 hlimit
    split <;> rename_i hbyte
    · exact .replayed hplace hroom hbyte
    · split
      · exact .nothing
      · exact .fresh _ _ hplace hroom (Array.getElem?_eq_none_iff.1 hbyte)

theorem Serves.extends_bytes {input later : GeneratedInput} {index : Nat} {answer : Answer}
    (hserves : input.Serves index answer later) :
    input.bytes.toList <+: later.bytes.toList := by
  cases hserves with
  | nothing | replayed => exact List.prefix_rfl
  | fresh value =>
    rw [Array.toList_push]
    exact List.prefix_append _ _

theorem bytes_next_of_endsWithBuffer {input : GeneratedInput}
    (h : input.limits.endsWithBuffer = true) (index : Nat) :
    (input.next index).2.bytes = input.bytes := by
  rw [next]
  split
  · rfl
  · split
    · rfl
    · rfl

/-- How many bytes the input can hand out in all: those of its buffer, unless it goes on past them,
and no more than its limit. -/
def allowance (input : GeneratedInput) : Nat :=
  if input.limits.endsWithBuffer then min input.bytes.size input.limits.maxInputSize
  else input.limits.maxInputSize

theorem Serves.limits {input later : GeneratedInput} {index : Nat} {answer : Answer}
    (hserves : input.Serves index answer later) : later.limits = input.limits := by
  cases hserves <;> rfl

theorem allowance_next (input : GeneratedInput) (index : Nat) :
    (input.next index).2.allowance = input.allowance := by
  rw [allowance, allowance, (input.next_serves index).limits]
  cases hends : input.limits.endsWithBuffer with
  | true => rw [bytes_next_of_endsWithBuffer hends]
  | false => rfl

theorem next_of_lt {input : GeneratedInput} (hroom : input.requested < input.limits.maxInputSize)
    {value : UInt8} (hbyte : input.bytes[input.requested]? = some value) :
    input.next input.requested = (.byte value, { input with requested := input.requested + 1 }) := by
  rw [next, if_neg (by omega), hbyte]

theorem next_requested (input : GeneratedInput) :
    (input.requested < input.allowance ∧
      ∃ value, (input.next input.requested).1 = .byte value) ∨
    (input.allowance ≤ input.requested ∧ (input.next input.requested).1 = .ended) := by
  by_cases hlimit : input.limits.maxInputSize ≤ input.requested
  · refine .inr ⟨?_, by rw [next, if_pos (.inr hlimit)]⟩
    rw [allowance]
    split <;> omega
  have hroom := Nat.not_le.1 hlimit
  cases hbyte : input.bytes[input.requested]? with
  | some value =>
    have hheld := (Array.getElem?_eq_some_iff.1 hbyte).1
    refine .inl ⟨?_, value, congrArg Prod.fst (next_of_lt hroom hbyte)⟩
    rw [allowance]
    split <;> omega
  | none =>
    have hend := Array.getElem?_eq_none_iff.1 hbyte
    rw [next, if_neg (by omega), hbyte, allowance]
    cases input.limits.endsWithBuffer with
    | true => exact .inr ⟨Nat.le_trans (Nat.min_le_left _ _) hend, rfl⟩
    | false => exact .inl ⟨hroom, _, rfl⟩

end GeneratedInput

namespace ByteSource

/-- The bytes that these readings deliver before one of them finds the end. -/
def dataOf : List Reading → List UInt8
  | [] => []
  | .byte value :: rest => value :: dataOf rest
  | .interrupted :: rest | .failed _ :: rest => dataOf rest
  | .endOfSource :: _ => []

def data (source : ByteSource) : List UInt8 := dataOf source.upcoming

variable {source : ByteSource}

theorem data_eq_of_take (source : ByteSource) :
    match source.take.1 with
    | .ok (some value) => source.data = value :: source.take.2.data
    | .ok none => source.data = []
    | .error _ => source.data = source.take.2.data := by
  obtain ⟨upcoming, afterwards⟩ := source
  simp only [take, data]
  induction upcoming with
  | nil => cases afterwards <;> rfl
  | cons reading upcoming ih =>
    cases reading with
    | interrupted => exact ih
    | byte | failed | endOfSource => rfl

/-- As long as there is data to come, every attempt uses up a reading. -/
theorem length_upcoming_take_lt (h : source.data ≠ []) :
    source.take.2.upcoming.length < source.upcoming.length := by
  obtain ⟨upcoming, afterwards⟩ := source
  simp only [take, data] at h ⊢
  induction upcoming with
  | nil => exact absurd rfl h
  | cons reading upcoming ih =>
    cases reading with
    | interrupted => exact Nat.lt_succ_of_lt (ih h)
    | byte | failed | endOfSource => exact Nat.lt_succ_self _

end ByteSource

namespace SeedInput

variable {seed later : SeedInput} {index : Nat} {answer : Answer}

def unread (seed : SeedInput) : List UInt8 :=
  if seed.exhausted then [] else (seed.source.map (·.data)).getD []

inductive Serves (seed : SeedInput) (index : Nat) : Answer → SeedInput → Prop
  | byte {value : UInt8} {later : SeedInput} (hplace : index = seed.requested)
      (hbytes : later.bytes = seed.bytes.push value) (hdata : seed.unread = value :: later.unread) :
      Serves seed index (.byte value) later
  | ended {later : SeedInput} (hbytes : later.bytes = seed.bytes) (hdata : seed.unread = [])
      (hlater : later.unread = []) : Serves seed index .ended later
  | unreadable {reason : String} {later : SeedInput} (hbytes : later.bytes = seed.bytes)
      (hdata : seed.unread = later.unread) :
      Serves seed index (.failed (.unreadable reason)) later
  | misplaced {value : UInt8} {later : SeedInput} (hplace : index ≠ seed.requested)
      (hbytes : later.bytes = seed.bytes) (hdata : seed.unread = value :: later.unread) :
      Serves seed index (.failed (.outOfOrder seed.requested index)) later

theorem next_serves (seed : SeedInput) (index : Nat) :
    seed.Serves index (seed.next index).1 (seed.next index).2 := by
  obtain ⟨origin, bytes, _, source, exhausted, rfl⟩ := seed
  cases exhausted with
  | true => exact .ended rfl rfl rfl
  | false =>
    cases source with
    | none => exact .ended rfl rfl rfl
    | some source =>
      have htake := source.data_eq_of_take
      simp only [next, read]
      rcases htaken : source.take with ⟨reason | _ | value, later⟩ <;> rw [htaken] at htake
      · exact .unreadable rfl htake
      · exact .ended rfl htake rfl
      · by_cases hplace : index = bytes.size
        · simp only [hplace, Bool.false_eq_true, ↓reduceIte]
          exact .byte rfl rfl htake
        · simp only [hplace, Bool.false_eq_true, ↓reduceIte]
          exact .misplaced hplace rfl htake

theorem Serves.isMisplaced_eq_false (h : seed.Serves index answer later)
    (hplace : index = seed.requested) : answer.isMisplaced = false := by
  cases h with
  | byte | ended | unreadable => rfl
  | misplaced hne => exact absurd hplace hne

theorem Serves.toList_bytes (h : seed.Serves index answer later) :
    later.bytes.toList = seed.bytes.toList ++ answer.byte?.toList := by
  cases h with
  | byte _ hbytes =>
    rw [hbytes]
    exact Array.toList_push
  | ended hbytes | unreadable hbytes | misplaced _ hbytes =>
    rw [hbytes]
    exact (List.append_nil _).symm

theorem Serves.unread_eq (h : seed.Serves index answer later) (hplaced : answer.isMisplaced = false) :
    seed.unread = answer.byte?.toList ++ later.unread := by
  cases h with
  | byte _ _ hdata => exact hdata
  | ended _ hdata hlater => exact hdata.trans hlater.symm
  | unreadable _ hdata => exact hdata
  | misplaced => cases hplaced

theorem Serves.unread_of_ended (h : seed.Serves index .ended later) : later.unread = [] := by
  cases h with
  | ended _ _ hlater => exact hlater

theorem remaining_next_lt (seed : SeedInput) (index : Nat) (h : seed.unread ≠ []) :
    (Stream.seed (seed.next index).2).remaining < (Stream.seed seed).remaining := by
  obtain ⟨origin, bytes, _, source, exhausted, rfl⟩ := seed
  cases exhausted with
  | true => exact absurd rfl h
  | false =>
    cases source with
    | none => exact absurd rfl h
    | some source =>
      have htake : source.take.2.upcoming.length < source.upcoming.length :=
        ByteSource.length_upcoming_take_lt h
      simp only [next, read]
      rcases htaken : source.take with ⟨reason | _ | value, later⟩ <;> rw [htaken] at htake
      · exact htake
      · exact htake
      · by_cases hplace : index = bytes.size <;>
          simp only [hplace, Bool.false_eq_true, ↓reduceIte] <;> exact htake

end SeedInput

namespace Stream

variable {stream later : Stream} {index : Nat} {answer : Answer}

/-- What the answer to a request means for either kind of stream. -/
inductive Serves : Stream → Nat → Answer → Stream → Prop
  | generated {input later : GeneratedInput} {index : Nat} {answer : Answer}
      (h : input.Serves index answer later) :
      Serves (.generated input) index answer (.generated later)
  | seed {input later : SeedInput} {index : Nat} {answer : Answer}
      (h : input.Serves index answer later) : Serves (.seed input) index answer (.seed later)

theorem next_serves (stream : Stream) (index : Nat) :
    stream.Serves index (stream.next index).1 (stream.next index).2 := by
  cases stream with
  | generated input => exact .generated (input.next_serves index)
  | seed input => exact .seed (input.next_serves index)

theorem Serves.of_next {input later : Input} (h : input.next index = (answer, later)) :
    input.stream.Serves index answer later.stream := by
  obtain ⟨rfl, rfl⟩ := Prod.ext_iff.1 h
  exact input.stream.next_serves index

theorem Serves.requested (h : stream.Serves index answer later) :
    later.requested = stream.requested + answer.byte?.toList.length := by
  cases h with
  | generated h => cases h <;> rfl
  | @seed input later _ _ h =>
    have hlength := congrArg List.length h.toList_bytes
    rwa [List.length_append, Array.length_toList, Array.length_toList, ← later.requested_eq,
      ← input.requested_eq] at hlength

theorem Serves.take_bytes (h : stream.Serves index answer later)
    (hsize : index ≤ stream.bytes.size) :
    later.bytes.toList.take (index + answer.byte?.toList.length) =
      stream.bytes.toList.take index ++ answer.byte?.toList := by
  -- Where the byte was added to the buffer, the buffer ended at its position.
  have hpush : ∀ {held : Bytes} {value : UInt8}, index = held.size →
      (held.push value).toList.take (index + 1) = held.toList.take index ++ [value] := by
    intro held value hend
    rw [hend, Array.toList_push, List.take_of_length_le (by simp),
      List.take_of_length_le (Nat.le_of_eq Array.length_toList)]
  cases h with
  | generated h =>
    cases h with
    | nothing => exact (List.append_nil _).symm
    | replayed _ _ hbyte =>
      rw [Answer.byte?, Option.toList_some, List.length_singleton, List.take_add_one]
      simp only [bytes, Array.getElem?_toList, hbyte, Option.toList_some]
    | fresh _ _ _ _ hend => exact hpush (Nat.le_antisymm hsize hend)
  | @seed input _ _ _ h =>
    cases h with
    | byte hplace hbytes =>
      rw [bytes, hbytes]
      exact hpush (hplace.trans input.requested_eq)
    | ended hbytes | unreadable hbytes | misplaced _ hbytes =>
      rw [bytes, hbytes]
      exact (List.append_nil _).symm

theorem Serves.isMisplaced_eq_false (h : stream.Serves index answer later)
    (hplace : index = stream.requested) : answer.isMisplaced = false := by
  cases h with
  | generated h => cases h <;> rfl
  | seed h => exact h.isMisplaced_eq_false hplace

end Stream

end Greybox
