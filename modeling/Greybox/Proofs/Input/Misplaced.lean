import Greybox.Proofs.Input.Requests

namespace Greybox

def taken (answers : List Answer) : Nat :=
  (handedOut answers).length + answers.countP Answer.isMisplaced

theorem taken_append (answers more : List Answer) :
    taken (answers ++ more) = taken answers + taken more := by
  simp only [taken, handedOut_append, List.length_append, List.countP_append]
  omega

namespace SeedInput

variable {seed later : SeedInput} {index : Nat} {answer : Answer} {data : List UInt8}
  {answers : List Answer}

theorem Serves.unread_eq_drop (h : seed.Serves index answer later) :
    later.unread = seed.unread.drop (taken [answer]) := by
  cases h with
  | byte _ _ hdata | misplaced _ _ hdata =>
    rw [hdata]
    rfl
  | ended _ hdata hlater =>
    rw [hdata, hlater]
    rfl
  | unreadable _ hdata => exact hdata.symm

def withBytes (seed : SeedInput) (bytes : Bytes) : SeedInput :=
  { seed with bytes, requested := bytes.size, requested_eq := rfl }

/-- A request at any position is answered like the one in order, unless that one gets a byte: this
byte is then gone. -/
theorem next_eq_or_misplaced (seed : SeedInput) (index : Nat) :
    seed.next index = seed.next seed.requested ∨
      ∃ value source, seed.next index = (.failed (.outOfOrder seed.requested index),
          { seed with source }) ∧
        seed.next seed.requested = (.byte value,
          { seed with source }.withBytes (seed.bytes.push value)) := by
  by_cases hplace : index = seed.requested
  · exact .inl (congrArg seed.next hplace)
  · obtain ⟨origin, bytes, _, source, exhausted, rfl⟩ := seed
    cases exhausted with
    | true => exact .inl rfl
    | false =>
      cases source with
      | none => exact .inl rfl
      | some source =>
        simp only [next, read]
        rcases source.take with ⟨reason | _ | value, later⟩
        · exact .inl rfl
        · exact .inl rfl
        · exact .inr ⟨value, some later, if_neg hplace, by simp [withBytes]⟩

/-- The answers to so many requests that are each made for the next position. -/
def inOrder (seed : SeedInput) (count : Nat) : List Answer :=
  (inTurn (fun seed () => seed.next seed.requested) seed (List.replicate count ())).1

theorem inOrder_succ (seed : SeedInput) (count : Nat) :
    seed.inOrder (count + 1) =
      (seed.next seed.requested).1 :: (seed.next seed.requested).2.inOrder count := rfl

theorem next_withBytes (seed : SeedInput) (bytes : Bytes) :
    ∃ bytes', (seed.withBytes bytes).next bytes.size =
      ((seed.next seed.requested).1, (seed.next seed.requested).2.withBytes bytes') := by
  obtain ⟨origin, old, _, source, exhausted, rfl⟩ := seed
  cases exhausted with
  | true => exact ⟨bytes, rfl⟩
  | false =>
    cases source with
    | none => exact ⟨bytes, rfl⟩
    | some source =>
      simp only [next, read, withBytes]
      rcases source.take with ⟨reason | _ | value, later⟩
      · exact ⟨bytes, rfl⟩
      · exact ⟨bytes, rfl⟩
      · exact ⟨bytes.push value, by simp⟩

theorem inOrder_withBytes (seed : SeedInput) (bytes : Bytes) (count : Nat) :
    (seed.withBytes bytes).inOrder count = seed.inOrder count := by
  induction count generalizing seed bytes with
  | zero => rfl
  | succ count ih =>
    obtain ⟨bytes', hnext⟩ := seed.next_withBytes bytes
    have hnext : (seed.withBytes bytes).next (seed.withBytes bytes).requested = _ := hnext
    rw [inOrder_succ, inOrder_succ, hnext, ih]

theorem inOrder_of_unreadable {reason : String}
    (h : (seed.next index).1 = .failed (.unreadable reason)) :
    (seed.next index).2.bytes = seed.bytes ∧ ∀ count, seed.inOrder (count + 1) =
      .failed (.unreadable reason) :: (seed.next index).2.inOrder count := by
  obtain heq | ⟨value, source, hmisplaced, -⟩ := seed.next_eq_or_misplaced index
  · have hserves := seed.next_serves index
    rw [h] at hserves
    refine ⟨?_, ?_⟩
    · cases hserves with
      | unreadable hbytes => exact hbytes
    · intro count
      rw [inOrder_succ, ← heq, h]
  · rw [hmisplaced] at h
    cases h

theorem inOrder_of_misplaced {expected requested : Nat}
    (h : (seed.next index).1 = .failed (.outOfOrder expected requested)) :
    (seed.next index).2.bytes = seed.bytes ∧
      ∃ value, (seed.next seed.requested).1 = .byte value ∧ ∀ count,
        seed.inOrder (count + 1) = .byte value :: (seed.next index).2.inOrder count := by
  obtain heq | ⟨value, source, hmisplaced, hplaced⟩ := seed.next_eq_or_misplaced index
  · have hserves := seed.next_serves seed.requested
    rw [← heq, h] at hserves
    cases hserves with
    | misplaced hplace => exact absurd rfl hplace
  · rw [hmisplaced]
    refine ⟨rfl, value, congrArg Prod.fst hplaced, ?_⟩
    intro count
    rw [inOrder_succ, hplaced]
    exact congrArg (Answer.byte value :: ·) (inOrder_withBytes { seed with source } _ count)

/-- What the answers so far mean for the bytes of the seed and for the data of its source. -/
structure Accounts (data : List UInt8) (answers : List Answer) (seed : SeedInput) : Prop where
  bytes : seed.bytes.toList = handedOut answers
  unread : seed.unread = data.drop (taken answers)
  orderly : (∀ answer ∈ answers, answer.isMisplaced = false) →
    handedOut answers ++ seed.unread = data

theorem accounts_ofSource (origin : String) (source : ByteSource) :
    (ofSource origin source).Accounts source.data [] :=
  ⟨rfl, rfl, fun _ => rfl⟩

theorem Accounts.serves (h : seed.Accounts data answers) (hserves : seed.Serves index answer later) :
    later.Accounts data (answers ++ [answer]) := by
  constructor
  · rw [handedOut_append, handedOut_singleton, ← h.bytes]
    exact hserves.toList_bytes
  · rw [taken_append, hserves.unread_eq_drop, h.unread, List.drop_drop]
  · intro hall
    have hplaced := hall answer (List.mem_append_right _ List.mem_cons_self)
    rw [handedOut_append, handedOut_singleton, List.append_assoc, ← hserves.unread_eq hplaced]
    exact h.orderly fun other hother => hall other (List.mem_append_left _ hother)

theorem Accounts.getElem? {value : UInt8} (h : seed.Accounts data answers)
    (hanswer : (seed.next index).1 = .byte value) : data[taken answers]? = some value := by
  have hserves := seed.next_serves index
  rw [hanswer] at hserves
  cases hserves with
  | byte hplace hbytes hdata => rw [← List.head?_drop, ← h.unread, hdata, List.head?_cons]

theorem accounts_requests (origin : String) (source : ByteSource) (indices : List Nat) :
    (inTurn next (ofSource origin source) indices).2.Accounts source.data
      (inTurn next (ofSource origin source) indices).1 := by
  apply inTurn_induction (P := fun answers (seed : SeedInput) => seed.Accounts source.data answers)
  · intro answers seed index h
    exact h.serves (seed.next_serves index)
  · exact accounts_ofSource origin source

/-- Whatever was requested from a seed before, it holds the bytes that were handed out, and as long
as no request was misplaced these are the first data of its source. A request that meets a failing
read leaves what comes in order as it is. A misplaced request takes a byte away from it, and so
every later byte stands one place too early. -/
theorem requests_account_for_data (origin : String) (source : ByteSource) (indices : List Nat) :
    let answers := (inTurn next (ofSource origin source) indices).1
    let seed := (inTurn next (ofSource origin source) indices).2
    seed.bytes.toList = handedOut answers ∧ seed.requested = (handedOut answers).length ∧
    ((∀ answer ∈ answers, answer.isMisplaced = false) → handedOut answers <+: source.data) ∧
    ∀ index, let later := (seed.next index).2
      (∀ value, (seed.next index).1 = .byte value → source.data[taken answers]? = some value) ∧
      (∀ reason, (seed.next index).1 = .failed (.unreadable reason) →
        later.bytes = seed.bytes ∧ ∀ count,
          seed.inOrder (count + 1) = .failed (.unreadable reason) :: later.inOrder count) ∧
      (∀ expected requested, (seed.next index).1 = .failed (.outOfOrder expected requested) →
        later.bytes = seed.bytes ∧ ∃ value, source.data[taken answers]? = some value ∧
          ∀ count, seed.inOrder (count + 1) = .byte value :: later.inOrder count) := by
  intro answers seed
  have haccounts : seed.Accounts source.data answers := accounts_requests origin source indices
  refine ⟨haccounts.bytes, ?_, ?_, ?_⟩
  · rw [← haccounts.bytes, Array.length_toList, seed.requested_eq]
  · intro hall
    exact ⟨_, haccounts.orderly hall⟩
  · intro index later
    refine ⟨fun value => haccounts.getElem?, fun reason => inOrder_of_unreadable, ?_⟩
    intro expected requested hmisplaced
    obtain ⟨hbytes, value, hvalue, hlater⟩ := inOrder_of_misplaced hmisplaced
    exact ⟨hbytes, value, haccounts.getElem? hvalue, hlater⟩

/-- The second of three bytes is dropped by the misplaced request, and the third one takes its
place. -/
theorem requests_account_for_data_misplaced :
    let seed := (inTurn next (ofSource "mem" (.ofBytes #[1, 2, 3])) [0]).2
    (seed.next 5).1 = .failed (.outOfOrder 1 5) ∧
      ((seed.next 5).2.next 1).1 = .byte 3 ∧
      ∀ count, seed.inOrder (count + 1) = .byte 2 :: (seed.next 5).2.inOrder count := by
  intro seed
  have hmisplaced : (seed.next 5).1 = .failed (.outOfOrder 1 5) := by decide +kernel
  obtain ⟨-, -, -, hnext⟩ := requests_account_for_data "mem" (.ofBytes #[1, 2, 3]) [0]
  obtain ⟨-, -, hdropped⟩ := hnext 5
  obtain ⟨-, value, hvalue, hlater⟩ := hdropped 1 5 hmisplaced
  obtain rfl : 2 = value := Option.some.inj hvalue
  exact ⟨hmisplaced, by decide +kernel, hlater⟩

end SeedInput

end Greybox
