import Mathlib.Data.List.Count
import Greybox.Proofs.Target.Trace
import Greybox.Target.Demo

namespace Greybox.Demo

open Target (trace)

variable {bytes rest matched later : List UInt8} {b expected length : UInt8} {left : Nat}

def checksum (bytes : List UInt8) : UInt8 := bytes.foldl (· ^^^ ·) 0

theorem trace_body (sum : UInt8) (bytes rest : List UInt8) :
    (body sum bytes.length).trace (bytes ++ rest) = ⟨.valid, bytes.length,
      bytes.map (64 + ·.toNat) ++ [320 + (bytes.foldl (· ^^^ ·) sum % 32).toNat]⟩ := by
  induction bytes generalizing sum with
  | nil => cases rest <;> rfl
  | cons b bytes ih =>
    simp only [List.cons_append, List.length_cons, body, trace, ih, List.map_cons, List.foldl_cons]

theorem trace_body_short (sum : UInt8) (h : bytes.length < left) :
    ((body sum left).trace bytes).status = .invalid ∧
      ((body sum left).trace bytes).pulled = bytes.length := by
  induction bytes generalizing sum left with
  | nil =>
    obtain ⟨left, rfl⟩ := Nat.exists_eq_succ_of_ne_zero (Nat.ne_zero_of_lt h)
    exact ⟨rfl, rfl⟩
  | cons b bytes ih =>
    obtain ⟨left, rfl⟩ := Nat.exists_eq_succ_of_ne_zero (Nat.ne_zero_of_lt h)
    obtain ⟨hstatus, hpulled⟩ := ih (sum ^^^ b) (Nat.lt_of_succ_lt_succ h)
    exact ⟨hstatus, congrArg (· + 1) hpulled⟩

theorem trace_header (depth : Nat) (expected rest : List UInt8) :
    let trace := payload.trace rest
    (header depth expected).trace (expected ++ rest) = ⟨trace.status,
      trace.pulled + expected.length, List.range' depth expected.length ++ trace.hits⟩ := by
  induction expected generalizing depth with
  | nil => rfl
  | cons b expected ih =>
    simp only [List.cons_append, header, trace, ↓reduceIte, ih, List.length_cons, Nat.add_assoc,
      List.range'_succ]

theorem trace_header_wrong (depth : Nat) (hne : b ≠ expected) (matched later rest : List UInt8) :
    ((header depth (matched ++ expected :: later)).trace (matched ++ b :: rest)).status = .invalid ∧
      ((header depth (matched ++ expected :: later)).trace (matched ++ b :: rest)).pulled =
        matched.length + 1 := by
  induction matched generalizing depth with
  | nil => simp [header, trace, hne]
  | cons value matched ih => simpa [header, trace] using ih (depth + 1)

theorem trace_header_short (depth : Nat) (bytes : List UInt8) (expected : UInt8) (later : List UInt8) :
    ((header depth (bytes ++ expected :: later)).trace bytes).status = .invalid ∧
      ((header depth (bytes ++ expected :: later)).trace bytes).pulled = bytes.length := by
  induction bytes generalizing depth with
  | nil => simp [header, trace]
  | cons value bytes ih => simpa [header, trace] using ih (depth + 1)

/-- The input has the magic header, this length, and a body of that length at least. -/
structure Accepted (bytes : List UInt8) (length : UInt8) : Prop where
  header : magic ++ [length] <+: bytes
  unreserved : length ≠ 0xff
  room : 5 + length.toNat ≤ bytes.length

structure WrongAt (bytes : List UInt8) (position : Nat) : Prop where
  lt : position < magic.length
  matched : bytes.take position = magic.take position
  wrong : ∃ b, bytes[position]? = some b ∧ b ≠ magic[position]

def bodyOf (length : UInt8) (bytes : List UInt8) : List UInt8 := (bytes.drop 5).take length.toNat

def hits (length : UInt8) (bytes : List UInt8) : List Nat :=
  List.range 4 ++ (32 + (length % 16).toNat) ::
    (bytes.map (64 + ·.toNat) ++ [320 + (checksum bytes % 32).toNat])

theorem trace_accepted (h : Accepted bytes length) :
    target.trace bytes = ⟨.valid, 5 + length.toNat, hits length (bodyOf length bytes)⟩ := by
  obtain ⟨⟨rest, rfl⟩, hunreserved, hroom⟩ := h
  have hbody : bodyOf length (magic ++ [length] ++ rest) = rest.take length.toNat := rfl
  have hlength : (rest.take length.toNat).length = length.toNat := by
    simp only [List.length_append, magic, List.length_cons, List.length_nil] at hroom
    rw [List.length_take]
    omega
  have hpayload : payload.trace (length :: rest) = ⟨.valid, length.toNat + 1,
      (32 + (length % 16).toNat) :: ((rest.take length.toNat).map (64 + ·.toNat) ++
        [320 + (checksum (rest.take length.toNat) % 32).toNat])⟩ := by
    have hrest := trace_body 0 (rest.take length.toNat) (rest.drop length.toNat)
    rw [hlength, List.take_append_drop] at hrest
    simp only [payload, trace, if_neg hunreserved, hrest]
    rfl
  have hpulled : length.toNat + 1 + magic.length = 5 + length.toNat := Nat.add_comm (length.toNat) 5
  rw [hbody, List.append_assoc, List.singleton_append, target, trace_header, hpayload, hpulled]
  rfl

theorem trace_reserved (h : magic ++ [0xff] <+: bytes) :
    (target.trace bytes).status = .crash "length byte 0xFF is reserved" ∧
      (target.trace bytes).pulled = 5 := by
  obtain ⟨rest, rfl⟩ := h
  rw [List.append_assoc, target, trace_header]
  exact ⟨rfl, rfl⟩

theorem wrongAt_of_append {value : UInt8} (hmagic : magic = matched ++ value :: later)
    (hne : b ≠ value) (rest : List UInt8) : WrongAt (matched ++ b :: rest) matched.length := by
  have hlt : matched.length < magic.length := by
    rw [hmagic, List.length_append]
    simp
  have hvalue : magic[matched.length] = value := by simp [hmagic]
  refine ⟨hlt, ?_, b, by simp, hvalue ▸ hne⟩
  rw [hmagic, List.take_left', List.take_left'] <;> rfl

theorem trace_wrong {position : Nat} (h : WrongAt bytes position) :
    (target.trace bytes).status = .invalid ∧ (target.trace bytes).pulled = position + 1 := by
  obtain ⟨hlt, hmatched, b, hb, hne⟩ := h
  obtain ⟨hposition, rfl⟩ := List.getElem?_eq_some_iff.1 hb
  have hmagic : magic = magic.take position ++ magic[position] :: magic.drop (position + 1) := by
    rw [List.getElem_cons_drop, List.take_append_drop]
  have hbytes : bytes = magic.take position ++ bytes[position] :: bytes.drop (position + 1) := by
    rw [← hmatched, List.getElem_cons_drop, List.take_append_drop]
  have hlength : (magic.take position).length = position := List.length_take_of_le (Nat.le_of_lt hlt)
  have htrace := trace_header_wrong 0 hne (magic.take position) (magic.drop (position + 1))
    (bytes.drop (position + 1))
  rwa [← hmagic, ← hbytes, hlength] at htrace

theorem starts_or_differs (expected bytes : List UInt8) : expected <+: bytes ∨
    (∃ matched value later b rest, expected = matched ++ value :: later ∧
      bytes = matched ++ b :: rest ∧ b ≠ value) ∨
    ∃ value later, expected = bytes ++ value :: later := by
  induction expected generalizing bytes with
  | nil => exact .inl List.nil_prefix
  | cons value expected ih =>
    cases bytes with
    | nil => exact .inr (.inr ⟨value, expected, rfl⟩)
    | cons b bytes =>
      by_cases hne : b = value
      · subst value
        rcases ih bytes with hprefix | ⟨matched, value, later, other, rest, rfl, rfl, hne⟩ |
          ⟨value, later, rfl⟩
        · exact .inl ((List.prefix_cons_inj b).2 hprefix)
        · exact .inr (.inl ⟨b :: matched, value, later, other, rest, rfl, rfl, hne⟩)
        · exact .inr (.inr ⟨value, later, rfl⟩)
      · exact .inr (.inl ⟨[], value, expected, b, bytes, rfl, rfl, hne⟩)

theorem trace_other (haccepted : ∀ length, ¬ Accepted bytes length)
    (hreserved : ¬ magic ++ [0xff] <+: bytes) (hwrong : ∀ position, ¬ WrongAt bytes position) :
    (target.trace bytes).status = .invalid ∧ (target.trace bytes).pulled = bytes.length := by
  rcases starts_or_differs magic bytes with ⟨rest, rfl⟩ |
    ⟨matched, value, later, b, rest, hmagic, rfl, hne⟩ | ⟨value, later, hmagic⟩
  · -- The header is complete, so the length is missing or the body is too short.
    rw [target, trace_header]
    cases rest with
    | nil => exact ⟨rfl, rfl⟩
    | cons length rest =>
      have hunreserved : length ≠ 0xff := by
        rintro rfl
        exact hreserved ⟨rest, by simp⟩
      have hshort : rest.length < length.toNat := by
        by_contra henough
        refine haccepted length ⟨⟨rest, by simp⟩, hunreserved, ?_⟩
        simp only [List.length_append, magic, List.length_cons, List.length_nil]
        omega
      obtain ⟨hstatus, hpulled⟩ := trace_body_short 0 hshort
      simp only [payload, trace, if_neg hunreserved, hstatus, hpulled, List.length_append,
        List.length_cons]
      exact ⟨trivial, Nat.add_comm _ _⟩
  · exact absurd (wrongAt_of_append hmagic hne rest) (hwrong matched.length)
  · have htrace := trace_header_short 0 bytes value later
    rwa [← hmagic] at htrace

theorem status_trace (bytes : List UInt8) :
    ((target.trace bytes).status = .valid ↔ ∃ length, Accepted bytes length) ∧
    ((∃ message, (target.trace bytes).status = .crash message) ↔ magic ++ [0xff] <+: bytes) ∧
    ((target.trace bytes).status = .invalid ↔
      (∀ length, ¬ Accepted bytes length) ∧ ¬ magic ++ [0xff] <+: bytes) := by
  have hvalid : ∀ length, Accepted bytes length → (target.trace bytes).status = .valid :=
    fun length haccepted => congrArg Target.Trace.status (trace_accepted haccepted)
  have hcrash : magic ++ [0xff] <+: bytes →
      (target.trace bytes).status = .crash "length byte 0xFF is reserved" :=
    fun hreserved => (trace_reserved hreserved).1
  have hinvalid : (∀ length, ¬ Accepted bytes length) → ¬ magic ++ [0xff] <+: bytes →
      (target.trace bytes).status = .invalid := by
    intro haccepted hreserved
    by_cases hwrong : ∃ position, WrongAt bytes position
    · obtain ⟨position, hwrong⟩ := hwrong
      exact (trace_wrong hwrong).1
    · exact (trace_other haccepted hreserved (not_exists.1 hwrong)).1
  by_cases haccepted : ∃ length, Accepted bytes length
  · obtain ⟨length, haccepted⟩ := haccepted
    rw [hvalid length haccepted] at hcrash ⊢
    have hreserved : ¬ magic ++ [0xff] <+: bytes := fun hreserved => nomatch hcrash hreserved
    refine ⟨iff_of_true rfl ⟨length, haccepted⟩, iff_of_false (by simp) hreserved, ?_⟩
    exact iff_of_false nofun fun hnone => hnone.1 length haccepted
  · by_cases hreserved : magic ++ [0xff] <+: bytes
    · rw [hcrash hreserved]
      exact ⟨iff_of_false nofun haccepted, iff_of_true ⟨_, rfl⟩ hreserved,
        iff_of_false nofun fun hnone => hnone.2 hreserved⟩
    · rw [hinvalid (not_exists.1 haccepted) hreserved]
      exact ⟨iff_of_false nofun haccepted, iff_of_false (by simp) hreserved,
        iff_of_true rfl ⟨not_exists.1 haccepted, hreserved⟩⟩

/-- How often an accepted input with this length and body hits a point: each step of the header, the
class of the length and that of the checksum once, and the point of every byte of the body as often
as it occurs there. -/
def hitCount (length : UInt8) (bytes : List UInt8) (point : Nat) : Nat :=
  if point < 4 then 1
  else if point = 32 + length.toNat % 16 then 1
  else if 64 ≤ point ∧ point < 320 then bytes.count (.ofNat (point - 64))
  else if point = 320 + (checksum bytes).toNat % 32 then 1
  else 0

theorem count_bytePoints (bytes : List UInt8) (point : Nat) :
    (bytes.map (64 + ·.toNat)).count point =
      if 64 ≤ point ∧ point < 320 then bytes.count (.ofNat (point - 64)) else 0 := by
  split
  · have hinjective : Function.Injective fun b : UInt8 => 64 + b.toNat := fun b other heq =>
      UInt8.toNat_inj.1 (Nat.add_left_cancel heq)
    have hpoint : 64 + (UInt8.ofNat (point - 64)).toNat = point := by
      rw [UInt8.toNat_ofNat_of_lt' (show point - 64 < 256 by omega)]
      omega
    calc
      (bytes.map (64 + ·.toNat)).count point
        = (bytes.map (64 + ·.toNat)).count (64 + (UInt8.ofNat (point - 64)).toNat) := by rw [hpoint]
      _ = bytes.count (.ofNat (point - 64)) := List.count_map_of_injective _ _ hinjective _
  · rw [List.count_eq_zero]
    intro hmem
    obtain ⟨b, -, rfl⟩ := List.mem_map.1 hmem
    have hbound := b.toNat_lt
    omega

theorem count_hits (length : UInt8) (bytes : List UInt8) (point : Nat) :
    (hits length bytes).count point = hitCount length bytes point := by
  have hclass : (length % 16).toNat = length.toNat % 16 := UInt8.toNat_mod _ _
  have hsum : (checksum bytes % 32).toNat = (checksum bytes).toNat % 32 := UInt8.toNat_mod _ _
  rw [hits, List.count_append, List.count_cons, List.count_append, List.count_singleton,
    List.count_range, count_bytePoints, hclass, hsum, hitCount]
  simp only [beq_iff_eq]
  have := Nat.mod_lt length.toNat (show 0 < 16 by decide)
  have := Nat.mod_lt (checksum bytes).toNat (show 0 < 32 by decide)
  split_ifs <;> omega

theorem hitCount_le (length : UInt8) (bytes : List UInt8) (point : Nat) :
    hitCount length bytes point ≤ max 1 bytes.length := by
  have hcount := bytes.count_le_length (a := .ofNat (point - 64))
  rw [hitCount]
  split_ifs <;> omega

/-- The target accepts exactly its format, and reads no more of an accepted input than the length
says. It crashes on the reserved length, stops at the first wrong byte of the header, and reads
everything else to the end. The map of an accepted input has the hits of its header, its length, the
bytes of its body and their checksum, as far as it has room for their points. -/
theorem executes_format {source : ByteSource} (h : source.Reliable) (origin : String)
    (mapSize : Nat) :
    let bytes := source.data
    let input := (target.execute mapSize (.ofSeed (.ofSource origin source))).1
    let execution := (target.execute mapSize (.ofSeed (.ofSource origin source))).2
    ((execution.status = .valid ↔ ∃ length, Accepted bytes length) ∧
      ((∃ message, execution.status = .crash message) ↔ magic ++ [0xff] <+: bytes) ∧
      (execution.status = .invalid ↔
        (∀ length, ¬ Accepted bytes length) ∧ ¬ magic ++ [0xff] <+: bytes)) ∧
    ((∀ length, Accepted bytes length → input.requested = 5 + length.toNat) ∧
      (magic ++ [0xff] <+: bytes → input.requested = 5) ∧
      (∀ position, WrongAt bytes position → input.requested = position + 1) ∧
      (execution.status = .invalid → (∀ position, ¬ WrongAt bytes position) →
        input.requested = bytes.length)) ∧
    execution.coverage.size = mapSize ∧
    ∀ length, Accepted bytes length → ∀ point, (execution.coverage.get point).toNat =
      if point < mapSize then hitCount length (bodyOf length bytes) point else 0 := by
  intro bytes input execution
  obtain ⟨hexecution, hrequested⟩ := target.execute_trace mapSize h origin
  have hstatus : execution.status = (target.trace bytes).status := congrArg Execution.status hexecution
  have hcoverage : execution.coverage =
      (target.trace bytes).hits.foldl Coverage.recordHit (.zero mapSize) :=
    congrArg Execution.coverage hexecution
  have hsize : execution.coverage.size = mapSize := (target.execute_returns mapSize _).2
  change input.requested = (target.trace bytes).pulled at hrequested
  have hjudged := status_trace bytes
  rw [← hstatus] at hjudged
  refine ⟨hjudged, ⟨?_, ?_, ?_, ?_⟩, hsize, ?_⟩
  · intro length haccepted
    rw [hrequested, trace_accepted haccepted]
  · intro hreserved
    rw [hrequested, (trace_reserved hreserved).2]
  · intro position hwrong
    rw [hrequested, (trace_wrong hwrong).2]
  · intro hinvalid hright
    obtain ⟨haccepted, hreserved⟩ := hjudged.2.2.1 hinvalid
    rw [hrequested, (trace_other haccepted hreserved hright).2]
  · intro length haccepted point
    split
    · rename_i hroom
      have hcount := hitCount_le length (bodyOf length bytes) point
      have hbody : (bodyOf length bytes).length ≤ length.toNat := List.length_take_le _ _
      have hlength := length.toNat_lt
      rw [hcoverage, trace_accepted haccepted,
        Coverage.toNat_get_foldl_recordHit (by simpa using hroom), Coverage.get_zero, count_hits]
      simp only [UInt8.toNat_zero, Nat.zero_add]
      omega
    · rw [Coverage.get_of_size_le (hsize.symm ▸ Nat.not_lt.1 ‹_›)]
      rfl

theorem executes_format_builtinSeed :
    let execution := target.execute 324 (.ofSeed (.ofSource "built-in" (.ofBytes builtinSeed)))
    (ByteSource.ofBytes builtinSeed).Reliable ∧ execution.2.status = .valid ∧
      execution.1.requested = 9 ∧ (execution.2.coverage.get 161).toNat = 1 ∧
      (execution.2.coverage.get 324).toNat = 0 := by
  intro execution
  have hreliable := ByteSource.reliable_ofBytes builtinSeed
  have haccepted : Accepted (ByteSource.ofBytes builtinSeed).data 4 :=
    ⟨by decide +kernel, by decide, by decide +kernel⟩
  obtain ⟨⟨hvalid, -⟩, ⟨hrequested, -⟩, -, hhits⟩ := executes_format hreliable "built-in" 324
  have hmiddle := hhits 4 haccepted 161
  have hbeyond := hhits 4 haccepted 324
  exact ⟨hreliable, hvalid.2 ⟨4, haccepted⟩, hrequested 4 haccepted,
    hmiddle.trans (by decide +kernel), hbeyond.trans (by decide +kernel)⟩

end Greybox.Demo
