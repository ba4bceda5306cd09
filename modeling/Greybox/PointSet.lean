namespace Greybox

/-- Finite sets of points as strictly ascending lists, so that sets with the same members are
equal. -/
structure PointSet where
  toList : List Nat
  ascending : toList.Pairwise (· < ·)
  deriving DecidableEq

namespace PointSet

instance : EmptyCollection PointSet := ⟨⟨[], .nil⟩⟩

instance : Inhabited PointSet := ⟨∅⟩

instance : Membership Nat PointSet := ⟨fun s p => p ∈ s.toList⟩

instance (p : Nat) (s : PointSet) : Decidable (p ∈ s) :=
  inferInstanceAs (Decidable (p ∈ s.toList))

def size (s : PointSet) : Nat := s.toList.length

def isEmpty (s : PointSet) : Bool := s.toList.isEmpty

def below (bound : Nat) (keep : Nat → Bool) : PointSet :=
  ⟨(List.range bound).filter keep, List.pairwise_lt_range.filter _⟩

def erase (s : PointSet) (p : Nat) : PointSet :=
  ⟨s.toList.filter (· != p), s.ascending.filter _⟩

def mergeAscending : List Nat → List Nat → List Nat
  | [], ys => ys
  | xs, [] => xs
  | x :: xs, y :: ys =>
    if x < y then x :: mergeAscending xs (y :: ys)
    else if y < x then y :: mergeAscending (x :: xs) ys
    else x :: mergeAscending xs ys
termination_by xs ys => xs.length + ys.length

theorem mem_mergeAscending {p : Nat} {xs ys : List Nat} :
    p ∈ mergeAscending xs ys ↔ p ∈ xs ∨ p ∈ ys := by
  fun_induction mergeAscending xs ys with
  | case1 | case2 => simp
  | case3 x xs y ys h ih => simp only [List.mem_cons, ih, or_assoc]
  | case4 x xs y ys h h' ih => simp only [List.mem_cons, ih]; grind
  | case5 x xs y ys h h' ih =>
    obtain rfl : x = y := by omega
    simp only [List.mem_cons, ih]
    grind

theorem pairwise_mergeAscending {xs ys : List Nat} (hx : xs.Pairwise (· < ·))
    (hy : ys.Pairwise (· < ·)) : (mergeAscending xs ys).Pairwise (· < ·) := by
  fun_induction mergeAscending xs ys with
  | case1 | case2 => assumption
  | case3 x xs y ys h ih =>
    rw [List.pairwise_cons] at hx ⊢
    refine ⟨fun z hz => ?_, ih hx.2 hy⟩
    rw [List.pairwise_cons] at hy
    rcases mem_mergeAscending.1 hz with hz | hz
    · exact hx.1 z hz
    · rcases List.mem_cons.1 hz with rfl | hz
      · exact h
      · exact Nat.lt_trans h (hy.1 z hz)
  | case4 x xs y ys h h' ih =>
    rw [List.pairwise_cons] at hy ⊢
    refine ⟨fun z hz => ?_, ih hx hy.2⟩
    rw [List.pairwise_cons] at hx
    rcases mem_mergeAscending.1 hz with hz | hz
    · rcases List.mem_cons.1 hz with rfl | hz
      · exact h'
      · exact Nat.lt_trans h' (hx.1 z hz)
    · exact hy.1 z hz
  | case5 x xs y ys h h' ih =>
    obtain rfl : x = y := by omega
    rw [List.pairwise_cons] at hx hy ⊢
    refine ⟨fun z hz => ?_, ih hx.2 hy.2⟩
    exact (mem_mergeAscending.1 hz).elim (hx.1 z) (hy.1 z)

instance : Union PointSet :=
  ⟨fun s t => ⟨mergeAscending s.toList t.toList, pairwise_mergeAscending s.ascending t.ascending⟩⟩

def insert (s : PointSet) (p : Nat) : PointSet := ⟨[p], by simp⟩ ∪ s

def ofList (ps : List Nat) : PointSet := ps.foldl insert ∅

@[simp] theorem not_mem_empty (p : Nat) : p ∉ (∅ : PointSet) := List.not_mem_nil

@[simp] theorem mem_below {bound p : Nat} {keep : Nat → Bool} :
    p ∈ below bound keep ↔ p < bound ∧ keep p = true := by
  change p ∈ (List.range bound).filter keep ↔ _
  simp

@[simp] theorem mem_erase {s : PointSet} {p q : Nat} : q ∈ s.erase p ↔ q ∈ s ∧ q ≠ p := by
  change q ∈ s.toList.filter (· != p) ↔ q ∈ s.toList ∧ _
  simp

@[simp] theorem mem_union {s t : PointSet} {p : Nat} : p ∈ s ∪ t ↔ p ∈ s ∨ p ∈ t :=
  mem_mergeAscending

@[simp] theorem mem_insert {s : PointSet} {p q : Nat} : q ∈ s.insert p ↔ q = p ∨ q ∈ s :=
  mem_union.trans (or_congr (List.mem_singleton) Iff.rfl)

@[simp] theorem mem_ofList {ps : List Nat} {p : Nat} : p ∈ ofList ps ↔ p ∈ ps := by
  suffices ∀ s : PointSet, p ∈ ps.foldl insert s ↔ p ∈ s ∨ p ∈ ps by
    simpa [ofList] using this ∅
  induction ps with
  | nil => simp
  | cons q ps ih => intro s; simp only [List.foldl_cons, ih, mem_insert, List.mem_cons]; grind

theorem isEmpty_iff {s : PointSet} : s.isEmpty = true ↔ ∀ p, p ∉ s :=
  List.isEmpty_iff.trans List.eq_nil_iff_forall_not_mem

theorem eq_empty_iff {s : PointSet} : s = ∅ ↔ ∀ p, p ∉ s := by
  rw [← isEmpty_iff]
  constructor
  · rintro rfl
    rfl
  · intro h
    obtain ⟨ps, hps⟩ := s
    obtain rfl : ps = [] := List.isEmpty_iff.1 h
    rfl

end PointSet

end Greybox
