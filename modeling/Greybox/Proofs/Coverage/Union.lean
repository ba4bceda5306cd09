import Greybox.Proofs.Coverage

namespace Greybox.Coverage

variable {map map' map'' run : Coverage} {runs runs' : List Coverage} {p : Nat}

def Within (map map' : Coverage) : Prop := ∀ p, map.get p ||| map'.get p = map'.get p

theorem Within.refl (map : Coverage) : map.Within map := fun _ => UInt8.or_self

theorem Within.trans (h : map.Within map') (h' : map'.Within map'') : map.Within map'' := by
  intro p
  rw [← h' p, ← UInt8.or_assoc, h p]

theorem Within.get_ne_zero (h : map.Within map') (hp : map.get p ≠ 0) : map'.get p ≠ 0 := by
  intro hzero
  have hor := h p
  rw [hzero, UInt8.or_zero] at hor
  exact hp hor

theorem within_merge (hsize : run.size = map.size) : map.Within (map.merge run).1 := by
  intro p
  rw [get_merge_of_size_eq hsize, ← UInt8.or_assoc, UInt8.or_self]

/-- The classes that the counts of a point fell into over some runs, one bit each. -/
def classes (runs : List Coverage) (p : Nat) : UInt8 :=
  runs.foldr (fun run seen => bucket (run.get p) ||| seen) 0

@[simp] theorem classes_nil (p : Nat) : classes [] p = 0 := rfl

@[simp] theorem classes_cons (run : Coverage) (runs : List Coverage) (p : Nat) :
    classes (run :: runs) p = bucket (run.get p) ||| classes runs p := rfl

theorem classes_append (runs runs' : List Coverage) (p : Nat) :
    classes (runs ++ runs') p = classes runs p ||| classes runs' p := by
  induction runs with
  | nil => simp
  | cons run runs ih => rw [List.cons_append, classes_cons, classes_cons, ih, UInt8.or_assoc]

theorem classes_eq_zero_iff : classes runs p = 0 ↔ ∀ run ∈ runs, run.get p = 0 := by
  induction runs with
  | nil => simp
  | cons run runs ih =>
    rw [classes_cons, UInt8.or_eq_zero_iff, bucket_eq_zero_iff, ih, List.forall_mem_cons]

theorem classes_perm (h : runs.Perm runs') (p : Nat) : classes runs p = classes runs' p := by
  apply h.foldr_eq'
  intro run _ run' _ seen
  rw [← UInt8.or_assoc, ← UInt8.or_assoc, UInt8.or_comm (bucket (run.get p))]

theorem bucket_or_classes (h : run ∈ runs) (p : Nat) :
    bucket (run.get p) ||| classes runs p = classes runs p := by
  induction h with
  | head runs => rw [classes_cons, ← UInt8.or_assoc, UInt8.or_self]
  | tail other h ih =>
    rw [classes_cons, ← UInt8.or_assoc, UInt8.or_comm (bucket (run.get p)), UInt8.or_assoc, ih]

theorem classes_or_classes (h : runs ⊆ runs') (p : Nat) :
    classes runs p ||| classes runs' p = classes runs' p := by
  induction runs with
  | nil => simp
  | cons run runs ih =>
    obtain ⟨hrun, hruns⟩ := List.cons_subset.1 h
    rw [classes_cons, UInt8.or_assoc, ih hruns, bucket_or_classes hrun]

end Greybox.Coverage
