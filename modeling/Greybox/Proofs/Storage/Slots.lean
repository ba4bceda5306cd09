import Greybox.Proofs.FileTree
import Greybox.Storage.Disk

namespace Greybox

namespace Decimal

theorem ofDigitChars_replicate_zero (count : Nat) :
    Nat.ofDigitChars 10 (List.replicate count '0') 0 = 0 := by
  induction count with
  | zero => rfl
  | succ count ih =>
    rw [List.replicate_succ, Nat.ofDigitChars_cons]
    exact ih

theorem ofDigitChars_padded (width n : Nat) :
    Nat.ofDigitChars 10 (padded width n).toList 0 = n := by
  rw [padded, String.toList_ofList, Nat.ofDigitChars_append, ofDigitChars_replicate_zero,
    Nat.ofDigitChars_ten_toDigits]

theorem padded_injective (width : Nat) : Function.Injective (padded width) := by
  intro n m h
  calc
    n = Nat.ofDigitChars 10 (padded width n).toList 0 := (ofDigitChars_padded width n).symm
    _ = Nat.ofDigitChars 10 (padded width m).toList 0 := by rw [h]
    _ = m := ofDigitChars_padded width m

theorem isDigit_of_mem_padded {width n : Nat} {c : Char} (h : c ∈ (padded width n).toList) :
    c.isDigit = true := by
  rw [padded, String.toList_ofList, List.mem_append] at h
  rcases h with hzero | hdigit
  · rw [List.eq_of_mem_replicate hzero]
    rfl
  · exact Nat.isDigit_of_mem_toDigits (by decide) (by decide) hdigit

end Decimal

namespace DiskStore

def trialName (trial : Nat) : String := "id_" ++ Decimal.padded 9 trial

theorem numbered_injective (width : Nat) :
    Function.Injective fun n => "id_" ++ Decimal.padded width n := by
  intro n m h
  have hlist := congrArg String.toList h
  simp only [String.toList_append, List.append_cancel_left_eq] at hlist
  exact Decimal.padded_injective width (String.toList_injective hlist)

theorem isName_numbered (width n : Nat) : IsName ("id_" ++ Decimal.padded width n) := by
  have hlist : ("id_" ++ Decimal.padded width n).toList =
      'i' :: 'd' :: '_' :: (Decimal.padded width n).toList := by
    rw [String.toList_append]
    rfl
  have hword : ∀ word : String, 'i' ∉ word.toList → "id_" ++ Decimal.padded width n ≠ word := by
    rintro word hword rfl
    rw [hlist] at hword
    exact hword List.mem_cons_self
  refine ⟨hword "" (by decide), hword "." (by decide), hword ".." (by decide), ?_⟩
  rw [hlist]
  simp only [List.mem_cons, not_or]
  refine ⟨by decide, by decide, by decide, fun hslash => ?_⟩
  exact absurd (Decimal.isDigit_of_mem_padded hslash) (by decide)

theorem slotName_injective : Function.Injective slotName := numbered_injective 6

theorem trialName_injective : Function.Injective trialName := numbered_injective 9

theorem isName_slotName (id : Nat) : IsName (slotName id) := isName_numbered 6 id

theorem isName_trialName (trial : Nat) : IsName (trialName trial) := isName_numbered 9 trial

end DiskStore

end Greybox
