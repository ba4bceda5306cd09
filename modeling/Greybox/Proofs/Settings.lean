import Greybox.Settings

namespace Greybox.Settings

variable {s : Settings}

theorem checkProbability_eq_ok_iff {name : String} {value : Float} :
    checkProbability name value = .ok () ↔ Random.IsProbability value := by
  rw [checkProbability]
  split <;> rename_i h
  · exact iff_of_true rfl h
  · exact iff_of_false nofun h

theorem checkMean_eq_ok_iff {name : String} {value : Float} :
    checkMean name value = .ok () ↔ (value.isNaN || value < 1) = false := by
  rw [checkMean]
  split <;> rename_i h
  · exact iff_of_false nofun fun hfalse => Bool.false_ne_true (hfalse.symm.trans h)
  · exact iff_of_true rfl (Bool.eq_false_iff.2 h)

theorem checkSize_eq_ok_iff {name : String} {value : Nat} :
    checkSize name value = .ok () ↔ 0 < value := by
  rw [checkSize]
  split <;> rename_i h
  · exact iff_of_false nofun (Nat.not_lt.2 (Nat.le_of_eq h))
  · exact iff_of_true rfl (Nat.pos_of_ne_zero h)

theorem bind_eq_ok_iff {ε α : Type} {first : Except ε Unit} {rest : Except ε α} {result : α} :
    (first >>= fun _ => rest) = .ok result ↔ first = .ok () ∧ rest = .ok result := by
  cases first with
  | error cause =>
    constructor
    · intro h
      cases h
    · rintro ⟨h, -⟩
      cases h
  | ok _ => exact ⟨fun h => ⟨rfl, h⟩, fun h => h.2⟩

theorem validate_eq_ok_iff : s.validate = .ok () ↔
    Random.IsProbability s.spliceProbability ∧ Random.IsProbability s.zeroFillProbability ∧
      (s.meanMutationCount.isNaN || s.meanMutationCount < 1) = false ∧
      (s.meanMutationSize.isNaN || s.meanMutationSize < 1) = false ∧
      0 < s.coverageMapSize ∧ 0 < s.maxInputSize := by
  simp only [validate, bind_eq_ok_iff, checkProbability_eq_ok_iff, checkMean_eq_ok_iff,
    checkSize_eq_ok_iff]

end Greybox.Settings
