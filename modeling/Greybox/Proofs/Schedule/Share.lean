import Greybox.Proofs.Schedule

namespace Greybox.PowerSchedule

variable {schedule : PowerSchedule} {input other : Input} {maxCoverage : Nat}

def Scales (input : Input) (maxCoverage : Nat) : Prop := 0 < maxCoverage ∧ input.isSeed = false

instance (input : Input) (maxCoverage : Nat) : Decidable (Scales input maxCoverage) :=
  inferInstanceAs (Decidable (_ ∧ _))

/-- The children that an input earns before it is favored, with products as large as they are. -/
def share (schedule : PowerSchedule) (input : Input) (maxCoverage : Nat) : Nat :=
  if Scales input maxCoverage then
    schedule.baseline * input.nonZeroCoverage.getD 0 / maxCoverage
  else schedule.baseline

def factor (schedule : PowerSchedule) (input : Input) : Nat :=
  if input.favored then schedule.favoredMultiplier else 1

/-- The children of the rule, as far as counts go. -/
def due (schedule : PowerSchedule) (input : Input) (maxCoverage : Nat) : Nat :=
  min maxChildren (schedule.share input maxCoverage * schedule.factor input)

/-- The share as it is granted: a scaled one is at most what the largest product leaves. -/
def granted (schedule : PowerSchedule) (input : Input) (maxCoverage : Nat) : Nat :=
  if Scales input maxCoverage then
    min (maxChildren / maxCoverage) (schedule.share input maxCoverage)
  else schedule.share input maxCoverage

theorem mulChildren_div (m n divisor : Nat) :
    mulChildren m n / divisor = min (maxChildren / divisor) (m * n / divisor) := by
  rw [mulChildren]
  obtain h | h := Nat.le_total maxChildren (m * n)
  · rw [Nat.min_eq_left h, Nat.min_eq_left (Nat.div_le_div_right h)]
  · rw [Nat.min_eq_right h, Nat.min_eq_right (Nat.div_le_div_right h)]

theorem share_of_scales (h : Scales input maxCoverage) : schedule.share input maxCoverage =
    schedule.baseline * input.nonZeroCoverage.getD 0 / maxCoverage := if_pos h

theorem share_of_not_scales (h : ¬ Scales input maxCoverage) :
    schedule.share input maxCoverage = schedule.baseline := if_neg h

theorem share_eq_baseline (hbest : input.nonZeroCoverage.getD 0 = maxCoverage) :
    schedule.share input maxCoverage = schedule.baseline := by
  by_cases h : Scales input maxCoverage
  · rw [share_of_scales h, hbest, Nat.mul_div_cancel _ h.1]
  · exact share_of_not_scales h

theorem granted_le_share (schedule : PowerSchedule) (input : Input) (maxCoverage : Nat) :
    schedule.granted input maxCoverage ≤ schedule.share input maxCoverage := by
  rw [granted]
  split
  · exact Nat.min_le_right _ _
  · exact Nat.le_refl _

theorem granted_le_maxChildren (hbaseline : schedule.baseline ≤ maxChildren) :
    schedule.granted input maxCoverage ≤ maxChildren := by
  rw [granted]
  split
  · exact Nat.le_trans (Nat.min_le_left _ _) (Nat.div_le_self _ _)
  · rwa [share_of_not_scales ‹_›]

theorem granted_mono (schedule : PowerSchedule) (maxCoverage : Nat)
    (hseed : other.isSeed = input.isSeed)
    (hcovered : input.nonZeroCoverage.getD 0 ≤ other.nonZeroCoverage.getD 0) :
    schedule.granted input maxCoverage ≤ schedule.granted other maxCoverage := by
  have hscales : Scales other maxCoverage ↔ Scales input maxCoverage := by rw [Scales, Scales, hseed]
  by_cases h : Scales input maxCoverage
  · have h' := hscales.2 h
    rw [granted, granted, if_pos h, if_pos h', share_of_scales h, share_of_scales h']
    have hshare := Nat.div_le_div_right (c := maxCoverage)
      (Nat.mul_le_mul_left schedule.baseline hcovered)
    omega
  · have h' := mt hscales.1 h
    have hsame : schedule.granted input maxCoverage = schedule.granted other maxCoverage := by
      rw [granted, granted, if_neg h, if_neg h', share_of_not_scales h, share_of_not_scales h']
    exact Nat.le_of_eq hsame

theorem targetChildren_eq_granted (hbaseline : schedule.baseline ≤ maxChildren) (input : Input)
    (maxCoverage : Nat) : schedule.targetChildren input maxCoverage =
      min maxChildren (schedule.granted input maxCoverage * schedule.factor input) := by
  have hgranted : (if 0 < maxCoverage ∧ !input.isSeed then
      mulChildren schedule.baseline (input.nonZeroCoverage.getD 0) / maxCoverage
      else schedule.baseline) = schedule.granted input maxCoverage := by
    by_cases h : Scales input maxCoverage
    · have hscaled : 0 < maxCoverage ∧ !input.isSeed := ⟨h.1, by simp [h.2]⟩
      rw [if_pos hscaled, granted, if_pos h, share_of_scales h, mulChildren_div]
    · have hwhole : ¬ (0 < maxCoverage ∧ !input.isSeed) := by simpa [Scales] using h
      rw [if_neg hwhole, granted, if_neg h, share_of_not_scales h]
  rw [targetChildren, hgranted, factor]
  split
  · rfl
  · rw [Nat.mul_one, Nat.min_eq_right (granted_le_maxChildren hbaseline)]

theorem min_mul_eq_min_mul_iff {bound granted share factor : Nat} (h : granted ≤ share) :
    min bound (granted * factor) = min bound (share * factor) ↔
      granted = share ∨ factor = 0 ∨ bound ≤ granted * factor := by
  have hmul := Nat.mul_le_mul_right factor h
  constructor
  · intro heq
    by_cases hbound : bound ≤ granted * factor
    · exact .inr (.inr hbound)
    · have hsame : granted * factor = share * factor := by omega
      by_cases hfactor : factor = 0
      · exact .inr (.inl hfactor)
      · exact .inl (Nat.eq_of_mul_eq_mul_right (Nat.pos_of_ne_zero hfactor) hsame)
  · rintro (rfl | rfl | hbound)
    · rfl
    · simp
    · omega

theorem eq_due_iff_share (hbaseline : schedule.baseline ≤ maxChildren) (input : Input)
    (maxCoverage : Nat) :
    schedule.targetChildren input maxCoverage = schedule.due input maxCoverage ↔
      (Scales input maxCoverage →
        schedule.share input maxCoverage ≤ maxChildren / maxCoverage ∨
          schedule.factor input = 0 ∨
          maxChildren ≤ maxChildren / maxCoverage * schedule.factor input) := by
  rw [targetChildren_eq_granted hbaseline, due, min_mul_eq_min_mul_iff (granted_le_share ..)]
  by_cases h : Scales input maxCoverage
  · have hgranted : schedule.granted input maxCoverage =
        min (maxChildren / maxCoverage) (schedule.share input maxCoverage) := if_pos h
    rw [hgranted]
    obtain hfits | hcut := Nat.le_total (schedule.share input maxCoverage) (maxChildren / maxCoverage)
    · rw [Nat.min_eq_right hfits]
      exact iff_of_true (.inl rfl) fun _ => .inl hfits
    · rw [Nat.min_eq_left hcut]
      have hsame : maxChildren / maxCoverage = schedule.share input maxCoverage ↔
          schedule.share input maxCoverage ≤ maxChildren / maxCoverage :=
        ⟨fun heq => Nat.le_of_eq heq.symm, Nat.le_antisymm hcut⟩
      rw [hsame, imp_iff_right h]
  · have hgranted : schedule.granted input maxCoverage = schedule.share input maxCoverage := if_neg h
    exact iff_of_true (.inl hgranted) fun hscales => absurd hscales h

/-- The children granted to an input are those of the rule with its share cut to what the largest
product leaves, and never more than those of the rule. They are exactly these for seeds, while no
run hit a point, and for every other input whose share fits, whose multiplier is zero, or who gets
the largest count anyway. Without overflow the share always fits. An input that covers as much as
the best one earns the share of a seed, and more coverage never gives fewer children. -/
theorem targetChildren_eq_due_iff (hbaseline : schedule.baseline ≤ maxChildren) (input : Input)
    (maxCoverage : Nat) :
    let covered := input.nonZeroCoverage.getD 0
    let share := schedule.share input maxCoverage
    let factor := schedule.factor input
    let most := maxChildren / maxCoverage
    schedule.targetChildren input maxCoverage =
      min maxChildren ((if Scales input maxCoverage then min most share else share) * factor) ∧
    schedule.targetChildren input maxCoverage ≤ schedule.due input maxCoverage ∧
    (schedule.targetChildren input maxCoverage = schedule.due input maxCoverage ↔
      (Scales input maxCoverage → share ≤ most ∨ factor = 0 ∨ maxChildren ≤ most * factor)) ∧
    (schedule.baseline * covered ≤ maxChildren →
      schedule.targetChildren input maxCoverage = schedule.due input maxCoverage) ∧
    (covered = maxCoverage → share = schedule.baseline) ∧
    ∀ other, other.isSeed = input.isSeed → other.favored = input.favored →
      covered ≤ other.nonZeroCoverage.getD 0 →
        schedule.targetChildren input maxCoverage ≤ schedule.targetChildren other maxCoverage := by
  intro covered share factor most
  have htarget := targetChildren_eq_granted hbaseline input maxCoverage
  have hle : schedule.granted input maxCoverage ≤ share := granted_le_share schedule input maxCoverage
  have hiff := eq_due_iff_share hbaseline input maxCoverage
  refine ⟨htarget, ?_, hiff, ?_, share_eq_baseline, ?_⟩
  · rw [htarget, due]
    have hmul := Nat.mul_le_mul_right (schedule.factor input) hle
    change min _ _ ≤ min maxChildren (share * schedule.factor input)
    omega
  · intro hfits
    rw [hiff]
    intro hscales
    left
    change schedule.share input maxCoverage ≤ most
    rw [share_of_scales hscales]
    exact Nat.div_le_div_right hfits
  · intro other hseed hfavored hcovered
    rw [htarget, targetChildren_eq_granted hbaseline]
    have hfactor : schedule.factor other = schedule.factor input := by
      rw [PowerSchedule.factor, PowerSchedule.factor, hfavored]
    rw [hfactor]
    have hmul := Nat.mul_le_mul_right (schedule.factor input)
      (granted_mono schedule maxCoverage hseed hcovered)
    omega

/-- With a baseline of `2 ^ 63 - 1` the product with four points overflows: an input that covers as
much as the best one gets a quarter of the largest count, and not the baseline. -/
theorem targetChildren_eq_due_iff_overflowing :
    let schedule : PowerSchedule := ⟨9223372036854775807, 1⟩
    let best : Input :=
      { Input.ofGenerated (.fresh {} 0) "random" with nonZeroCoverage := some 4 }
    schedule.baseline ≤ maxChildren ∧ schedule.due best 4 = schedule.baseline ∧
      schedule.targetChildren best 4 = 4611686018427387903 ∧
      schedule.targetChildren best 4 ≠ schedule.due best 4 := by
  intro schedule best
  have hbaseline : schedule.baseline ≤ maxChildren := by decide
  obtain ⟨htarget, -, hiff, -⟩ := targetChildren_eq_due_iff hbaseline best 4
  refine ⟨hbaseline, by decide +kernel, htarget.trans (by decide +kernel), ?_⟩
  rw [ne_eq, hiff]
  decide +kernel

end Greybox.PowerSchedule
