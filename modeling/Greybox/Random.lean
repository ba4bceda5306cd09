namespace Greybox

/-- A stream of 32-bit words. Every draw states how many words it takes, so that a session is
determined by its stream. -/
class WordSource (ρ : Type) where
  word : ρ → UInt32 × ρ

namespace Random

variable {ρ : Type} [WordSource ρ]

def word32 (g : ρ) : UInt32 × ρ := WordSource.word g

def word64 (g : ρ) : UInt64 × ρ :=
  let (low, g) := word32 g
  let (high, g) := word32 g
  ((high.toUInt64 <<< 32) ||| low.toUInt64, g)

def byte (g : ρ) : UInt8 × ρ :=
  let (w, g) := word32 g
  (w.toUInt8, g)

/-- A multiple of `2⁻⁵³` in `[0, 1)`, from two words. -/
def unit (g : ρ) : Float × ρ :=
  let (w, g) := word64 g
  ((w >>> 11).toFloat / 9007199254740992, g)

def IsProbability (p : Float) : Prop := 0 ≤ p ∧ p ≤ 1

instance (p : Float) : Decidable (IsProbability p) := inferInstanceAs (Decidable (_ ∧ _))

/-- True with probability `p`: certainty takes no word, any other probability takes two. There is
no answer for a number that is no probability. -/
def chance (p : Float) (g : ρ) : Option (Bool × ρ) :=
  if p == 1 then some (true, g)
  else if IsProbability p then
    let (w, g) := word64 g
    some (w < (p * 18446744073709551616).toUInt64, g)
  else none

/-- Scales a draw below `range` to `0, …, n - 1`. The high half of the product is the result; when
the low half leaves it in doubt, a second draw decides whether to round up. -/
def scaled {ρ : Type} (range : Nat) (draw : ρ → Nat × ρ) (n : Nat) (g : ρ) : Nat × ρ :=
  let (w, g) := draw g
  let high := w * n / range
  let low := w * n % range
  if low ≤ (range - n) % range then (high, g)
  else
    let (w, g) := draw g
    (if low + w * n / range < range then high else high + 1, g)

/-- A number below `n`, which is positive: from words while `n` itself fits one, else from
double words. -/
def below (n : Nat) (g : ρ) : Nat × ρ :=
  if n < UInt32.size then scaled UInt32.size (fun g => let (w, g) := word32 g; (w.toNat, g)) n g
  else scaled UInt64.size (fun g => let (w, g) := word64 g; (w.toNat, g)) n g

omit [WordSource ρ] in
theorem scaled_lt {range n : Nat} {draw : ρ → Nat × ρ} (hdraw : ∀ g, (draw g).1 < range)
    (hn : 0 < n) (g : ρ) : (scaled range draw n g).1 < n := by
  have hbound : ∀ g, (draw g).1 * n / range < n := fun g =>
    Nat.div_lt_of_lt_mul (Nat.mul_lt_mul_of_pos_right (hdraw g) hn)
  unfold scaled
  simp only
  split
  · exact hbound g
  · split
    · exact hbound g
    · rename_i h
      have hdiv := Nat.div_add_mod ((draw g).1 * n) (range)
      have hnext := hbound (draw g).2
      have hword : ((draw g).1 + 1) * n ≤ range * n := Nat.mul_le_mul_right n (hdraw g)
      rw [Nat.add_mul] at hword
      have hlow : range ≤
          (draw g).1 * n % range + (draw (draw g).2).1 * n / range := Nat.not_lt.1 h
      have : range * ((draw g).1 * n / range + 1) < range * n := by
        rw [Nat.mul_add]; omega
      exact Nat.lt_of_mul_lt_mul_left this

theorem below_lt {n : Nat} (hn : 0 < n) (g : ρ) : (below n g).1 < n := by
  unfold below
  split
  · exact scaled_lt (fun g => (word32 g).1.toNat_lt) hn g
  · exact scaled_lt (fun g => (word64 g).1.toNat_lt) hn g

end Random

end Greybox
