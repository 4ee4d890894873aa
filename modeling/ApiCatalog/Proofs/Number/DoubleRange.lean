import ApiCatalog.Number.Double
import Mathlib.Tactic.Linarith
import Mathlib.Tactic.Ring

/-!
The range of doubles. A whole number is beyond it from half a step below `2 ^ 1024` on, where
numbers round up to that power.
-/

namespace ApiCatalog.Number

/-- A quotient rounds to less than an even number if it is less than halfway to it from the last
number below, since a tie goes to the even one. -/
theorem roundQuotient_lt_iff {num den half : Nat} (positive : 0 < den) :
    roundQuotient num den < 2 * half + 2 ↔ 2 * num < (4 * half + 3) * den := by
  have whole := Nat.div_add_mod num den
  have below := Nat.mod_lt num positive
  unfold roundQuotient
  generalize num / den = q at *
  generalize num % den = r at *
  have scaled : (4 * half + 3) * den = 4 * (den * half) + 3 * den := by ring
  rcases Nat.lt_trichotomy q (2 * half + 1) with less | rfl | more
  · have bound : den * q ≤ den * (2 * half) := Nat.mul_le_mul_left den (by omega)
    have same : den * (2 * half) = 2 * (den * half) := by ring
    split <;> omega
  · have same : den * (2 * half + 1) = 2 * (den * half) + den := by ring
    split <;> omega
  · have bound : den * (2 * half + 2) ≤ den * q := Nat.mul_le_mul_left den (by omega)
    have same : den * (2 * half + 2) = 2 * (den * half) + 2 * den := by ring
    split <;> omega

theorem le_roundQuotient (num den : Nat) : num / den ≤ roundQuotient num den := by
  unfold roundQuotient
  split <;> omega

theorem nearestQuanta_one (num : Nat) :
    nearestQuanta num 1 =
      roundQuotient num (2 ^ (num.log2 - 52)) * 2 ^ (num.log2 - 52) := by
  simp [nearestQuanta]

theorem nearestQuanta_lt_iff {num scale : Nat} (positive : 0 < scale) :
    nearestQuanta num 1 < 2 ^ (scale + 53) ↔ 2 * num < (4 * (2 ^ 52 - 1) + 3) * 2 ^ scale := by
  have unitPos : 0 < 2 ^ scale := Nat.two_pow_pos scale
  have wide : 2 ^ (scale + 53) = 2 ^ 53 * 2 ^ scale := by rw [Nat.pow_add, Nat.mul_comm]
  rw [nearestQuanta_one, wide]
  rcases Nat.lt_trichotomy num.log2 (scale + 52) with narrow | exact | broad
  · have finer : 2 * 2 ^ (num.log2 - 52) ≤ 2 ^ scale := by
      rw [← Nat.pow_succ']
      exact Nat.pow_le_pow_right (by decide) (by omega)
    have few : num < 2 ^ 53 * 2 ^ (num.log2 - 52) := by
      rw [← Nat.pow_add]
      exact Nat.lt_log2_self.trans_le (Nat.pow_le_pow_right (by decide) (by omega))
    have rounded : roundQuotient num (2 ^ (num.log2 - 52)) ≤ 2 ^ 53 :=
      (roundQuotient_le num _).trans (Nat.div_lt_of_lt_mul (Nat.mul_comm _ _ ▸ few))
    have least := Nat.mul_le_mul_right (2 ^ (num.log2 - 52)) rounded
    exact iff_of_true (by omega) (by omega)
  · have same : num.log2 - 52 = scale := by omega
    rw [same, Nat.mul_lt_mul_right unitPos]
    exact @roundQuotient_lt_iff num _ (2 ^ 52 - 1) unitPos
  · have nonzero : num ≠ 0 := by
      rintro rfl
      simp at broad
    have large : 2 ^ 52 * 2 ^ (num.log2 - 52) ≤ num := by
      rw [← Nat.pow_add, Nat.add_sub_cancel' (by omega)]
      exact Nat.log2_self_le nonzero
    have coarser : 2 * 2 ^ scale ≤ 2 ^ (num.log2 - 52) := by
      rw [← Nat.pow_succ']
      exact Nat.pow_le_pow_right (by decide) (by omega)
    have rounded : 2 ^ 52 ≤ roundQuotient num (2 ^ (num.log2 - 52)) :=
      ((Nat.le_div_iff_mul_le (Nat.two_pow_pos _)).mpr large).trans (le_roundQuotient num _)
    have most := Nat.mul_le_mul_right (2 ^ (num.log2 - 52)) rounded
    exact iff_of_false (by omega) (by omega)

theorem nearestQuanta_mul_two_pow_lt_iff {n fine coarse : Nat} :
    nearestQuanta (n * 2 ^ fine) 1 < 2 ^ (coarse + fine + 1 + 53) ↔
      n < (2 ^ 54 - 1) * 2 ^ coarse := by
  have positive : 0 < 2 ^ fine := Nat.two_pow_pos fine
  have scaled : (4 * (2 ^ 52 - 1) + 3) * 2 ^ (coarse + fine + 1) =
      2 * ((2 ^ 54 - 1) * 2 ^ coarse * 2 ^ fine) := by
    ring
  rw [nearestQuanta_lt_iff (Nat.succ_pos _), scaled, Nat.mul_lt_mul_left (by decide),
    Nat.mul_lt_mul_right positive]

theorem rangeEnd_eq {width : Nat} (same : rangeWidth = width) : rangeEnd = 2 ^ width := by
  unfold rangeEnd
  rw [same]
  rfl

theorem unit_eq : unit = 2 ^ 1074 := by
  unfold unit
  generalize 1074 = width
  rfl

/-- The least whole number that rounds to `2 ^ 1024`. -/
def overflowThreshold : Nat := 2 ^ 1024 - 2 ^ 970

theorem overflowThreshold_eq : overflowThreshold = (2 ^ 54 - 1) * 2 ^ 970 := by
  rw [overflowThreshold, Nat.sub_mul, Nat.one_mul, ← Nat.pow_add]

theorem overflowThreshold_le : overflowThreshold ≤ 2 ^ 1024 :=
  Nat.sub_le _ _

theorem le_overflowThreshold : 2 ^ 53 ≤ overflowThreshold := by
  have whole : 0 < 2 ^ 970 := by positivity
  calc 2 ^ 53 ≤ (2 ^ 54 - 1) * 1 := by decide
    _ ≤ (2 ^ 54 - 1) * 2 ^ 970 := Nat.mul_le_mul_left _ whole
    _ = overflowThreshold := overflowThreshold_eq.symm

theorem nearestQuanta_lt_rangeEnd_iff {n : Nat} :
    nearestQuanta (n * unit) 1 < rangeEnd ↔ n < overflowThreshold := by
  have wide : rangeWidth = 970 + 1074 + 1 + 53 := rfl
  rw [rangeEnd_eq wide, unit_eq, overflowThreshold_eq]
  exact nearestQuanta_mul_two_pow_lt_iff

theorem Double.ofInt?_eq_none_iff {n : Int} :
    Double.ofInt? n = none ↔ overflowThreshold ≤ n.natAbs := by
  rw [← not_lt, ← nearestQuanta_lt_rangeEnd_iff]
  unfold Double.ofInt? Magnitude.ofQuanta?
  split
  · rename_i inRange
    simp [inRange]
  · rename_i beyond
    simp [beyond]

end ApiCatalog.Number
