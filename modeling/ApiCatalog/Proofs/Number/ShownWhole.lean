import ApiCatalog.Proofs.Number.DecimalText
import ApiCatalog.Proofs.Number.WholeDouble

/-!
Doubles that are whole, as texts. They are written with a point, or with an exponent that has a plus
sign, since a minus sign would make them less than one.
-/

namespace ApiCatalog.Number

theorem nearestQuanta_le (num den : Nat) : nearestQuanta num den ≤ 2 * (num / den) + 1 := by
  have step : 2 ^ ((num / den).log2 - 52) ≤ num / den + 1 := by
    by_cases zero : num / den = 0
    · simp [zero]
    · calc 2 ^ ((num / den).log2 - 52) ≤ 2 ^ (num / den).log2 :=
            Nat.pow_le_pow_right (by decide) (Nat.sub_le _ _)
        _ ≤ num / den := Nat.log2_self_le zero
        _ ≤ num / den + 1 := Nat.le_succ _
  have rounded := roundQuotient_le num (den * 2 ^ ((num / den).log2 - 52))
  rw [← Nat.div_div_eq_div_mul] at rounded
  have scaled := Nat.mul_le_mul_right (2 ^ ((num / den).log2 - 52)) rounded
  have floor := Nat.div_mul_le_self (num / den) (2 ^ ((num / den).log2 - 52))
  rw [Nat.add_mul, Nat.one_mul] at scaled
  calc nearestQuanta num den ≤
        num / den / 2 ^ ((num / den).log2 - 52) * 2 ^ ((num / den).log2 - 52) +
          2 ^ ((num / den).log2 - 52) := scaled
    _ ≤ 2 * (num / den) + 1 := by omega

theorem one_lt_unit : 1 < unit := by
  have positive : 1074 ≠ 0 := by decide
  rw [unit_eq]
  generalize 1074 = width at *
  exact Nat.one_lt_two_pow positive

theorem Decimal.Denotes.neg_one_le_leading {d : Decimal} {magnitude : Magnitude}
    (denotes : d.Denotes magnitude) (large : unit ≤ magnitude.quanta) :
    -1 ≤ ((digitsOf d.digits).length : Int) - 1 + d.exponent := by
  by_contra small
  have few : d.digits < 10 ^ (digitsOf d.digits).length :=
    (length_digitsOf_le_iff (List.length_pos_iff.mpr (digitsOf_ne_nil _))).mp (Nat.le_refl _)
  have places : (digitsOf d.digits).length + 1 ≤ (-d.exponent).toNat := by omega
  have value := Double.ofDecimal_eq_finite_iff.mp (denotes false)
  rw [decimalQuotient, if_neg (by omega)] at value
  have bound := nearestQuanta_le (d.digits * unit) (10 ^ (-d.exponent).toNat)
  have positive : 0 < 10 ^ (-d.exponent).toNat := Nat.pow_pos (by decide)
  have tenth : d.digits * unit / 10 ^ (-d.exponent).toNat ≤ unit / 10 := by
    rw [Nat.le_div_iff_mul_le (by decide)]
    refine Nat.le_of_mul_le_mul_right ?_ positive
    calc d.digits * unit / 10 ^ (-d.exponent).toNat * 10 * 10 ^ (-d.exponent).toNat =
          d.digits * unit / 10 ^ (-d.exponent).toNat * 10 ^ (-d.exponent).toNat * 10 :=
            Nat.mul_right_comm _ _ _
      _ ≤ d.digits * unit * 10 := Nat.mul_le_mul_right _ (Nat.div_mul_le_self _ _)
      _ = unit * (d.digits * 10) := by
            generalize unit = step
            ring
      _ ≤ unit * 10 ^ ((digitsOf d.digits).length + 1) := by
            refine Nat.mul_le_mul_left _ ?_
            rw [Nat.pow_succ]
            exact Nat.mul_le_mul_right _ few.le
      _ ≤ unit * 10 ^ (-d.exponent).toNat :=
            Nat.mul_le_mul_left _ (Nat.pow_le_pow_right (by decide) places)
  have more := one_lt_unit
  rw [value] at bound
  omega

theorem DecimalLayout.mem_place {layout : DecimalLayout} (lowest : layout.lowest < 0)
    (limit : 0 ≤ layout.limit) {d : Decimal}
    (leading : -1 ≤ ((digitsOf d.digits).length : Int) - 1 + d.exponent) :
    '.' ∈ layout.place d ∨ '+' ∈ layout.place d := by
  unfold DecimalLayout.place
  generalize digitsOf d.digits = digits at *
  simp only
  split
  · left
    split
    · simp
    · split <;> simp
  · have above : ¬ (digits.length : Int) - 1 + d.exponent < 0 := by omega
    right
    rw [DecimalLayout.exponentText, if_neg above]
    simp

theorem DecimalLayout.mem_text_of_toInt? {layout : DecimalLayout} (lowest : layout.lowest < 0)
    (limit : 0 ≤ layout.limit) {x : Double} {n : Int} (whole : x.toInt? = some n) :
    '.' ∈ layout.text x ∨ '+' ∈ layout.text x := by
  cases x with
  | nan => contradiction
  | infinite negative => contradiction
  | finite negative magnitude =>
    obtain ⟨units, quanta, -⟩ := Double.toInt?_finite_iff.mp whole
    rw [DecimalLayout.text]
    by_cases zero : magnitude.quanta = 0
    · rw [if_pos zero]
      simp
    · have large : unit ≤ magnitude.quanta := by
        rw [quanta]
        refine Nat.le_mul_of_pos_left _ (Nat.pos_of_ne_zero ?_)
        rintro rfl
        exact zero (by rw [quanta, Nat.zero_mul])
      have leading := (denotes_shortest magnitude).neg_one_le_leading large
      rw [if_neg zero]
      exact (layout.mem_place lowest limit leading).imp
        (List.mem_append_right _) (List.mem_append_right _)

end ApiCatalog.Number
