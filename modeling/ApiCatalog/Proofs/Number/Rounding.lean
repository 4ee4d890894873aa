import ApiCatalog.Proofs.Number.DoubleRange

/-!
Rounding of decimals. The double of a decimal depends on its value alone: the settled cases agree
with rounding, and final zeros may go over to the exponent. What fits a double rounds to itself.
-/

namespace ApiCatalog.Number

theorem roundQuotient_mul_mul (num den : Nat) {scale : Nat} (positive : 0 < scale) :
    roundQuotient (num * scale) (den * scale) = roundQuotient num den := by
  have less : 2 * (num % den * scale) < den * scale ↔ 2 * (num % den) < den := by
    rw [← Nat.mul_assoc, Nat.mul_lt_mul_right positive]
  have tied : 2 * (num % den * scale) = den * scale ↔ 2 * (num % den) = den := by
    rw [← Nat.mul_assoc, Nat.mul_left_inj positive.ne']
  unfold roundQuotient
  rw [Nat.mul_div_mul_right num den positive, Nat.mul_mod_mul_right]
  simp only [less, tied]

theorem nearestQuanta_mul_mul (num den : Nat) {scale : Nat} (positive : 0 < scale) :
    nearestQuanta (num * scale) (den * scale) = nearestQuanta num den := by
  unfold nearestQuanta
  simp only [Nat.mul_div_mul_right num den positive, Nat.mul_right_comm den scale]
  rw [roundQuotient_mul_mul num _ positive]

theorem nearestQuanta_eq_of_mul_eq {num den num' den' : Nat} (positive : 0 < den)
    (positiveToo : 0 < den') (same : num * den' = num' * den) :
    nearestQuanta num den = nearestQuanta num' den' := by
  rw [← nearestQuanta_mul_mul num den positiveToo, ← nearestQuanta_mul_mul num' den' positive,
    same, Nat.mul_comm den]

theorem roundQuotient_eq_zero {num den : Nat} (small : 2 * num < den) :
    roundQuotient num den = 0 := by
  have below : num < den := by omega
  rw [roundQuotient, Nat.mod_eq_of_lt below, Nat.div_eq_of_lt below, if_pos (Or.inl small)]

theorem nearestQuanta_eq_zero {num den : Nat} (small : 2 * num < den) :
    nearestQuanta num den = 0 := by
  have below : num < den := by omega
  rw [nearestQuanta, Nat.div_eq_of_lt below]
  simp [roundQuotient_eq_zero small]

theorem roundQuotient_mul_left (num : Nat) {den : Nat} (positive : 0 < den) :
    roundQuotient (num * den) den = num := by
  rw [roundQuotient, Nat.mul_mod_left, Nat.mul_div_left num positive,
    if_pos (Or.inl (by simpa using positive))]

theorem two_pow_dvd_of_fits {quanta : Nat} (fits : Fits quanta) :
    2 ^ (quanta.log2 - 52) ∣ quanta := by
  obtain ⟨significand, scale, small, rfl⟩ := fits
  by_cases wide : 52 < (significand * Nat.pow 2 scale).log2
  · have nonzero : significand * Nat.pow 2 scale ≠ 0 := by
      intro zero
      rw [zero] at wide
      simp at wide
    have large := Nat.log2_self_le nonzero
    have bound : significand * Nat.pow 2 scale < 2 ^ (53 + scale) := by
      rw [Nat.pow_add]
      exact Nat.mul_lt_mul_of_pos_right small (Nat.two_pow_pos scale)
    have narrow := (Nat.pow_lt_pow_iff_right (by decide)).mp (large.trans_lt bound)
    exact (Nat.pow_dvd_pow 2 (by omega)).trans (Nat.dvd_mul_left _ _)
  · rw [Nat.sub_eq_zero_of_le (by omega)]
    exact Nat.one_dvd _

theorem nearestQuanta_of_fits {quanta : Nat} (fits : Fits quanta) :
    nearestQuanta quanta 1 = quanta := by
  obtain ⟨significand, whole⟩ := two_pow_dvd_of_fits fits
  have positive : 0 < 2 ^ (quanta.log2 - 52) := Nat.two_pow_pos _
  rw [nearestQuanta_one]
  generalize 2 ^ (quanta.log2 - 52) = step at *
  rw [whole, Nat.mul_comm step, roundQuotient_mul_left significand positive]

def decimalQuotient (digits : Nat) (exponent : Int) : Nat × Nat :=
  if 0 ≤ exponent then (digits * 10 ^ exponent.toNat * unit, 1)
  else (digits * unit, 10 ^ (-exponent).toNat)

theorem decimalQuotient_pos (digits : Nat) (exponent : Int) :
    0 < (decimalQuotient digits exponent).2 := by
  unfold decimalQuotient
  split
  · exact Nat.one_pos
  · exact Nat.pow_pos (by decide)

theorem decimalQuotient_mul_pow {digits shift : Nat} {exponent : Int}
    (enough : 0 ≤ exponent + shift) :
    (decimalQuotient digits exponent).1 * 10 ^ shift =
      digits * 10 ^ (exponent + shift).toNat * unit * (decimalQuotient digits exponent).2 := by
  unfold decimalQuotient
  split
  · rename_i positive
    have whole : (exponent + shift).toNat = exponent.toNat + shift := by omega
    rw [whole, Nat.pow_add, Nat.mul_one]
    generalize unit = quanta
    ring
  · rename_i negative
    have whole : shift = (exponent + shift).toNat + (-exponent).toNat := by omega
    generalize (exponent + shift).toNat = moved at *
    rw [whole, Nat.pow_add]
    generalize unit = quanta
    ring

theorem Magnitude.ofQuanta?_of_range {num den : Nat} (inRange : nearestQuanta num den < rangeEnd) :
    Magnitude.ofQuanta? num den =
      some ⟨nearestQuanta num den, fits_nearestQuanta num den, inRange⟩ :=
  dif_pos inRange

theorem Magnitude.ofQuanta?_beyond {num den : Nat} (beyond : ¬ nearestQuanta num den < rangeEnd) :
    Magnitude.ofQuanta? num den = none :=
  dif_neg beyond

namespace Double

theorem ofQuanta_of_range {negative : Bool} {num den : Nat}
    (inRange : nearestQuanta num den < rangeEnd) : ofQuanta negative num den =
      .finite negative ⟨nearestQuanta num den, fits_nearestQuanta num den, inRange⟩ := by
  have found := Magnitude.ofQuanta?_of_range inRange
  unfold ofQuanta
  split
  · rename_i magnitude same
    cases found.symm.trans same
    rfl
  · rename_i none
    cases found.symm.trans none

theorem ofQuanta_beyond {negative : Bool} {num den : Nat}
    (beyond : ¬ nearestQuanta num den < rangeEnd) :
    ofQuanta negative num den = .infinite negative := by
  have found := Magnitude.ofQuanta?_beyond beyond
  unfold ofQuanta
  split
  · rename_i magnitude same
    cases found.symm.trans same
  · rfl

theorem ofQuanta_congr {negative : Bool} {num den num' den' : Nat}
    (same : nearestQuanta num den = nearestQuanta num' den') :
    ofQuanta negative num den = ofQuanta negative num' den' := by
  by_cases inRange : nearestQuanta num den < rangeEnd
  · have inRangeToo : nearestQuanta num' den' < rangeEnd := same ▸ inRange
    rw [ofQuanta_of_range inRange, ofQuanta_of_range inRangeToo]
    simp only [same]
  · rw [ofQuanta_beyond inRange, ofQuanta_beyond (same ▸ inRange)]

theorem ofQuanta_eq_finite_iff {negative : Bool} {num den : Nat} {magnitude : Magnitude} :
    ofQuanta negative num den = .finite negative magnitude ↔
      nearestQuanta num den = magnitude.quanta := by
  obtain ⟨quanta, fits, inRange⟩ := magnitude
  by_cases inside : nearestQuanta num den < rangeEnd
  · simp [ofQuanta_of_range inside]
  · rw [ofQuanta_beyond inside]
    simp only [reduceCtorEq, false_iff]
    rintro rfl
    exact inside inRange

theorem ofQuanta_eq_zero {negative : Bool} {num den : Nat} (small : 2 * num < den) :
    ofQuanta negative num den = zero negative :=
  ofQuanta_eq_finite_iff.mpr (nearestQuanta_eq_zero small)

theorem ofQuanta_of_large {negative : Bool} {digits : Nat} (nonzero : digits ≠ 0) {exponent : Nat}
    (large : 310 ≤ exponent) : ofQuanta negative (digits * 10 ^ exponent * unit) 1 =
      .infinite negative := by
  refine ofQuanta_beyond ?_
  rw [nearestQuanta_lt_rangeEnd_iff, not_lt]
  calc overflowThreshold ≤ 2 ^ 1024 := overflowThreshold_le
    _ ≤ 2 ^ (205 * 5) := by gcongr <;> decide
    _ = (2 ^ 205) ^ 5 := Nat.pow_mul 2 205 5
    _ ≤ (10 ^ 62) ^ 5 := Nat.pow_le_pow_left (by decide) 5
    _ ≤ 10 ^ exponent := by rw [← Nat.pow_mul]; exact Nat.pow_le_pow_right (by decide) large
    _ ≤ digits * 10 ^ exponent := Nat.le_mul_of_pos_left _ (Nat.pos_of_ne_zero nonzero)

theorem ofQuanta_of_small {negative : Bool} {digits exponent : Nat}
    (small : digits.log2 + 1080 ≤ exponent) :
    ofQuanta negative (digits * unit) (10 ^ exponent) = zero negative := by
  have bound : digits.log2 + 1 + 1074 + 1 ≤ exponent := by omega
  refine ofQuanta_eq_zero ?_
  rw [unit_eq]
  generalize 1074 = width at *
  calc 2 * (digits * 2 ^ width) < 2 * (2 ^ (digits.log2 + 1) * 2 ^ width) := by
        refine Nat.mul_lt_mul_of_pos_left ?_ (by decide)
        exact Nat.mul_lt_mul_of_pos_right Nat.lt_log2_self (Nat.two_pow_pos width)
    _ = 2 ^ (digits.log2 + 1 + width + 1) := by ring
    _ ≤ 2 ^ exponent := Nat.pow_le_pow_right (by decide) bound
    _ ≤ 10 ^ exponent := Nat.pow_le_pow_left (by decide) exponent

/-- A decimal rounds to the nearest double, also where that is settled without rounding. -/
theorem ofDecimal_eq (negative : Bool) (digits : Nat) (exponent : Int) :
    ofDecimal negative digits exponent = ofQuanta negative (decimalQuotient digits exponent).1
      (decimalQuotient digits exponent).2 := by
  unfold ofDecimal
  split
  · rename_i nothing
    have small : 2 * (decimalQuotient digits exponent).1 < (decimalQuotient digits exponent).2 := by
      have none : (decimalQuotient digits exponent).1 = 0 := by
        unfold decimalQuotient
        split <;> simp [nothing]
      rw [none]
      exact decimalQuotient_pos digits exponent
    exact (ofQuanta_eq_zero small).symm
  · rename_i nonzero
    split
    · rename_i large
      rw [decimalQuotient, if_pos (by omega)]
      exact (ofQuanta_of_large nonzero (by omega)).symm
    · split
      · rename_i small
        rw [decimalQuotient, if_neg (by omega)]
        exact (ofQuanta_of_small (by omega)).symm
      · rw [decimalQuotient]
        split <;> rfl

theorem ofDecimal_congr {digits digits' shift : Nat} {exponent exponent' : Int}
    (enough : 0 ≤ exponent + shift) (enoughToo : 0 ≤ exponent' + shift)
    (same : digits * 10 ^ (exponent + shift).toNat = digits' * 10 ^ (exponent' + shift).toNat)
    (negative : Bool) :
    ofDecimal negative digits exponent = ofDecimal negative digits' exponent' := by
  rw [ofDecimal_eq, ofDecimal_eq]
  refine ofQuanta_congr (nearestQuanta_eq_of_mul_eq (decimalQuotient_pos _ _)
    (decimalQuotient_pos _ _) ?_)
  have first := @decimalQuotient_mul_pow digits _ _ enough
  have second := @decimalQuotient_mul_pow digits' _ _ enoughToo
  have positive : 0 < 10 ^ shift := Nat.pow_pos (by decide)
  generalize decimalQuotient digits exponent = a at *
  generalize decimalQuotient digits' exponent' = b at *
  refine Nat.eq_of_mul_eq_mul_right positive ?_
  calc a.1 * b.2 * 10 ^ shift = a.1 * 10 ^ shift * b.2 := by ring
    _ = b.1 * 10 ^ shift * a.2 := by rw [first, second, same]; ring
    _ = b.1 * a.2 * 10 ^ shift := by ring

theorem ofDecimal_mul_pow (negative : Bool) (digits zeros : Nat) (exponent : Int) :
    ofDecimal negative (digits * 10 ^ zeros) exponent =
      ofDecimal negative digits (exponent + zeros) := by
  refine @ofDecimal_congr _ _ exponent.natAbs _ _ (by omega) (by omega) ?_ negative
  have whole : (exponent + zeros + exponent.natAbs).toNat =
      zeros + (exponent + exponent.natAbs).toNat := by omega
  rw [whole, Nat.pow_add, Nat.mul_assoc]

theorem ofDecimal_eq_finite_iff {negative : Bool} {digits : Nat} {exponent : Int}
    {magnitude : Magnitude} : ofDecimal negative digits exponent = .finite negative magnitude ↔
      nearestQuanta (decimalQuotient digits exponent).1 (decimalQuotient digits exponent).2 =
        magnitude.quanta := by
  rw [ofDecimal_eq, ofQuanta_eq_finite_iff]

end Double
end ApiCatalog.Number
