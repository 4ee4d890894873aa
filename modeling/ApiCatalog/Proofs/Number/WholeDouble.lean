import ApiCatalog.Proofs.Number.Rounding

/-!
Whole numbers as doubles hold them. A whole number within the range goes over to the nearest one of
fifty-three significant binary digits, and those that have no more digits stay.
-/

namespace ApiCatalog.Number

/-- The nearest whole number of at most fifty-three significant binary digits; of two equally near
ones, the one whose significand is even. -/
def nearestWhole (n : Int) : Int :=
  n.sign * nearestQuanta n.natAbs 1

theorem log2_mul_two_pow {n : Nat} (nonzero : n ≠ 0) (width : Nat) :
    (n * 2 ^ width).log2 = n.log2 + width := by
  have wide : 2 ^ (n.log2 + width) ≤ n * 2 ^ width := by
    rw [Nat.pow_add]
    exact Nat.mul_le_mul_right _ (Nat.log2_self_le nonzero)
  have narrow : n * 2 ^ width < 2 ^ (n.log2 + width + 1) := by
    rw [Nat.add_right_comm, Nat.pow_add]
    exact Nat.mul_lt_mul_of_pos_right Nat.lt_log2_self (Nat.two_pow_pos width)
  have nonzeroToo : n * 2 ^ width ≠ 0 := Nat.mul_ne_zero nonzero (Nat.two_pow_pos width).ne'
  exact (Nat.log2_eq_iff nonzeroToo).mpr ⟨wide, narrow⟩

theorem fits_mul_two_pow {n : Nat} (short : n < 2 ^ 53) (width : Nat) : Fits (n * 2 ^ width) :=
  ⟨n, width, short, rfl⟩

theorem fits_of_le {n : Nat} (short : n ≤ 2 ^ 53) : Fits n := by
  by_cases less : n < 2 ^ 53
  · exact ⟨n, 0, less, (Nat.mul_one n).symm⟩
  · obtain rfl : n = 2 ^ 53 := by omega
    exact ⟨2 ^ 52, 1, by decide, rfl⟩

theorem nearestQuanta_mul_two_pow (n width : Nat) :
    nearestQuanta (n * 2 ^ width) 1 = nearestQuanta n 1 * 2 ^ width := by
  by_cases short : n < 2 ^ 53
  · rw [nearestQuanta_of_fits (fits_mul_two_pow short width),
      nearestQuanta_of_fits (fits_of_le short.le)]
  · have nonzero : n ≠ 0 := by
      rintro rfl
      exact short (by decide)
    have long : 53 ≤ n.log2 := (Nat.le_log2 nonzero).mpr (by omega)
    have scale : n.log2 + width - 52 = n.log2 - 52 + width := by omega
    rw [nearestQuanta_one, nearestQuanta_one, log2_mul_two_pow nonzero, scale, Nat.pow_add,
      roundQuotient_mul_mul _ _ (Nat.two_pow_pos width), Nat.mul_assoc]

theorem nearestQuanta_mul_unit (n : Nat) :
    nearestQuanta (n * unit) 1 = nearestQuanta n 1 * unit := by
  rw [unit_eq]
  generalize 1074 = width
  exact nearestQuanta_mul_two_pow n width

theorem unit_pos : 0 < unit := by
  rw [unit_eq]
  generalize 1074 = width
  exact Nat.two_pow_pos width

theorem fits_of_nearestQuanta {n : Nat} (same : nearestQuanta n 1 = n) : Fits n :=
  same ▸ fits_nearestQuanta n 1

theorem nearestWhole_eq_self_iff {n : Int} : nearestWhole n = n ↔ Fits n.natAbs := by
  constructor
  · intro same
    by_cases zero : n = 0
    · subst zero
      exact ⟨0, 0, by decide, rfl⟩
    · apply fits_of_nearestQuanta
      have sizes := congrArg Int.natAbs same
      rwa [nearestWhole, Int.natAbs_mul, Int.natAbs_sign_of_ne_zero zero, Int.natAbs_natCast,
        Nat.one_mul] at sizes
  · intro fits
    rw [nearestWhole, nearestQuanta_of_fits fits, Int.sign_mul_natAbs]

theorem two_pow_sub_one_le_overflowThreshold : 2 ^ 54 - 1 ≤ overflowThreshold := by
  rw [overflowThreshold_eq]
  generalize 970 = width
  exact Nat.le_mul_of_pos_right _ (Nat.two_pow_pos width)

namespace Double

theorem toInt?_finite_iff {negative : Bool} {magnitude : Magnitude} {n : Int} :
    (finite negative magnitude).toInt? = some n ↔
      ∃ whole, magnitude.quanta = whole * unit ∧ n = if negative then -(whole : Int) else whole := by
  have positive := unit_pos
  simp only [toInt?]
  generalize unit = step at *
  constructor
  · intro found
    split at found
    · rename_i divided
      refine ⟨magnitude.quanta / step, ?_, (Option.some.inj found).symm⟩
      exact (Nat.div_mul_cancel (Nat.dvd_of_mod_eq_zero divided)).symm
    · contradiction
  · rintro ⟨whole, quanta, rfl⟩
    rw [quanta, if_pos (Nat.mul_mod_left whole step), Nat.mul_div_left whole positive]

theorem signed_nearestQuanta {n : Int} {negative : Bool} (below : negative = true → n ≤ 0)
    (above : negative = false → 0 ≤ n) :
    (if negative = true then -(nearestQuanta n.natAbs 1 : Int) else nearestQuanta n.natAbs 1) =
      nearestWhole n := by
  rcases Int.lt_trichotomy n 0 with less | rfl | greater
  · have sign : negative = true := by
      by_contra positive
      have bound := above (Bool.eq_false_iff.mpr positive)
      omega
    rw [if_pos sign, nearestWhole, Int.sign_eq_neg_one_of_neg less, Int.neg_one_mul]
  · have zero : nearestQuanta 0 1 = 0 := nearestQuanta_eq_zero (by decide)
    simp [nearestWhole, zero]
  · have sign : negative ≠ true := by
      intro minus
      have bound := below minus
      omega
    rw [if_neg sign, nearestWhole, Int.sign_eq_one_of_pos greater, Int.one_mul]

theorem toInt?_ofQuanta {n : Int} {negative : Bool} (below : negative = true → n ≤ 0)
    (above : negative = false → 0 ≤ n) (inRange : n.natAbs < overflowThreshold) :
    (ofQuanta negative (n.natAbs * unit) 1).toInt? = some (nearestWhole n) := by
  rw [ofQuanta_of_range (nearestQuanta_lt_rangeEnd_iff.mpr inRange), toInt?_finite_iff]
  exact ⟨_, nearestQuanta_mul_unit n.natAbs, (signed_nearestQuanta below above).symm⟩

theorem exists_ofInt? {n : Int} (inRange : n.natAbs < overflowThreshold) :
    ∃ x, ofInt? n = some x ∧ x.toInt? = some (nearestWhole n) := by
  have within := nearestQuanta_lt_rangeEnd_iff.mpr inRange
  refine ⟨ofQuanta (decide (n < 0)) (n.natAbs * unit) 1, ?_, toInt?_ofQuanta ?_ ?_ inRange⟩
  · rw [ofInt?, Magnitude.ofQuanta?_of_range within, ofQuanta_of_range within, Option.map_some]
  · simp only [decide_eq_true_eq]
    omega
  · simp only [decide_eq_false_iff_not]
    omega

theorem of_toInt? {x : Double} {n : Int} (whole : x.toInt? = some n) :
    n.natAbs < overflowThreshold ∧ nearestWhole n = n := by
  cases x with
  | nan => contradiction
  | infinite negative => contradiction
  | finite negative magnitude =>
    obtain ⟨units, quanta, rfl⟩ := toInt?_finite_iff.mp whole
    have size : (if negative then -(units : Int) else units).natAbs = units := by
      cases negative <;> simp
    have kept : nearestQuanta (units * unit) 1 = units * unit :=
      nearestQuanta_of_fits (quanta ▸ magnitude.fits)
    rw [nearestWhole_eq_self_iff, size]
    constructor
    · rw [← nearestQuanta_lt_rangeEnd_iff, kept, ← quanta]
      exact magnitude.inRange
    · apply fits_of_nearestQuanta
      rw [nearestQuanta_mul_unit] at kept
      exact Nat.eq_of_mul_eq_mul_right unit_pos kept

end Double
end ApiCatalog.Number
