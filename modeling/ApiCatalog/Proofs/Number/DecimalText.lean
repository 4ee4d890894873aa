import ApiCatalog.Number.Decimal
import ApiCatalog.Number.Literal
import ApiCatalog.Proofs.Number.Rounding

/-!
The decimal text of a double. The shortest digits read back as the double that they stand for, and
however a layout places them, the text is a literal of the same value.
-/

namespace ApiCatalog.Number

theorem digitsOf_ne_nil (n : Nat) : digitsOf n ≠ [] :=
  Nat.toDigits_ne_nil

theorem length_digitsOf_le_iff {n limit : Nat} (positive : 0 < limit) :
    (digitsOf n).length ≤ limit ↔ n < 10 ^ limit :=
  Nat.length_toDigits_le_iff (by decide) positive

theorem digitsOf_eq_cons {n : Nat} (nonzero : n ≠ 0) :
    ∃ first more, digitsOf n = first :: more ∧ first ≠ '0' := by
  induction n using Nat.strongRecOn with
  | ind n inner =>
    unfold digitsOf
    by_cases small : n < 10
    · rw [Nat.toDigits_of_lt_base small]
      have unlike : ∀ n < 10, n ≠ 0 → n.digitChar ≠ '0' := by decide
      exact ⟨_, _, rfl, unlike n small nonzero⟩
    · rw [Nat.toDigits_of_base_le (by decide) (by omega)]
      obtain ⟨first, more, digits, unlike⟩ := inner (n / 10) (by omega) (by omega)
      unfold digitsOf at digits
      exact ⟨first, more ++ [(n % 10).digitChar], by rw [digits, List.cons_append], unlike⟩

theorem ofDigits_append (front back : List Char) :
    ofDigits (front ++ back) = ofDigits front * 10 ^ back.length + ofDigits back := by
  unfold ofDigits
  rw [Nat.ofDigitChars_append, Nat.ofDigitChars_eq_ofDigitChars_zero, Nat.mul_comm]

theorem ofDigits_replicate_zero (zeros : Nat) : ofDigits (List.replicate zeros '0') = 0 := by
  simp [ofDigits]

theorem ofDigits_zero_cons (digits : List Char) : ofDigits ('0' :: digits) = ofDigits digits := by
  simp [ofDigits, Nat.ofDigitChars_cons]

theorem ofDigits_replicate_append (zeros : Nat) (digits : List Char) :
    ofDigits (List.replicate zeros '0' ++ digits) = ofDigits digits := by
  rw [ofDigits_append, ofDigits_replicate_zero, Nat.zero_mul, Nat.zero_add]

theorem ofDigits_append_replicate (digits : List Char) (zeros : Nat) :
    ofDigits (digits ++ List.replicate zeros '0') = ofDigits digits * 10 ^ zeros := by
  rw [ofDigits_append, ofDigits_replicate_zero, List.length_replicate, Nat.add_zero]

theorem ofDigits_paddedDigits (width n : Nat) : ofDigits (paddedDigits width n) = n := by
  rw [paddedDigits, ofDigits_replicate_append, ofDigits_digitsOf]

theorem isDigit_of_mem_paddedDigits {width n : Nat} {c : Char}
    (member : c ∈ paddedDigits width n) : c.isDigit = true := by
  rcases List.mem_append.mp member with zero | digit
  · rw [List.eq_of_mem_replicate zero]
    rfl
  · exact isDigit_of_mem_digitsOf digit

theorem paddedDigits_ne_nil (width n : Nat) : paddedDigits width n ≠ [] := by
  simp [paddedDigits, digitsOf_ne_nil]

theorem zero_eq_finite (negative : Bool) {magnitude : Magnitude} (zero : magnitude.quanta = 0) :
    Double.zero negative = .finite negative magnitude := by
  obtain ⟨quanta, fits, inRange⟩ := magnitude
  cases zero
  rfl

namespace Decimal

/-- Digits that stand for a magnitude under both signs. -/
def Denotes (d : Decimal) (magnitude : Magnitude) : Prop :=
  ∀ negative, Double.ofDecimal negative d.digits d.exponent = .finite negative magnitude

theorem Denotes.digits_ne_zero {d : Decimal} {magnitude : Magnitude} (denotes : d.Denotes magnitude)
    (nonzero : magnitude.quanta ≠ 0) : d.digits ≠ 0 := by
  intro nothing
  have found := denotes false
  rw [nothing, Double.ofDecimal, if_pos rfl, Double.zero] at found
  injection found with _ same
  exact nonzero (congrArg Magnitude.quanta same).symm

theorem denotes_of_readsAs {magnitude : Magnitude} {d : Decimal}
    (reads : d.readsAs magnitude = true) : d.Denotes magnitude := by
  intro negative
  have found := beq_iff_eq.mp reads
  rw [Double.ofDecimal_eq_finite_iff] at found ⊢
  exact found

theorem denotes_of_same {d d' : Decimal} {magnitude : Magnitude} (denotes : d.Denotes magnitude)
    (same : ∀ negative, Double.ofDecimal negative d'.digits d'.exponent =
      Double.ofDecimal negative d.digits d.exponent) : d'.Denotes magnitude :=
  fun negative => (same negative).trans (denotes negative)

theorem ofDecimal_trim (negative : Bool) (fuel : Nat) (d : Decimal) :
    Double.ofDecimal negative (d.trim fuel).digits (d.trim fuel).exponent =
      Double.ofDecimal negative d.digits d.exponent := by
  induction fuel generalizing d with
  | zero => rfl
  | succ fuel inner =>
    unfold Decimal.trim
    split
    · rename_i final
      rw [inner]
      have whole : d.digits / 10 * 10 ^ 1 = d.digits := by omega
      calc Double.ofDecimal negative (d.digits / 10) (d.exponent + 1) =
          Double.ofDecimal negative (d.digits / 10 * 10 ^ 1) d.exponent :=
            (Double.ofDecimal_mul_pow negative (d.digits / 10) 1 d.exponent).symm
        _ = Double.ofDecimal negative d.digits d.exponent := by rw [whole]
    · rfl

end Decimal

theorem denotes_of_nearestOnGrid {magnitude : Magnitude} {exponent : Int} {d : Decimal}
    (found : nearestOnGrid magnitude exponent = some d) : d.Denotes magnitude := by
  refine Decimal.denotes_of_readsAs ?_
  unfold nearestOnGrid at found
  extract_lets num den low high nearest at found
  clear_value num den low high nearest
  split at found
  · rename_i reads
    exact Option.some.inj found ▸ reads
  · split at found
    · rename_i reads
      exact Option.some.inj found ▸ reads
    · split at found
      · rename_i reads
        exact Option.some.inj found ▸ reads
      · contradiction

theorem denotes_exact {width : Nat} (positive : 0 < width) (quantum : unit = 2 ^ width)
    (magnitude : Magnitude) :
    Decimal.Denotes ⟨magnitude.quanta * Nat.pow 5 width, -(width : Int)⟩ magnitude := by
  intro negative
  have below : ¬ (0 : Int) ≤ -(width : Int) := by omega
  have places : (- -(width : Int)).toNat = width := by omega
  have whole := nearestQuanta_of_fits magnitude.fits
  rw [Double.ofDecimal_eq_finite_iff, decimalQuotient, if_neg below, ← whole]
  refine nearestQuanta_eq_of_mul_eq (Nat.pow_pos (by decide)) Nat.one_pos ?_
  rw [quantum, whole, places]
  calc magnitude.quanta * 5 ^ width * 2 ^ width * 1 = magnitude.quanta * (5 * 2) ^ width := by
        rw [Nat.mul_one, Nat.mul_assoc, Nat.mul_pow]
    _ = magnitude.quanta * 10 ^ width := rfl

theorem denotes_shortest (magnitude : Magnitude) : (shortest magnitude).Denotes magnitude := by
  unfold shortest
  simp only
  split
  · rename_i d found
    obtain ⟨more, -, onGrid⟩ := List.exists_of_findSome?_eq_some found
    exact Decimal.denotes_of_same (denotes_of_nearestOnGrid onGrid)
      fun negative => Decimal.ofDecimal_trim negative 20 d
  · exact denotes_exact (by decide) unit_eq magnitude

structure Literal where
  whole : List Char
  fraction : List Char
  exponent : Option Int

namespace Literal

def exponentPart (layout : DecimalLayout) : Option Int → List Char
  | none => []
  | some exponent => 'e' :: layout.exponentText exponent

def tail (layout : DecimalLayout) (literal : Literal) : List Char :=
  (if literal.fraction.isEmpty then [] else '.' :: literal.fraction) ++
    exponentPart layout literal.exponent

def text (layout : DecimalLayout) (literal : Literal) : List Char :=
  literal.whole ++ literal.tail layout

/-- Digits only, with no zero before other digits of the whole part, and something that tells the
literal from a whole number. -/
structure WellFormed (literal : Literal) : Prop where
  whole : ∀ c ∈ literal.whole, c.isDigit = true
  fraction : ∀ c ∈ literal.fraction, c.isDigit = true
  leading : literal.whole = ['0'] ∨ ∃ first more, literal.whole = first :: more ∧ first ≠ '0'
  inexact : literal.fraction ≠ [] ∨ literal.exponent ≠ none

def value (negative : Bool) (literal : Literal) : Double :=
  Double.ofDecimal negative (ofDigits (literal.whole ++ literal.fraction))
    (literal.exponent.getD 0 - literal.fraction.length)

end Literal

theorem Literal.wellFormed_split {d : Decimal} (nonzero : d.digits ≠ 0) (count : Nat)
    {exponent : Option Int}
    (inexact : (digitsOf d.digits).drop (count + 1) ≠ [] ∨ exponent ≠ none) :
    Literal.WellFormed
      ⟨(digitsOf d.digits).take (count + 1), (digitsOf d.digits).drop (count + 1), exponent⟩ := by
  obtain ⟨first, more, cut, unlike⟩ := digitsOf_eq_cons nonzero
  refine ⟨fun c member => isDigit_of_mem_digitsOf (List.mem_of_mem_take member),
    fun c member => isDigit_of_mem_digitsOf (List.mem_of_mem_drop member), .inr ?_, inexact⟩
  exact ⟨first, more.take count, by rw [cut, List.take_succ_cons], unlike⟩

def DecimalLayout.Spells (layout : DecimalLayout) (text : List Char) (d : Decimal) : Prop :=
  ∃ literal : Literal, text = literal.text layout ∧ literal.WellFormed ∧
    ∀ negative, literal.value negative = Double.ofDecimal negative d.digits d.exponent

section

variable (layout : DecimalLayout) {d : Decimal}

theorem DecimalLayout.spells_before {zeros : Nat}
    (places : d.exponent + (zeros + (digitsOf d.digits).length : Nat) = 0) :
    layout.Spells ('0' :: '.' :: (List.replicate zeros '0' ++ digitsOf d.digits)) d := by
  refine ⟨⟨['0'], List.replicate zeros '0' ++ digitsOf d.digits, none⟩, ?_,
    ⟨by simp, ?_, .inl rfl, .inl (by simp [digitsOf_ne_nil])⟩, ?_⟩
  · simp [Literal.text, Literal.tail, Literal.exponentPart, digitsOf_ne_nil]
  · intro c member
    rcases List.mem_append.mp member with zero | member
    · rw [List.eq_of_mem_replicate zero]
      rfl
    · exact isDigit_of_mem_digitsOf member
  · intro negative
    have behind : (0 : Int) - ((List.replicate zeros '0' ++ digitsOf d.digits).length : Nat) =
        d.exponent := by
      rw [List.length_append, List.length_replicate]
      omega
    simp only [Literal.value, List.singleton_append, ofDigits_zero_cons, ofDigits_replicate_append,
      ofDigits_digitsOf, Option.getD_none, behind]

theorem DecimalLayout.spells_behind (nonzero : d.digits ≠ 0) (whole : 0 ≤ d.exponent) :
    layout.Spells
      (digitsOf d.digits ++ List.replicate d.exponent.toNat '0' ++ ['.', '0']) d := by
  obtain ⟨first, more, cut, unlike⟩ := digitsOf_eq_cons nonzero
  refine ⟨⟨digitsOf d.digits ++ List.replicate d.exponent.toNat '0', ['0'], none⟩, ?_,
    ⟨?_, by simp, .inr ?_, .inl (by simp)⟩, ?_⟩
  · simp [Literal.text, Literal.tail, Literal.exponentPart]
  · intro c member
    rcases List.mem_append.mp member with member | zero
    · exact isDigit_of_mem_digitsOf member
    · rw [List.eq_of_mem_replicate zero]
      rfl
  · exact ⟨first, more ++ List.replicate d.exponent.toNat '0', by simp [cut], unlike⟩
  · intro negative
    have zeros : digitsOf d.digits ++ List.replicate d.exponent.toNat '0' ++ ['0'] =
        digitsOf d.digits ++ List.replicate (d.exponent.toNat + 1) '0' := by
      rw [List.append_assoc, List.replicate_succ']
    have places : (0 : Int) - (1 : Nat) + (d.exponent.toNat + 1 : Nat) = d.exponent := by omega
    simp only [Literal.value, zeros, ofDigits_append_replicate, ofDigits_digitsOf,
      Option.getD_none, List.length_singleton, Double.ofDecimal_mul_pow, places]

theorem DecimalLayout.spells_among (nonzero : d.digits ≠ 0) {count : Nat}
    (places : d.exponent + (digitsOf d.digits).length = (count + 1 : Nat))
    (inexact : d.exponent < 0) :
    layout.Spells
      ((digitsOf d.digits).take (count + 1) ++ '.' :: (digitsOf d.digits).drop (count + 1)) d := by
  have behind : (digitsOf d.digits).drop (count + 1) ≠ [] := by
    rw [Ne, List.drop_eq_nil_iff]
    omega
  refine ⟨⟨_, _, none⟩, ?_, Literal.wellFormed_split nonzero count (.inl behind), ?_⟩
  · simp [Literal.text, Literal.tail, Literal.exponentPart, behind]
  · intro negative
    have reached : (0 : Int) - (((digitsOf d.digits).drop (count + 1)).length : Nat) =
        d.exponent := by
      rw [List.length_drop]
      omega
    simp only [Literal.value, List.take_append_drop, ofDigits_digitsOf, Option.getD_none, reached]

theorem DecimalLayout.spells_exponent (nonzero : d.digits ≠ 0) {leading : Int}
    (places : ((digitsOf d.digits).length : Int) - 1 + d.exponent = leading) :
    layout.Spells
      ((digitsOf d.digits).take 1 ++ (if ((digitsOf d.digits).drop 1).isEmpty then [] else
        '.' :: (digitsOf d.digits).drop 1) ++ 'e' :: layout.exponentText leading) d := by
  refine ⟨⟨_, _, some leading⟩, ?_, Literal.wellFormed_split nonzero 0 (.inr (by simp)), ?_⟩
  · simp [Literal.text, Literal.tail, Literal.exponentPart]
  · intro negative
    have positive : 0 < (digitsOf d.digits).length := List.length_pos_iff.mpr (digitsOf_ne_nil _)
    have reached : leading - (((digitsOf d.digits).drop (0 + 1)).length : Nat) = d.exponent := by
      rw [List.length_drop]
      omega
    simp only [Literal.value, List.take_append_drop, ofDigits_digitsOf, Option.getD_some, reached]

theorem DecimalLayout.spells_place (nonzero : d.digits ≠ 0) : layout.Spells (layout.place d) d := by
  have positive : 0 < (digitsOf d.digits).length := List.length_pos_iff.mpr (digitsOf_ne_nil _)
  unfold DecimalLayout.place
  generalize reached : ((digitsOf d.digits).length : Int) - 1 + d.exponent = leading
  simp only [reached]
  split
  · split
    · exact layout.spells_before (by omega)
    · split
      · rename_i whole
        exact layout.spells_behind nonzero whole
      · exact layout.spells_among nonzero (by omega) (by omega)
  · exact layout.spells_exponent nonzero reached

end

theorem DecimalLayout.text_finite (layout : DecimalLayout) (negative : Bool)
    (magnitude : Magnitude) : ∃ literal : Literal,
      layout.text (.finite negative magnitude) =
        (if negative then ['-'] else []) ++ literal.text layout ∧
      literal.WellFormed ∧ literal.value negative = .finite negative magnitude := by
  unfold DecimalLayout.text
  by_cases zero : magnitude.quanta = 0
  · refine ⟨⟨['0'], ['0'], none⟩, ?_, ⟨by simp, by simp, .inl rfl, .inl (by simp)⟩, ?_⟩
    · simp [zero, Literal.text, Literal.tail, Literal.exponentPart]
    · exact zero_eq_finite negative zero
  · have denotes := denotes_shortest magnitude
    obtain ⟨literal, placed, wellFormed, same⟩ :=
      layout.spells_place (denotes.digits_ne_zero zero)
    refine ⟨literal, ?_, wellFormed, (same negative).trans (denotes negative)⟩
    simp only [if_neg zero, placed]

end ApiCatalog.Number
