import ApiCatalog.Number.Literal
import ApiCatalog.Proofs.Number.WholeDouble
import ApiCatalog.Proofs.Text.Cuts

/-!
Whole numbers written in decimal digits, with or without a minus sign. Whatever its length, such a
text reads as the double nearest to the number.
-/

namespace ApiCatalog.Number

/-- A text that writes a whole number: digits, one at least, perhaps behind a minus sign. -/
inductive Writes : List Char → Int → Prop
  | plain {digits : List Char} (nonempty : digits ≠ []) (digit : ∀ c ∈ digits, c.isDigit = true) :
      Writes digits (ofDigits digits)
  | minus {digits : List Char} (nonempty : digits ≠ []) (digit : ∀ c ∈ digits, c.isDigit = true) :
      Writes ('-' :: digits) (-ofDigits digits)

theorem writes_integerText (n : Int) : Writes (integerText n) n := by
  have filled : digitsOf n.natAbs ≠ [] := Nat.toDigits_ne_nil
  have digit : ∀ c ∈ digitsOf n.natAbs, c.isDigit = true := fun c => isDigit_of_mem_digitsOf
  unfold integerText
  split
  · have writes := Writes.minus filled digit
    have value : -((n.natAbs : Nat) : Int) = n := by omega
    rwa [ofDigits_digitsOf, value] at writes
  · have writes := Writes.plain filled digit
    have value : ((n.natAbs : Nat) : Int) = n := by omega
    rwa [ofDigits_digitsOf, value] at writes

theorem exists_of_isDigit {c : Char} (digit : c.isDigit = true) :
    ∃ n < 10, c = Char.ofNat (48 + n) := by
  have bounds : 48 ≤ c.toNat ∧ c.toNat ≤ 57 := by
    simp only [Char.isDigit, ge_iff_le, Bool.and_eq_true, decide_eq_true_eq,
      UInt32.le_iff_toNat_le] at digit
    exact digit
  refine ⟨c.toNat - 48, by omega, ?_⟩
  rw [Nat.add_sub_cancel' bounds.1, Char.ofNat_toNat]

theorem asciiForm_of_isDigit {c : Char} (digit : c.isDigit = true) : asciiForm c = c := by
  obtain ⟨n, small, rfl⟩ := exists_of_isDigit digit
  have each : ∀ n < 10, asciiForm (Char.ofNat (48 + n)) = Char.ofNat (48 + n) := by decide
  exact each n small

theorem isMargin_of_isDigit {c : Char} (digit : c.isDigit = true) : isMargin c = false := by
  obtain ⟨n, small, rfl⟩ := exists_of_isDigit digit
  have each : ∀ n < 10, isMargin (Char.ofNat (48 + n)) = false := by decide
  exact each n small

theorem toLower_of_isDigit {c : Char} (digit : c.isDigit = true) :
    c.toLower ≠ 'i' ∧ c.toLower ≠ 'n' := by
  obtain ⟨n, small, rfl⟩ := exists_of_isDigit digit
  have each : ∀ n < 10, (Char.ofNat (48 + n)).toLower ≠ 'i' ∧
      (Char.ofNat (48 + n)).toLower ≠ 'n' := by decide
  exact each n small

theorem asciiText_eq_self {text : List Char} (ascii : ∀ c ∈ text, asciiForm c = c)
    (solid : ∀ c ∈ text, isMargin c = false) : asciiText text = text := by
  have same : text.map asciiForm = text := by
    conv_rhs => rw [← List.map_id text]
    exact List.map_congr_left ascii
  have head : ∀ c ∈ text.head?, isMargin c = false := by
    intro c first
    exact solid c (List.mem_of_mem_head? first)
  have last : ∀ c ∈ text.getLast?, isMargin c = false := by
    intro c final
    exact solid c (List.mem_of_mem_getLast? final)
  have trimmed := @Text.dropWhileRight_append_of_all isMargin text [] last rfl
  rw [List.append_nil] at trimmed
  rw [asciiText, same, Text.stripBy, Text.dropWhile_eq_self_of_head head, trimmed]

theorem readUnsigned?_digits (negative : Bool) {digits : List Char} (nonempty : digits ≠ [])
    (digit : ∀ c ∈ digits, c.isDigit = true) :
    readUnsigned? negative digits = some (Double.ofDecimal negative (ofDigits digits) 0) := by
  have taken := @List.takeWhile_append_of_pos _ Char.isDigit digits [] digit
  have left := @List.dropWhile_append_of_pos _ Char.isDigit digits [] digit
  rw [List.append_nil] at taken left
  simp [readUnsigned?, taken, left, nonempty]

theorem splitSign_digits {digits : List Char} (digit : ∀ c ∈ digits, c.isDigit = true) :
    splitSign digits = (false, digits) := by
  unfold splitSign
  split
  · exact absurd (digit _ List.mem_cons_self) (by decide)
  · exact absurd (digit _ List.mem_cons_self) (by decide)
  · rfl

theorem readDouble?_of_splitSign {text digits : List Char} {negative : Bool}
    (parted : splitSign text = (negative, digits)) (nonempty : digits ≠ [])
    (digit : ∀ c ∈ digits, c.isDigit = true) :
    readDouble? text = some (Double.ofDecimal negative (ofDigits digits) 0) := by
  obtain ⟨first, more, rfl⟩ := List.exists_cons_of_ne_nil nonempty
  obtain ⟨noInfinity, noNan⟩ := toLower_of_isDigit (digit first List.mem_cons_self)
  rw [readDouble?, parted]
  simp only [List.map_cons, List.cons.injEq, noInfinity, noNan, false_and, or_self, if_false]
  exact readUnsigned?_digits negative nonempty digit

theorem asciiText_of_writes {text : List Char} {n : Int} (writes : Writes text n) :
    asciiText text = text := by
  have plain : ∀ digits : List Char, (∀ c ∈ digits, c.isDigit = true) →
      ∀ c ∈ digits, asciiForm c = c ∧ isMargin c = false := by
    intro digits digit c member
    exact ⟨asciiForm_of_isDigit (digit c member), isMargin_of_isDigit (digit c member)⟩
  have every : ∀ c ∈ text, asciiForm c = c ∧ isMargin c = false := by
    cases writes with
    | plain nonempty digit => exact plain _ digit
    | minus nonempty digit =>
      rw [List.forall_mem_cons]
      exact ⟨by decide, plain _ digit⟩
  exact asciiText_eq_self (fun c member => (every c member).1) fun c member => (every c member).2

theorem ofDecimal_whole (negative : Bool) (n : Nat) :
    Double.ofDecimal negative n 0 = Double.ofQuanta negative (n * unit) 1 := by
  rw [Double.ofDecimal_eq, decimalQuotient, if_pos (Int.le_refl 0), Int.toNat_zero, Nat.pow_zero,
    Nat.mul_one]

theorem doubleOfText?_of_writes {text : List Char} {n : Int} (writes : Writes text n) :
    ∃ negative, (negative = true → n ≤ 0) ∧ (negative = false → 0 ≤ n) ∧
      doubleOfText? text = some (Double.ofQuanta negative (n.natAbs * unit) 1) := by
  rw [doubleOfText?, asciiText_of_writes writes]
  cases writes with
  | plain nonempty digit =>
    refine ⟨false, by simp, by simp, ?_⟩
    rw [readDouble?_of_splitSign (splitSign_digits digit) nonempty digit, ofDecimal_whole,
      Int.natAbs_natCast]
  | @minus digits nonempty digit =>
    have parted : splitSign ('-' :: digits) = (true, digits) := rfl
    refine ⟨true, by simp, by simp, ?_⟩
    rw [readDouble?_of_splitSign parted nonempty digit, ofDecimal_whole, Int.natAbs_neg,
      Int.natAbs_natCast]

theorem of_writes {text : List Char} {n : Int} (writes : Writes text n) :
    ∃ x, doubleOfText? text = some x ∧
      (n.natAbs < overflowThreshold → x.toInt? = some (nearestWhole n)) ∧
      (overflowThreshold ≤ n.natAbs → x.toInt? = none ∧ x.isFinite = false) := by
  obtain ⟨negative, below, above, read⟩ := doubleOfText?_of_writes writes
  refine ⟨_, read, Double.toInt?_ofQuanta below above, fun beyond => ?_⟩
  have outside : ¬ nearestQuanta (n.natAbs * unit) 1 < rangeEnd := by
    rw [nearestQuanta_lt_rangeEnd_iff]
    omega
  rw [Double.ofQuanta_beyond outside]
  exact ⟨rfl, rfl⟩

end ApiCatalog.Number
