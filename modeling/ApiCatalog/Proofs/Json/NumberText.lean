import ApiCatalog.Json.Reader
import ApiCatalog.Json.Writer
import ApiCatalog.Proofs.Number.DecimalText

/-!
Numbers in JSON texts. A whole number or a finite double that was written is read back exactly,
whatever stands behind it, as long as that does not go on with the number.
-/

namespace ApiCatalog.Json

open Number

def EndsNumber (rest : List Char) : Prop :=
  ∀ c more, rest = c :: more → c.isDigit = false ∧ c ≠ '.' ∧ c ≠ 'e' ∧ c ≠ 'E'

theorem endsNumber_nil : EndsNumber [] := by
  intro c more same
  cases same

theorem endsNumber_cons {c : Char} {more : List Char}
    (other : c.isDigit = false ∧ c ≠ '.' ∧ c ≠ 'e' ∧ c ≠ 'E') : EndsNumber (c :: more) := by
  intro c' more' same
  cases same
  exact other

def EndsDigits (rest : List Char) : Prop :=
  ∀ c more, rest = c :: more → c.isDigit = false

theorem EndsNumber.endsDigits {rest : List Char} (ends : EndsNumber rest) : EndsDigits rest :=
  fun c more same => (ends c more same).1

theorem endsDigits_cons {c : Char} {more : List Char} (other : c.isDigit = false) :
    EndsDigits (c :: more) := by
  intro c' more' same
  cases same
  exact other

theorem takeWhile_digits {digits rest : List Char} (digit : ∀ c ∈ digits, c.isDigit = true)
    (ends : EndsDigits rest) : (digits ++ rest).takeWhile Char.isDigit = digits := by
  rw [List.takeWhile_append_of_pos digit]
  cases rest with
  | nil => simp
  | cons c more => simp [ends c more rfl]

theorem dropWhile_digits {digits rest : List Char} (digit : ∀ c ∈ digits, c.isDigit = true)
    (ends : EndsDigits rest) : (digits ++ rest).dropWhile Char.isDigit = rest := by
  rw [List.dropWhile_append_of_pos digit]
  cases rest with
  | nil => simp
  | cons c more => simp [ends c more rfl]

theorem splitFraction_point {fraction rest : List Char} (nonempty : fraction ≠ [])
    (digit : ∀ c ∈ fraction, c.isDigit = true) (ends : EndsDigits rest) :
    splitFraction ('.' :: (fraction ++ rest)) = (fraction, rest) := by
  simp only [splitFraction, takeWhile_digits digit ends, dropWhile_digits digit ends]
  rw [if_neg (by simpa using nonempty)]

theorem splitFraction_other {rest : List Char} (other : ∀ more, rest ≠ '.' :: more) :
    splitFraction rest = ([], rest) := by
  unfold splitFraction
  split
  · rename_i more
    exact absurd rfl (other more)
  · rfl

theorem splitExponent_other {rest : List Char} (ends : EndsNumber rest) :
    splitExponent rest = (none, rest) := by
  cases rest with
  | nil => rfl
  | cons c more =>
    obtain ⟨-, -, small, large⟩ := ends c more rfl
    simp [splitExponent, small, large]

theorem splitExponent_mark (layout : DecimalLayout) (exponent : Int) {rest : List Char}
    (ends : EndsDigits rest) :
    splitExponent ('e' :: (layout.exponentText exponent ++ rest)) = (some exponent, rest) := by
  have digit : ∀ c ∈ paddedDigits layout.exponentWidth exponent.natAbs, c.isDigit = true :=
    fun c => isDigit_of_mem_paddedDigits
  have nonempty := paddedDigits_ne_nil layout.exponentWidth exponent.natAbs
  have split : splitSign (layout.exponentText exponent ++ rest) =
      (decide (exponent < 0), paddedDigits layout.exponentWidth exponent.natAbs ++ rest) := by
    unfold DecimalLayout.exponentText
    by_cases negative : exponent < 0 <;> simp [negative, splitSign]
  simp only [splitExponent, true_or, if_true, split, takeWhile_digits digit ends,
    dropWhile_digits digit ends, ofDigits_paddedDigits]
  rw [if_neg (by simpa using nonempty)]
  by_cases negative : exponent < 0
  · have same : -(exponent.natAbs : Int) = exponent := by omega
    simp only [negative, decide_true, if_true, same]
  · have same : (exponent.natAbs : Int) = exponent := by omega
    simp only [negative, decide_false, Bool.false_eq_true, if_false, same]

theorem splitExponent_exponentPart (layout : DecimalLayout) (exponent : Option Int)
    {rest : List Char} (ends : EndsNumber rest) :
    splitExponent (Literal.exponentPart layout exponent ++ rest) = (exponent, rest) := by
  cases exponent with
  | none => exact splitExponent_other ends
  | some exponent => exact splitExponent_mark layout exponent ends.endsDigits

theorem endsDigits_exponentPart (layout : DecimalLayout) (exponent : Option Int)
    {rest : List Char} (ends : EndsNumber rest) :
    EndsDigits (Literal.exponentPart layout exponent ++ rest) := by
  cases exponent with
  | none => exact ends.endsDigits
  | some exponent => exact endsDigits_cons rfl

theorem endsDigits_tail (layout : DecimalLayout) (literal : Literal) {rest : List Char}
    (ends : EndsNumber rest) : EndsDigits (literal.tail layout ++ rest) := by
  unfold Literal.tail
  by_cases empty : literal.fraction = []
  · simpa [empty] using endsDigits_exponentPart layout literal.exponent ends
  · simpa [empty] using endsDigits_cons rfl

theorem splitFraction_tail (layout : DecimalLayout) {literal : Literal}
    (digit : ∀ c ∈ literal.fraction, c.isDigit = true) {rest : List Char}
    (ends : EndsNumber rest) : splitFraction (literal.tail layout ++ rest) =
      (literal.fraction, Literal.exponentPart layout literal.exponent ++ rest) := by
  unfold Literal.tail
  by_cases empty : literal.fraction = []
  · simp only [empty, List.isEmpty_nil, if_true, List.nil_append]
    refine splitFraction_other ?_
    intro more same
    cases found : literal.exponent with
    | none =>
      rw [found] at same
      exact (ends '.' more same).2.1 rfl
    | some exponent => simp [found, Literal.exponentPart] at same
  · rw [if_neg (by simpa using empty), List.append_assoc, List.cons_append]
    exact splitFraction_point empty digit (endsDigits_exponentPart layout literal.exponent ends)

theorem finishNumber_literal (layout : DecimalLayout) (negative : Bool) {literal : Literal}
    (wellFormed : literal.WellFormed) {rest : List Char} (ends : EndsNumber rest) :
    finishNumber negative literal.whole (literal.tail layout ++ rest) =
      .ok (.float (literal.value negative), rest) := by
  have inexact : ¬ (literal.fraction.isEmpty && literal.exponent.isNone) = true := by
    have some := wellFormed.inexact
    simp only [Bool.and_eq_true, List.isEmpty_iff, Option.isNone_iff_eq_none]
    tauto
  simp only [finishNumber, splitFraction_tail layout wellFormed.fraction ends,
    splitExponent_exponentPart layout literal.exponent ends]
  rw [if_neg inexact]
  rfl

theorem finishNumber_whole (negative : Bool) {whole rest : List Char} (ends : EndsNumber rest)
    (short : whole.length ≤ digitLimit) : finishNumber negative whole rest =
      .ok (.int (if negative then -(ofDigits whole : Int) else ofDigits whole), rest) := by
  have point : splitFraction rest = ([], rest) :=
    splitFraction_other fun more same => (ends '.' more same).2.1 rfl
  have limit : ¬ digitLimit < whole.length := by omega
  simp only [finishNumber, point, splitExponent_other ends, List.isEmpty_nil, Option.isNone_none,
    Bool.and_self, if_true]
  rw [if_neg limit]

theorem readNumber_digits (negative : Bool) {whole tail : List Char}
    (digit : ∀ c ∈ whole, c.isDigit = true)
    (leading : whole = ['0'] ∨ ∃ first more, whole = first :: more ∧ first ≠ '0')
    (ends : EndsDigits tail) :
    readNumber ((if negative then ['-'] else []) ++ whole ++ tail) =
      finishNumber negative whole tail := by
  have unsigned : ∀ first more, whole = first :: more → first ≠ '-' := by
    rintro first more rfl rfl
    exact absurd (digit '-' List.mem_cons_self) (by decide)
  rcases leading with rfl | ⟨first, more, rfl, nonzero⟩
  · cases negative <;> simp [readNumber]
  · have head : first.isDigit = true := digit first List.mem_cons_self
    have other := unsigned first more rfl
    have taken := takeWhile_digits digit ends
    have left := dropWhile_digits digit ends
    rw [List.cons_append] at taken left
    cases negative <;> simp [readNumber, head, other, taken, left]

def valueWords : List (List Char × Json) :=
  [("null".toList, .null), ("true".toList, .bool true), ("false".toList, .bool false),
    ("NaN".toList, .float .nan), ("Infinity".toList, .float (.infinite false)),
    ("-Infinity".toList, .float (.infinite true))]

theorem readScalar_quote (rest : List Char) : readScalar ('"' :: rest) = (do
    let (s, rest) ← readString rest
    return (.string s, rest)) := rfl

theorem readScalar_cases (text : List Char) :
    (∃ rest, text = '"' :: rest) ∨
    (∃ word ∈ valueWords, ∃ rest, text = word.1 ++ rest ∧
      readScalar text = .ok (word.2, rest)) ∨
    readScalar text = readNumber text := by
  have listed (place : Nat) (inside : place < 6) : valueWords[place] ∈ valueWords :=
    List.getElem_mem inside
  unfold readScalar
  split
  case h_1 rest => exact .inl ⟨rest, rfl⟩
  case h_2 rest => exact .inr (.inl ⟨_, listed 0 (by decide), rest, rfl, rfl⟩)
  case h_3 rest => exact .inr (.inl ⟨_, listed 1 (by decide), rest, rfl, rfl⟩)
  case h_4 rest => exact .inr (.inl ⟨_, listed 2 (by decide), rest, rfl, rfl⟩)
  case h_5 rest => exact .inr (.inl ⟨_, listed 3 (by decide), rest, rfl, rfl⟩)
  case h_6 rest => exact .inr (.inl ⟨_, listed 4 (by decide), rest, rfl, rfl⟩)
  case h_7 rest => exact .inr (.inl ⟨_, listed 5 (by decide), rest, rfl, rfl⟩)
  case h_8 => exact .inr (.inr rfl)

def StartsNumber (text : List Char) : Prop :=
  ∃ (negative : Bool) (first : Char) (more : List Char),
    text = (if negative then ['-'] else []) ++ first :: more ∧ first.isDigit = true

theorem readScalar_number {text : List Char} (starts : StartsNumber text) :
    readScalar text = readNumber text := by
  obtain ⟨rest, quoted⟩ | ⟨word, listed, rest, same, -⟩ | number := readScalar_cases text
  case inr.inr => exact number
  all_goals obtain ⟨negative, first, more, rfl, digit⟩ := starts
  · cases negative <;> cases quoted
    cases digit
  · simp only [valueWords, List.mem_cons, List.not_mem_nil, or_false] at listed
    rcases listed with rfl | rfl | rfl | rfl | rfl | rfl <;> cases negative <;> simp_all

theorem readValue_number (fuel : Nat) {text : List Char} (starts : StartsNumber text) :
    readValue (fuel + 1) text = readNumber text := by
  have scalar := readScalar_number starts
  obtain ⟨negative, first, more, rfl, digit⟩ := starts
  unfold readValue
  split
  · cases negative <;> simp_all
  · cases negative <;> simp_all
  · exact scalar

theorem integerText_eq (n : Int) :
    integerText n = (if decide (n < 0) then ['-'] else []) ++ digitsOf n.natAbs := by
  unfold integerText
  by_cases negative : n < 0 <;> simp [negative]

theorem startsNumber_integerText (n : Int) (rest : List Char) :
    StartsNumber (integerText n ++ rest) := by
  obtain ⟨first, more, cut⟩ := List.exists_cons_of_ne_nil (digitsOf_ne_nil n.natAbs)
  have digit : first.isDigit = true := isDigit_of_mem_digitsOf (cut ▸ List.mem_cons_self)
  refine ⟨decide (n < 0), first, more ++ rest, ?_, digit⟩
  rw [integerText_eq, cut, List.append_assoc, List.cons_append]

theorem readValue_integerText (fuel : Nat) {n : Int} (short : withinDigitLimit n = true)
    {rest : List Char} (ends : EndsNumber rest) :
    readValue (fuel + 1) (integerText n ++ rest) = .ok (.int n, rest) := by
  have digit : ∀ c ∈ digitsOf n.natAbs, c.isDigit = true := fun c => isDigit_of_mem_digitsOf
  have few : (digitsOf n.natAbs).length ≤ digitLimit :=
    (length_digitsOf_le_iff (by decide)).mpr (of_decide_eq_true short)
  have leading : digitsOf n.natAbs = ['0'] ∨
      ∃ first more, digitsOf n.natAbs = first :: more ∧ first ≠ '0' := by
    by_cases zero : n.natAbs = 0
    · rw [zero]
      exact .inl rfl
    · exact .inr (digitsOf_eq_cons zero)
  rw [readValue_number fuel (startsNumber_integerText n rest), integerText_eq,
    readNumber_digits _ digit leading ends.endsDigits, finishNumber_whole _ ends few,
    ofDigits_digitsOf]
  by_cases negative : n < 0
  · have same : -(n.natAbs : Int) = n := by omega
    simp only [negative, decide_true, if_true, same]
  · have same : (n.natAbs : Int) = n := by omega
    simp only [negative, decide_false, Bool.false_eq_true, if_false, same]

theorem exists_literal (negative : Bool) (magnitude : Magnitude) (rest : List Char) :
    ∃ literal : Literal, literal.WellFormed ∧
      literal.value negative = .finite negative magnitude ∧
      floatText (.finite negative magnitude) ++ rest =
        (if negative then ['-'] else []) ++ literal.whole ++
          (literal.tail numberLayout ++ rest) := by
  obtain ⟨literal, written, wellFormed, value⟩ := numberLayout.text_finite negative magnitude
  refine ⟨literal, wellFormed, value, ?_⟩
  simp only [floatText, written, Literal.text, List.append_assoc]

theorem startsNumber_floatText (negative : Bool) (magnitude : Magnitude) (rest : List Char) :
    StartsNumber (floatText (.finite negative magnitude) ++ rest) := by
  obtain ⟨literal, wellFormed, -, whole⟩ := exists_literal negative magnitude rest
  obtain ⟨first, more, cut⟩ : ∃ first more, literal.whole = first :: more := by
    rcases wellFormed.leading with zero | ⟨first, more, cut, -⟩
    · exact ⟨'0', [], zero⟩
    · exact ⟨first, more, cut⟩
  refine ⟨negative, first, more ++ (literal.tail numberLayout ++ rest), ?_,
    wellFormed.whole first (cut ▸ List.mem_cons_self)⟩
  rw [whole, cut, List.append_assoc, List.cons_append]

theorem readValue_floatText (fuel : Nat) (negative : Bool) (magnitude : Magnitude)
    {rest : List Char} (ends : EndsNumber rest) :
    readValue (fuel + 1) (floatText (.finite negative magnitude) ++ rest) =
      .ok (.float (.finite negative magnitude), rest) := by
  obtain ⟨literal, wellFormed, value, whole⟩ := exists_literal negative magnitude rest
  rw [readValue_number fuel (startsNumber_floatText negative magnitude rest), whole,
    readNumber_digits _ wellFormed.whole wellFormed.leading
      (endsDigits_tail numberLayout literal ends),
    finishNumber_literal numberLayout negative wellFormed ends, value]

end ApiCatalog.Json
