import ApiCatalog.Proofs.Yaml.JsonFlow

/-!
What kind of value a JSON number is as a plain scalar. Whole numbers are taken for such; others are
numbers only if they have a point and if their exponent, if there is one, has a sign. The rest are
texts.
-/

namespace ApiCatalog

open Number

theorem Number.splitSign_of_isDigit {first : Char} {more : List Char} (digit : first.isDigit = true) :
    splitSign (first :: more) = (false, first :: more) := by
  unfold splitSign
  split
  case h_1 same =>
    cases same
    exact absurd digit (by decide)
  case h_2 same =>
    cases same
    exact absurd digit (by decide)
  case h_3 => rfl

namespace Json.Numeral

/-- Whether a number has a point, and a sign in its exponent if there is one. -/
def IsPointed (numeral : Numeral) : Prop :=
  numeral.fraction ≠ [] ∧ ∀ exponent ∈ numeral.exponent, exponent.sign ≠ none

instance (numeral : Numeral) : Decidable numeral.IsPointed :=
  inferInstanceAs (Decidable (_ ∧ ∀ exponent ∈ numeral.exponent, _))

variable (numeral : Numeral)

theorem of_tail_eq_cons {c : Char} {rest : List Char} (same : numeral.tail = c :: rest) :
    c = '.' ∧ numeral.fraction ≠ [] ∨ c = 'e' ∨ c = 'E' := by
  unfold tail at same
  split at same
  · cases found : numeral.exponent with
    | none =>
      rw [found] at same
      cases same
    | some exponent =>
      rw [found] at same
      cases same
      exact .inr exponent.marks
  · rename_i filled
    cases same
    exact .inl ⟨rfl, filled⟩

theorem splitSign_text : splitSign numeral.text = (numeral.negative, numeral.whole ++ numeral.tail) := by
  obtain ⟨first, more, whole, digit⟩ := numeral.exists_whole
  rw [text, whole]
  cases numeral.negative with
  | true => simp [splitSign]
  | false => exact splitSign_of_isDigit digit

theorem notMem_text {c : Char} (outside : Yaml.isLeafChar c = false) : c ∉ numeral.text := by
  intro member
  have leaf := numeral.isLeaf_text.chars c member
  rw [outside] at leaf
  cases leaf

theorem tail_eq_nil_iff : numeral.tail = [] ↔ numeral.IsWhole := by
  rw [tail, List.append_eq_nil_iff, IsWhole]
  refine and_congr ?_ ?_
  · split <;> simp_all
  · cases numeral.exponent <;> simp [Exponent.text]

end Json.Numeral

namespace Yaml

open Json

variable (numeral : Numeral)

theorem isGrouped_of_isDigit {c : Char} (digit : c.isDigit = true) : isGrouped c = true := by
  rw [isGrouped, digit, Bool.true_or]

theorem takeWhile_isGrouped_whole :
    (numeral.whole ++ numeral.tail).takeWhile isGrouped = numeral.whole ∧
      (numeral.whole ++ numeral.tail).dropWhile isGrouped = numeral.tail := by
  have all : ∀ c ∈ numeral.whole, isGrouped c = true :=
    fun c member => isGrouped_of_isDigit (numeral.wholeDigit c member)
  rw [List.takeWhile_append_of_pos all, List.dropWhile_append_of_pos all]
  cases tail : numeral.tail with
  | nil => simp
  | cons c more =>
    have other : isGrouped c = false := by
      rcases numeral.of_tail_eq_cons tail with ⟨rfl, -⟩ | rfl | rfl <;> rfl
    simp [other]

theorem isGroupedNumber_whole : isGroupedNumber numeral.whole = true := by
  obtain ⟨first, more, whole, digit⟩ := numeral.exists_whole
  have all : ∀ c ∈ more, isGrouped c = true := fun c member =>
    isGrouped_of_isDigit (numeral.wholeDigit c (whole ▸ List.mem_cons_of_mem first member))
  rw [whole, isGroupedNumber, digit, List.all_eq_true.mpr all]
  rfl

theorem isExponent_text (exponent : Exponent) :
    isExponent exponent.text = true ↔ exponent.sign ≠ none := by
  have mark : (exponent.mark == 'e' || exponent.mark == 'E') = true := by
    simpa using exponent.marks
  have digits : allOf Char.isDigit exponent.digits = true := by
    rw [allOf, Bool.and_eq_true, List.all_eq_true]
    exact ⟨by simpa using exponent.nonempty, exponent.digit⟩
  unfold Exponent.text
  cases sign : exponent.sign with
  | none =>
    obtain ⟨first, more, cut⟩ := List.exists_cons_of_ne_nil exponent.nonempty
    have digit : first.isDigit = true := exponent.digit first (cut ▸ List.mem_cons_self)
    have noSign : (first == '+' || first == '-') = false := by
      rw [Bool.or_eq_false_iff, beq_eq_false_iff_ne, beq_eq_false_iff_ne]
      constructor <;> rintro rfl <;> exact absurd digit (by decide)
    rw [cut]
    simp [isExponent, noSign]
  | some c =>
    have signs : (c == '+' || c == '-') = true := by simpa using exponent.signs c sign
    simp only [Option.toList_some, List.singleton_append, isExponent, mark, signs, digits]
    simp

theorem isExponent_behind_fraction :
    isExponent ((numeral.fraction ++ numeral.exponent.elim [] Exponent.text).dropWhile isGrouped) =
      true ↔ ∀ exponent ∈ numeral.exponent, exponent.sign ≠ none := by
  have all : ∀ c ∈ numeral.fraction, isGrouped c = true :=
    fun c member => isGrouped_of_isDigit (numeral.fractionDigit c member)
  rw [List.dropWhile_append_of_pos all]
  cases numeral.exponent with
  | none => simp [isExponent]
  | some exponent =>
    have ungrouped : isGrouped exponent.mark = false := by
      rcases exponent.marks with mark | mark <;> rw [mark] <;> rfl
    have kept : exponent.text.dropWhile isGrouped = exponent.text := by
      rw [Exponent.text, List.dropWhile_cons_of_neg (by simp [ungrouped])]
    rw [Option.elim_some, kept, isExponent_text]
    simp

theorem isPointNumber_text : isPointNumber numeral.text = true ↔ numeral.IsPointed := by
  obtain ⟨taken, left⟩ := takeWhile_isGrouped_whole numeral
  have unsigned : dropSign numeral.text = numeral.whole ++ numeral.tail := by
    rw [dropSign, numeral.splitSign_text]
  have whole := isGroupedNumber_whole numeral
  rw [isPointNumber, unsigned]
  simp only [taken, left]
  by_cases empty : numeral.fraction = []
  · refine iff_of_false ?_ fun pointed => pointed.1 empty
    split
    case h_1 rest same =>
      rcases numeral.of_tail_eq_cons same with ⟨-, filled⟩ | mark | mark
      · exact absurd empty filled
      · exact absurd mark (by decide)
      · exact absurd mark (by decide)
    case h_2 => simp
  · have tail : numeral.tail = '.' :: (numeral.fraction ++ numeral.exponent.elim [] Exponent.text) := by
      rw [Numeral.tail, if_neg empty, List.cons_append]
    rw [tail]
    simp only [whole, Bool.true_or, Bool.true_and]
    rw [Numeral.IsPointed, and_iff_right empty, isExponent_behind_fraction]

theorem isSexagesimal_text (pointed : Bool) : isSexagesimal pointed numeral.text = false := by
  have noColon : ':' ∉ numeral.whole ++ numeral.tail := by
    intro member
    refine numeral.notMem_text (rfl : isLeafChar ':' = false) ?_
    rw [Numeral.text, List.append_assoc]
    exact List.mem_append_right _ member
  rw [isSexagesimal, dropSign, numeral.splitSign_text]
  simp only [List.splitOn_eq_singleton noColon]

theorem isIntText_text : isIntText numeral.text = true ↔ numeral.IsWhole := by
  rw [isIntText, isSexagesimal_text, Bool.false_or, dropSign, numeral.splitSign_text,
    ← numeral.tail_eq_nil_iff]
  dsimp only
  rcases numeral.leading with whole | ⟨first, more, whole, nonzero⟩
  · rw [whole]
    cases tail : numeral.tail with
    | nil => simp
    | cons c more =>
      rcases numeral.of_tail_eq_cons tail with ⟨rfl, -⟩ | rfl | rfl <;> simp [allOf]
  · have number := isGroupedNumber_whole numeral
    rw [whole] at number ⊢
    have grouped : isGroupedNumber (first :: more ++ numeral.tail) = true ↔ numeral.tail = [] := by
      simp only [isGroupedNumber, Bool.and_eq_true] at number
      simp only [List.cons_append, isGroupedNumber, number, List.all_append, Bool.true_and]
      cases tail : numeral.tail with
      | nil => simp
      | cons c rest =>
        rcases numeral.of_tail_eq_cons tail with ⟨rfl, -⟩ | rfl | rfl <;> simp [isGrouped]
    rw [← grouped]
    split
    all_goals first
      | rfl
      | (rename_i same
         exact absurd (List.cons.inj same).1 nonzero)

/-! Words of other kinds begin with other characters. -/

def startsNumber (text : List Char) : Bool :=
  text.head?.any fun c => c.isDigit || c == '-'

theorem beq_eq_false_of_startsNumber {text word : List Char} (number : startsNumber text = true)
    (outside : startsNumber word = false) : (text == word) = false := by
  refine beq_false_of_ne ?_
  rintro rfl
  rw [number] at outside
  cases outside

theorem contains_eq_false {words : List (List Char)} {text : List Char}
    (number : startsNumber text = true) (outside : words.any startsNumber = false) :
    words.contains text = false := by
  rw [← Bool.not_eq_true, List.contains_iff_mem]
  exact fun member => List.any_eq_false.mp outside text member number

theorem startsNumber_of_isDigit {first : Char} (digit : first.isDigit = true) (more : List Char) :
    startsNumber (first :: more) = true := by
  simp [startsNumber, digit]

theorem startsNumber_text : startsNumber numeral.text = true := by
  obtain ⟨first, more, whole, digit⟩ := numeral.exists_whole
  rw [Numeral.text, whole]
  split
  · rfl
  · exact startsNumber_of_isDigit digit _

theorem isFloatText_text : isFloatText numeral.text = true ↔ numeral.IsPointed := by
  obtain ⟨first, more, whole, digit⟩ := numeral.exists_whole
  have special : isSpecialFloat numeral.text = false := by
    rw [isSpecialFloat, dropSign, numeral.splitSign_text, whole, Bool.or_eq_false_iff]
    exact ⟨contains_eq_false (startsNumber_of_isDigit digit _) (by decide),
      contains_eq_false (startsNumber_text numeral) (by decide)⟩
  rw [isFloatText, isSexagesimal_text, special, Bool.or_false, Bool.or_false, isPointNumber_text]

theorem isTimestampText_text : isTimestampText numeral.text = false := by
  have noDash : readChar? '-' numeral.tail = none := by
    unfold readChar?
    cases tail : numeral.tail with
    | nil => rfl
    | cons c more => rcases numeral.of_tail_eq_cons tail with ⟨rfl, -⟩ | rfl | rfl <;> rfl
  have ends : Json.EndsDigits numeral.tail := by
    intro c more tail
    rcases numeral.of_tail_eq_cons tail with ⟨rfl, -⟩ | rfl | rfl <;> rfl
  have none : readTimestamp? numeral.text = none := by
    rw [readTimestamp?]
    cases negative : numeral.negative with
    | true => simp [Numeral.text, negative]
    | false =>
      have text : numeral.text = numeral.whole ++ numeral.tail := by simp [Numeral.text, negative]
      rw [text, Json.takeWhile_digits numeral.wholeDigit ends]
      by_cases four : numeral.whole.length = 4
      · rw [← four, List.drop_left, noDash]
        simp
      · simp [four]
  rw [isTimestampText, none]

theorem impliedKind_text : impliedKind numeral.text =
    if numeral.IsPointed then .float else if numeral.IsWhole then .int else .text := by
  have number := startsNumber_text numeral
  have unbroken : Text.dropEnd? ['\n'] numeral.text = none := by
    rw [Option.eq_none_iff_forall_ne_some]
    intro rest same
    rw [Text.dropEnd?_eq_some_iff] at same
    refine numeral.notMem_text (rfl : isLeafChar '\n' = false) ?_
    rw [same]
    simp
  have bool : isBoolText numeral.text = false := by
    rw [isBoolText, List.any_eq_false]
    intro entry listed
    rw [Bool.not_eq_true]
    refine contains_eq_false number ?_
    revert entry
    decide
  have other (word : List Char) (outside : startsNumber word = false) :
      (numeral.text == word) = false := beq_eq_false_of_startsNumber number outside
  have null : isNullText numeral.text = false := by
    rw [isNullText, other _ (by decide), Bool.false_or]
    exact contains_eq_false number (by decide)
  have noBreak : ∀ rest, numeral.text ≠ '\n' :: rest := by
    intro rest same
    exact numeral.notMem_text (rfl : isLeafChar '\n' = false) (same ▸ List.mem_cons_self)
  unfold impliedKind
  rw [unbroken, Option.getD_none]
  split
  case h_1 empty =>
    rw [empty] at number
    cases number
  case h_2 rest same => exact absurd same (noBreak rest)
  case h_3 =>
    simp only [bool, null, isTimestampText_text, isFloatText_text, isIntText_text,
      other ['<', '<'] (by decide), other ['='] (by decide), other ['!'] (by decide),
      other ['&'] (by decide), other ['*'] (by decide), Bool.false_eq_true, if_false, Bool.or_self]

end Yaml

end ApiCatalog
