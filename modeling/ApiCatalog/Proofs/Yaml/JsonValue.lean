import ApiCatalog.Proofs.Number.WholeLiteral
import ApiCatalog.Proofs.Text.Capitals
import ApiCatalog.Proofs.Yaml.FlowValue
import ApiCatalog.Proofs.Yaml.NumeralKind

/-!
What YAML makes of JSON sources. Strings differ where a character is written as two halves, words
where they stand for no finite number, and numbers where YAML takes them for texts.
-/

namespace ApiCatalog

open Json Number Yaml

/-! Numbers. -/

namespace Number

theorem Double.neg_ofDecimal (digits : Nat) (exponent : Int) :
    (Double.ofDecimal false digits exponent).neg = Double.ofDecimal true digits exponent := by
  have quanta (num den : Nat) : (Double.ofQuanta false num den).neg = Double.ofQuanta true num den := by
    unfold Double.ofQuanta
    split <;> rfl
  unfold Double.ofDecimal
  split
  · rfl
  split
  · rfl
  split
  · rfl
  split <;> exact quanta _ _

theorem Double.ofDecimal_of_sign (negative : Bool) (digits : Nat) (exponent : Int) :
    Double.ofDecimal negative digits exponent =
      if negative then (Double.ofDecimal false digits exponent).neg
      else Double.ofDecimal false digits exponent := by
  cases negative with
  | true => rw [if_pos rfl, Double.neg_ofDecimal]
  | false => rw [if_neg Bool.false_ne_true]

end Number

namespace Yaml

section

variable (numeral : Numeral)

theorem filter_numeral : numeral.text.filter (· != '_') = numeral.text := by
  rw [List.filter_eq_self]
  intro c member
  rw [bne_iff_ne]
  rintro rfl
  exact numeral.notMem_text (rfl : isLeafChar '_' = false) member

theorem digitsIn?_ten {digits : List Char} (nonempty : digits ≠ [])
    (digit : ∀ c ∈ digits, c.isDigit = true) : digitsIn? 10 digits = some (ofDigits digits) := by
  have each {c : Char} (digit : c.isDigit = true) : digitIn? 10 c = some (c.toNat - 48) := by
    obtain ⟨n, small, rfl⟩ := exists_of_isDigit digit
    have every : ∀ n < 10, digitIn? 10 (Char.ofNat (48 + n)) =
        some ((Char.ofNat (48 + n)).toNat - 48) := by decide
    exact every n small
  have all (digits : List Char) (digit : ∀ c ∈ digits, c.isDigit = true) (value : Nat) :
      digits.foldl (fun value c => do return (← value) * 10 + (← digitIn? 10 c)) (some value) =
        some (Nat.ofDigitChars 10 digits value) := by
    induction digits generalizing value with
    | nil => rfl
    | cons c digits inner =>
      obtain ⟨first, digit⟩ := List.forall_mem_cons.mp digit
      rw [List.foldl_cons, each first, Nat.ofDigitChars_cons, Nat.mul_comm 10]
      exact inner digit _
  rw [digitsIn?, if_neg (by simpa using nonempty)]
  exact all digits digit 0

theorem wholeNumber_ten {digits : List Char} {first : Char} {more : List Char}
    (cut : digits = first :: more) (nonzero : first ≠ '0') (digit : ∀ c ∈ digits, c.isDigit = true)
    (short : digits.length ≤ digitLimit) : wholeNumber 10 digits = .ok (ofDigits digits : Int) := by
  have ascii : asciiText digits = digits :=
    asciiText_eq_self (fun c member => asciiForm_of_isDigit (digit c member))
      fun c member => isMargin_of_isDigit (digit c member)
  have unmarked : dropBaseMark 10 digits = digits := by
    rw [cut]
    unfold dropBaseMark
    split
    case h_1 same => exact absurd (List.cons.inj same).1 nonzero
    case h_2 => rfl
  have filled : digits ≠ [] := cut ▸ List.cons_ne_nil _ _
  rw [wholeNumber, ascii, splitSign_digits digit]
  simp only [unmarked, digitsIn?_ten filled digit]
  rw [if_neg (by omega)]
  rfl

theorem intOf_numeral (whole : numeral.IsWhole) : intOf numeral.text =
    .ok (if numeral.negative then -(ofDigits numeral.whole : Int) else ofDigits numeral.whole) := by
  have short := numeral.short whole.1 whole.2
  have digit := numeral.wholeDigit
  obtain ⟨sign, rest, text⟩ : ∃ sign rest, numeral.text = sign :: rest :=
    List.exists_cons_of_ne_nil fun empty => absurd (startsNumber_text numeral) (by rw [empty]; decide)
  have signed : signOf (numeral.text.filter (· != '_')) = .ok (numeral.negative, numeral.whole) := by
    have parted := numeral.splitSign_text
    rw [numeral.tail_eq_nil_iff.mpr whole, List.append_nil] at parted
    rw [filter_numeral, ← parted, text]
    rfl
  rw [intOf, signed]
  rcases numeral.leading with zero | ⟨first, more, cut, nonzero⟩
  · rw [zero]
    rfl
  · have size := wholeNumber_ten cut nonzero digit short
    have noColon : numeral.whole.contains ':' = false := by
      rw [← Bool.not_eq_true, List.contains_iff_mem]
      exact fun member => absurd (digit ':' member) (by decide)
    simp only [Bind.bind, Except.bind]
    split
    case h_1 empty => exact absurd (cut.symm.trans empty) (List.cons_ne_nil _ _)
    case h_2 same => exact absurd (List.cons.inj (cut.symm.trans same)).1 nonzero
    case h_3 same => exact absurd (List.cons.inj (cut.symm.trans same)).1 nonzero
    case h_4 same => exact absurd (List.cons.inj (cut.symm.trans same)).1 nonzero
    case h_5 same => exact absurd (List.cons.inj (cut.symm.trans same)).1 nonzero
    case h_6 =>
      rw [noColon, size]
      rfl

theorem ascii_of_isLeafChar {c : Char} (leaf : isLeafChar c = true) : c.toNat < 128 := by
  simp only [isLeafChar, Bool.or_eq_true, beq_iff_eq] at leaf
  rcases leaf with ((sign | rfl) | rfl) | rfl
  · exact Text.ascii_of_isAlphanum sign
  all_goals decide

theorem toLower_of_isLeafChar {c : Char} (leaf : isLeafChar c = true) :
    asciiForm c.toLower = c.toLower ∧ isMargin c.toLower = false ∧ c.toLower ≠ ':' := by
  have every := Text.forall_ascii (fun c => isLeafChar c = true →
    asciiForm c.toLower = c.toLower ∧ isMargin c.toLower = false ∧ c.toLower ≠ ':')
    (by decide) (ascii_of_isLeafChar leaf)
  exact every leaf

theorem map_toLower_digits {digits : List Char} (digit : ∀ c ∈ digits, c.isDigit = true) :
    digits.map Char.toLower = digits := by
  conv_rhs => rw [← List.map_id digits]
  refine List.map_congr_left fun c member => ?_
  obtain ⟨n, small, rfl⟩ := exists_of_isDigit (digit c member)
  have every : ∀ n < 10, (Char.ofNat (48 + n)).toLower = Char.ofNat (48 + n) := by decide
  exact every n small

theorem readExponent?_text (exponent : Exponent) :
    readExponent? (exponent.sign.toList ++ exponent.digits) = some exponent.size := by
  have filled : exponent.digits.isEmpty = false := by simpa using exponent.nonempty
  have all : exponent.digits.all Char.isDigit = true := List.all_eq_true.mpr exponent.digit
  unfold Exponent.size
  cases sign : exponent.sign with
  | none =>
    rw [readExponent?, Option.toList_none, List.nil_append, splitSign_digits exponent.digit]
    simp [filled, all]
  | some c =>
    rcases exponent.signs c sign with rfl | rfl <;>
      simp [readExponent?, splitSign, filled, all]

def smallExponent (exponent : Option Exponent) : List Char :=
  exponent.elim [] fun exponent => 'e' :: (exponent.sign.toList ++ exponent.digits)

theorem map_toLower_exponent (exponent : Option Exponent) :
    (exponent.elim [] Exponent.text).map Char.toLower = smallExponent exponent := by
  cases exponent with
  | none => rfl
  | some exponent =>
    have mark : exponent.mark.toLower = 'e' := by
      rcases exponent.marks with mark | mark <;> rw [mark] <;> rfl
    have sign : exponent.sign.toList.map Char.toLower = exponent.sign.toList := by
      cases found : exponent.sign with
      | none => rfl
      | some c => rcases exponent.signs c found with rfl | rfl <;> rfl
    simp [Exponent.text, smallExponent, mark, sign, map_toLower_digits exponent.digit]

theorem readUnsigned?_pointed {whole fraction : List Char} {exponent : Option Exponent}
    (wholeDigit : ∀ c ∈ whole, c.isDigit = true) (fractionDigit : ∀ c ∈ fraction, c.isDigit = true)
    (filled : whole ≠ []) :
    readUnsigned? false (whole ++ '.' :: (fraction ++ smallExponent exponent)) =
      some (Double.ofDecimal false (ofDigits (whole ++ fraction))
        (exponent.elim 0 Exponent.size - fraction.length)) := by
  have point : EndsDigits ('.' :: (fraction ++ smallExponent exponent)) := endsDigits_cons rfl
  have ends : EndsDigits (smallExponent exponent) := by
    cases exponent with
    | none => exact nofun
    | some exponent => exact endsDigits_cons rfl
  simp only [readUnsigned?, takeWhile_digits wholeDigit point, dropWhile_digits wholeDigit point,
    takeWhile_digits fractionDigit ends, dropWhile_digits fractionDigit ends]
  rw [if_neg (by simp [filled])]
  cases exponent with
  | none => rfl
  | some exponent =>
    simp only [smallExponent, Option.elim_some, true_or, if_true, readExponent?_text]
    rfl

def smallNumeral : List Char :=
  numeral.whole ++ '.' :: (numeral.fraction ++ smallExponent numeral.exponent)

theorem map_toLower_numeral (pointed : numeral.IsPointed) :
    (numeral.whole ++ numeral.tail).map Char.toLower = smallNumeral numeral := by
  rw [Numeral.tail, if_neg pointed.1, List.cons_append, List.map_append, List.map_cons,
    List.map_append, map_toLower_digits numeral.wholeDigit, map_toLower_digits numeral.fractionDigit,
    map_toLower_exponent]
  rfl

theorem exists_smallNumeral :
    ∃ first rest, smallNumeral numeral = first :: rest ∧ first.isDigit = true := by
  obtain ⟨first, more, cut, digit⟩ := numeral.exists_whole
  exact ⟨first, _, congrArg (· ++ '.' :: (numeral.fraction ++ smallExponent numeral.exponent)) cut,
    digit⟩

theorem smallNumeral_chars (pointed : numeral.IsPointed) :
    ∀ c ∈ smallNumeral numeral, asciiForm c = c ∧ isMargin c = false ∧ c ≠ ':' := by
  intro c member
  rw [← map_toLower_numeral numeral pointed] at member
  obtain ⟨d, inside, rfl⟩ := List.mem_map.mp member
  refine toLower_of_isLeafChar (numeral.isLeaf_text.chars d ?_)
  rw [Numeral.text, List.append_assoc]
  exact List.mem_append_right _ inside

theorem splitSign_smallNumeral : splitSign (smallNumeral numeral) = (false, smallNumeral numeral) := by
  obtain ⟨first, rest, head, digit⟩ := exists_smallNumeral numeral
  exact head ▸ splitSign_of_isDigit digit

theorem floatDigits_numeral (pointed : numeral.IsPointed) :
    floatDigits numeral.text = .ok (numeral.negative, smallNumeral numeral) := by
  have small : Text.lower numeral.text =
      (if numeral.negative then ['-'] else []) ++ smallNumeral numeral := by
    have mapped := Text.lowerAfter_of_ascii
      (fun c member => ascii_of_isLeafChar (numeral.isLeaf_text.chars c member)) false
    rw [Text.lower, mapped, Numeral.text, List.append_assoc, List.map_append,
      map_toLower_numeral numeral pointed]
    cases numeral.negative <;> rfl
  rw [floatDigits, filter_numeral, small]
  cases numeral.negative with
  | true => rfl
  | false =>
    obtain ⟨first, rest, head, -⟩ := exists_smallNumeral numeral
    simp only [Bool.false_eq_true, if_false, List.nil_append]
    rw [← splitSign_smallNumeral numeral, head]
    rfl

theorem doubleOfText?_smallNumeral (pointed : numeral.IsPointed) :
    doubleOfText? (smallNumeral numeral) = some (Double.ofDecimal false
      (ofDigits (numeral.whole ++ numeral.fraction))
      (numeral.exponent.elim 0 Exponent.size - numeral.fraction.length)) := by
  obtain ⟨first, rest, head, digit⟩ := exists_smallNumeral numeral
  obtain ⟨noInfinity, noNan⟩ := toLower_of_isDigit digit
  have filled : numeral.whole ≠ [] := by
    obtain ⟨_, _, cut, -⟩ := numeral.exists_whole
    exact cut ▸ List.cons_ne_nil _ _
  have chars := smallNumeral_chars numeral pointed
  have plain : asciiText (smallNumeral numeral) = smallNumeral numeral :=
    asciiText_eq_self (fun c member => (chars c member).1) fun c member => (chars c member).2.1
  have unnamed : ∀ letter rest, letter = 'i' ∨ letter = 'n' →
      (smallNumeral numeral).map Char.toLower ≠ letter :: rest := by
    intro letter rest listed same
    rw [head] at same
    rcases listed with rfl | rfl
    · exact noInfinity (List.cons.inj same).1
    · exact noNan (List.cons.inj same).1
  rw [doubleOfText?, plain, readDouble?, splitSign_smallNumeral]
  simp only [unnamed 'i' _ (.inl rfl), unnamed 'n' _ (.inr rfl), or_self, if_false]
  exact readUnsigned?_pointed numeral.wholeDigit numeral.fractionDigit filled

theorem floatOf_numeral (pointed : numeral.IsPointed) : floatOf numeral.text =
    .ok (Double.ofDecimal numeral.negative (ofDigits (numeral.whole ++ numeral.fraction))
      (numeral.exponent.elim 0 Exponent.size - numeral.fraction.length)) := by
  have read := doubleOfText?_smallNumeral numeral pointed
  have noWord : ∀ rest, smallNumeral numeral ≠ '.' :: rest := by
    obtain ⟨first, tail, head, digit⟩ := exists_smallNumeral numeral
    intro rest same
    rw [head] at same
    rw [(List.cons.inj same).1] at digit
    exact absurd digit (by decide)
  have noColon : (smallNumeral numeral).contains ':' = false := by
    rw [← Bool.not_eq_true, List.contains_iff_mem]
    exact fun member => (smallNumeral_chars numeral pointed ':' member).2.2 rfl
  rw [Double.ofDecimal_of_sign]
  generalize Double.ofDecimal false _ _ = size at read ⊢
  rw [floatOf, floatDigits_numeral numeral pointed]
  simp only [Bind.bind, Except.bind]
  rw [if_neg (show smallNumeral numeral ≠ ".inf".toList from noWord _),
    if_neg (show smallNumeral numeral ≠ ".nan".toList from noWord _), noColon, read]
  rfl

end

end Yaml

/-- What YAML takes JSON leaves for. A number without a point but with an exponent is a text, and so
is one whose exponent has no sign; so are the words for infinities and for no number. -/
def Json.Convention.yaml : Convention where
  number numeral :=
    if numeral.IsPointed ∨ numeral.IsWhole then numeral.value
    else .text (String.ofList numeral.text)
  word word :=
    match word.2 with
    | .float _ => .text (String.ofList word.1)
    | json => Value.ofJson json
  chars piece := (singles piece).map Piece.char

/-! The values of leaves. -/

theorem Json.Numeral.not_isWhole_of_isPointed {numeral : Numeral} (pointed : numeral.IsPointed) :
    ¬ numeral.IsWhole :=
  fun whole => pointed.1 whole.1

namespace Yaml

theorem means_number (numeral : Numeral) :
    (Flow.scalar true numeral.text).Means (Convention.yaml.number numeral) := by
  have tag : scalarTag none true numeral.text = .core (impliedKind numeral.text) := rfl
  have kind := impliedKind_text numeral
  unfold Convention.yaml Numeral.value
  by_cases pointed : numeral.IsPointed
  · have inexact := Numeral.not_isWhole_of_isPointed pointed
    rw [if_pos pointed] at kind
    refine ⟨.float, tag.trans (congrArg _ kind), rfl, ?_⟩
    simp only [pointed, inexact, true_or, if_true, if_false, scalarValue, floatOf_numeral numeral pointed]
    rfl
  rw [if_neg pointed] at kind
  by_cases whole : numeral.IsWhole
  · rw [if_pos whole] at kind
    refine ⟨.int, tag.trans (congrArg _ kind), rfl, ?_⟩
    simp only [whole, or_true, if_true, scalarValue, intOf_numeral numeral whole]
    rfl
  · rw [if_neg whole] at kind
    refine ⟨.text, tag.trans (congrArg _ kind), rfl, ?_⟩
    simp only [pointed, whole, or_self, if_false, scalarValue]

theorem means_word {word : List Char × Json} (listed : word ∈ valueWords) :
    (Flow.scalar true word.1).Means (Convention.yaml.word word) := by
  simp only [valueWords, List.mem_cons, List.not_mem_nil, or_false] at listed
  rcases listed with rfl | rfl | rfl | rfl | rfl | rfl
  · exact ⟨.null, by decide, rfl, rfl⟩
  · exact ⟨.bool, by decide, rfl, rfl⟩
  · exact ⟨.bool, by decide, rfl, rfl⟩
  · exact ⟨.text, by decide, rfl, rfl⟩
  · exact ⟨.text, by decide, rfl, rfl⟩
  · exact ⟨.text, by decide, rfl, rfl⟩

theorem string_eq (pieces : List Piece) :
    Convention.yaml.string pieces = .text (String.ofList (stringText pieces)) := by
  rw [Convention.string, stringText, List.map_flatMap]
  rfl

mutual

theorem means_flow : (source : Source) → source.flow.Means (source.value .yaml)
  | .string pieces => ⟨.text, rfl, rfl, congrArg Except.ok (string_eq pieces).symm⟩
  | .word _ listed => means_word listed
  | .number numeral => means_number numeral
  | .emptyList _ => ⟨[], rfl, rfl⟩
  | .list _ items => ⟨_, mean_items items, rfl⟩
  | .emptyObject _ => ⟨[], rfl, rfl⟩
  | .object _ members => ⟨_, mean_members members, rfl⟩

theorem mean_items : (items : Items) → items.flow.Mean (items.values .yaml)
  | .last item _ => ⟨_, _, means_flow item, rfl, rfl⟩
  | .more item _ _ rest => ⟨_, _, means_flow item, mean_items rest, rfl⟩

theorem mean_members : (members : Members) → members.flow.Mean (members.entries .yaml)
  | .last name _ _ value _ =>
    ⟨_, [], means_flow value, rfl, congrArg (fun key => [(key, value.value .yaml)]) (string_eq name)⟩
  | .more name _ _ value _ _ rest =>
    ⟨_, _, means_flow value, mean_members rest,
      congrArg (fun key => (key, value.value .yaml) :: rest.entries .yaml) (string_eq name)⟩

end

end Yaml

/-! Sources that mean the same by both conventions. -/

mutual

/-- Whether YAML takes every leaf of a source for what it is in JSON: numbers are whole or have a
point and a sign in the exponent, words are null or truth values, and no character of a string is
written as two halves. -/
def Json.Source.IsCommon : Source → Prop
  | .string pieces => ∀ piece ∈ pieces, IsSingle piece
  | .word word _ => ∀ x, word.2 ≠ .float x
  | .number numeral => numeral.IsPointed ∨ numeral.IsWhole
  | .emptyList _ | .emptyObject _ => True
  | .list _ items => items.IsCommon
  | .object _ members => members.IsCommon

def Json.Items.IsCommon : Items → Prop
  | .last item _ => item.IsCommon
  | .more item _ _ rest => item.IsCommon ∧ rest.IsCommon

def Json.Members.IsCommon : Members → Prop
  | .last name _ _ value _ => (∀ piece ∈ name, IsSingle piece) ∧ value.IsCommon
  | .more name _ _ value _ _ rest =>
    (∀ piece ∈ name, IsSingle piece) ∧ value.IsCommon ∧ rest.IsCommon

end

namespace Yaml

theorem string_eq_of_isSingle {pieces : List Piece} (single : ∀ piece ∈ pieces, IsSingle piece) :
    Convention.yaml.string pieces = Convention.json.string pieces := by
  have same : pieces.flatMap Convention.yaml.chars = pieces.flatMap Convention.json.chars := by
    rw [List.flatMap_def, List.flatMap_def]
    refine congrArg List.flatten (List.map_congr_left fun piece member => ?_)
    cases piece with
    | pair => exact (single _ member).elim
    | plain | short | unit => rfl
  rw [Convention.string, Convention.string, same]

theorem word_eq {word : List Char × Json} (finite : ∀ x, word.2 ≠ .float x) :
    Convention.yaml.word word = Convention.json.word word := by
  unfold Convention.yaml Convention.json
  dsimp only
  split
  case h_1 x same => exact absurd same (finite x)
  case h_2 => rfl

mutual

theorem value_eq : (source : Source) → source.IsCommon → source.value .yaml = source.value .json
  | .string _, common => string_eq_of_isSingle common
  | .word _ _, common => word_eq common
  | .number _, common => if_pos common
  | .emptyList _, _ | .emptyObject _, _ => rfl
  | .list _ items, common => congrArg Value.list (values_eq items common)
  | .object _ members, common =>
    congrArg (fun read => Value.map (collectEntries Value.same read)) (entries_eq members common)

theorem values_eq : (items : Items) → items.IsCommon → items.values .yaml = items.values .json
  | .last item _, common => congrArg (fun value => [value]) (value_eq item common)
  | .more item _ _ rest, common => by
    rw [Items.values, Items.values, value_eq item common.1, values_eq rest common.2]

theorem entries_eq : (members : Members) → members.IsCommon →
    members.entries .yaml = members.entries .json
  | .last name _ _ value _, common => by
    rw [Members.entries, Members.entries, string_eq_of_isSingle common.1, value_eq value common.2]
  | .more name _ _ value _ _ rest, common => by
    rw [Members.entries, Members.entries, string_eq_of_isSingle common.1,
      value_eq value common.2.1, entries_eq rest common.2.2]

end

end Yaml

end ApiCatalog
