import ApiCatalog.Extract.TagPolicy
import ApiCatalog.Proofs.Document.Access
import ApiCatalog.Proofs.Text.Capitals
import ApiCatalog.Proofs.Text.Cuts

/-!
Words of a name and their spellings. The dashed, the joined and the spaced spelling of the same words
have one dash case and one camel case, and camel case takes back what dash case does to a name.
-/

namespace ApiCatalog.Naming

open Text

theorem toNat_lt_of_isAsciiCapital {c : Char} (capital : isAsciiCapital c = true) :
    c.toNat < 128 := by
  have upper : c ≤ 'Z' := of_decide_eq_true (Bool.and_eq_true_iff.mp capital).2
  exact Nat.lt_of_le_of_lt (Char.le_def.mp upper) (by decide)

theorem toUpper_toLower_of_isAsciiCapital {c : Char} (capital : isAsciiCapital c = true) :
    c.toLower.toUpper = c := by
  refine forall_ascii (fun c => isAsciiCapital c = true → c.toLower.toUpper = c) ?_
    (toNat_lt_of_isAsciiCapital capital) capital
  decide

/-! Names without a joint of one kind split at the other. -/

theorem wordsOf_of_no_space {name : List Char} (solid : ' ' ∉ name) :
    wordsOf name = name.splitOn '-' := by
  unfold wordsOf
  by_cases dashed : '-' ∈ name
  · simp [dashed]
  · simp [dashed, solid, List.splitOn_eq_singleton dashed]

theorem wordsOf_of_no_dash {name : List Char} (plain : '-' ∉ name) :
    wordsOf name = name.splitOn ' ' := by
  unfold wordsOf
  by_cases spaced : ' ' ∈ name
  · simp [plain, spaced]
  · simp [plain, spaced, List.splitOn_eq_singleton spaced]

theorem filter_space_eq_self {name : List Char} (solid : ' ' ∉ name) :
    name.filter (· != ' ') = name := by
  refine List.filter_eq_self.mpr fun c member => ?_
  simpa using fun same : c = ' ' => solid (same ▸ member)

/-! Words of small letters. -/

def isSmall (c : Char) : Bool :=
  c.isLower || c.isDigit

def isSmallWord : List Char → Bool
  | [] => false
  | first :: rest => first.isLower && rest.all isSmall

theorem toNat_lt_of_isSmall {c : Char} (small : isSmall c = true) : c.toNat < 128 :=
  (Bool.or_eq_true_iff.mp small).elim ascii_of_isLower ascii_of_isDigit

theorem isSmall_ne {c : Char} (small : isSmall c = true) :
    isAsciiCapital c = false ∧ c ≠ '-' ∧ c ≠ ' ' := by
  refine forall_ascii (fun c => isSmall c = true → isAsciiCapital c = false ∧ c ≠ '-' ∧ c ≠ ' ')
    ?_ (toNat_lt_of_isSmall small) small
  decide

theorem toUpper_of_isLower {c : Char} (letter : c.isLower = true) :
    isAsciiCapital c.toUpper = true ∧ c.toUpper.toLower = c ∧ c.toUpper.toUpper = c.toUpper ∧
      c.toUpper ≠ '-' ∧ c.toUpper ≠ ' ' := by
  refine forall_ascii (fun c => c.isLower = true → isAsciiCapital c.toUpper = true ∧
    c.toUpper.toLower = c ∧ c.toUpper.toUpper = c.toUpper ∧ c.toUpper ≠ '-' ∧ c.toUpper ≠ ' ')
    ?_ (toNat_lt_of_isSmall (Bool.or_eq_true_iff.mpr (.inl letter))) letter
  decide

section

variable {word : List Char}

theorem exists_letter_of_isSmallWord (small : isSmallWord word = true) :
    ∃ first rest, word = first :: rest ∧ first.isLower = true ∧
      (∀ c ∈ rest, isSmall c = true) ∧ capitalize word = first.toUpper :: rest := by
  cases word with
  | nil => exact absurd small Bool.false_ne_true
  | cons first rest =>
    obtain ⟨letter, others⟩ := Bool.and_eq_true_iff.mp small
    have ascii := toNat_lt_of_isSmall (Bool.or_eq_true_iff.mpr (.inl letter))
    refine ⟨first, rest, rfl, letter, List.all_eq_true.mp others, ?_⟩
    rw [capitalize, upperChar_of_ascii ascii, List.singleton_append]

theorem isSmall_of_mem (small : isSmallWord word = true) : ∀ c ∈ word, isSmall c = true := by
  obtain ⟨first, rest, rfl, letter, others, -⟩ := exists_letter_of_isSmallWord small
  intro c member
  rcases List.mem_cons.mp member with rfl | later
  · exact Bool.or_eq_true_iff.mpr (.inl letter)
  · exact others c later

theorem ne_of_mem_capitalize (small : isSmallWord word = true) :
    ∀ c ∈ capitalize word, c ≠ '-' ∧ c ≠ ' ' := by
  obtain ⟨first, rest, -, letter, others, capital⟩ := exists_letter_of_isSmallWord small
  rw [capital]
  intro c member
  rcases List.mem_cons.mp member with rfl | later
  · exact (toUpper_of_isLower letter).2.2.2
  · exact (isSmall_ne (others c later)).2

theorem capitalize_capitalize (small : isSmallWord word = true) :
    capitalize (capitalize word) = capitalize word := by
  obtain ⟨first, rest, -, letter, -, capital⟩ := exists_letter_of_isSmallWord small
  have ascii := toUpper_ascii (toNat_lt_of_isSmall (Bool.or_eq_true_iff.mpr (.inl letter)))
  rw [capital, capitalize, upperChar_of_ascii ascii, (toUpper_of_isLower letter).2.2.1,
    List.singleton_append]

theorem dashCapitals_eq_self {text : List Char} (plain : ∀ c ∈ text, isAsciiCapital c = false) :
    dashCapitals text = text := by
  induction text with
  | nil => rfl
  | cons c rest ih =>
    have others := ih fun d member => plain d (List.mem_cons_of_mem c member)
    rw [dashCapitals, List.flatMap_cons, if_neg (by simp [plain c List.mem_cons_self])]
    exact congrArg (c :: ·) others

theorem dashCapitals_append (front back : List Char) :
    dashCapitals (front ++ back) = dashCapitals front ++ dashCapitals back :=
  List.flatMap_append

theorem dashCapitals_capitalize (small : isSmallWord word = true) :
    dashCapitals (capitalize word) = '-' :: word := by
  obtain ⟨first, rest, rfl, letter, others, capital⟩ := exists_letter_of_isSmallWord small
  obtain ⟨isCapital, back, -⟩ := toUpper_of_isLower letter
  rw [capital, dashCapitals, List.flatMap_cons, if_pos isCapital, back]
  exact congrArg (['-', first] ++ ·) (dashCapitals_eq_self fun c member =>
    (isSmall_ne (others c member)).1)

end

/-! Spellings. -/

inductive Spelling
  | dashed
  | joined
  | spaced
deriving DecidableEq

/-- Words in a spelling: small between dashes, or capitalised, together or between spaces. -/
def Spelling.write : Spelling → List (List Char) → List Char
  | .dashed, words => List.intercalate ['-'] words
  | .joined, words => words.flatMap capitalize
  | .spaced, words => List.intercalate [' '] (words.map capitalize)

section

variable {words : List (List Char)}

theorem dashCapitals_joined (small : ∀ word ∈ words, isSmallWord word = true) :
    dashCapitals (words.flatMap capitalize) = words.flatMap ('-' :: ·) := by
  induction words with
  | nil => rfl
  | cons word words ih =>
    rw [List.flatMap_cons, dashCapitals_append,
      dashCapitals_capitalize (small word List.mem_cons_self),
      ih fun other member => small other (List.mem_cons_of_mem word member), List.flatMap_cons]

theorem flatMap_dash (filled : words ≠ []) :
    words.flatMap ('-' :: ·) = '-' :: List.intercalate ['-'] words := by
  induction words with
  | nil => exact absurd rfl filled
  | cons word words ih =>
    cases words with
    | nil => simp
    | cons next words =>
      rw [List.flatMap_cons, ih (List.cons_ne_nil next words), List.intercalate_cons_cons]
      simp

theorem filter_space_intercalate (solid : ∀ word ∈ words, ' ' ∉ word) :
    (List.intercalate [' '] words).filter (· != ' ') = words.flatten := by
  induction words with
  | nil => rfl
  | cons word words ih =>
    have first := filter_space_eq_self (solid word List.mem_cons_self)
    have others := ih fun other member => solid other (List.mem_cons_of_mem word member)
    cases words with
    | nil => simpa using first
    | cons next words =>
      rw [List.intercalate_cons_cons, List.filter_append, List.filter_append, first, others]
      simp

theorem space_not_mem_capitalize (small : ∀ word ∈ words, isSmallWord word = true) :
    ∀ word ∈ words.map capitalize, ' ' ∉ word := by
  intro word member
  obtain ⟨source, listed, rfl⟩ := List.mem_map.mp member
  exact fun inside => (ne_of_mem_capitalize (small source listed) ' ' inside).2 rfl

theorem not_mem_joined (small : ∀ word ∈ words, isSmallWord word = true) :
    '-' ∉ words.flatMap capitalize ∧ ' ' ∉ words.flatMap capitalize := by
  constructor
  all_goals
    intro member
    obtain ⟨word, listed, inside⟩ := List.mem_flatMap.mp member
    obtain ⟨noDash, noSpace⟩ := ne_of_mem_capitalize (small word listed) _ inside
    contradiction

theorem mem_intercalate {c mark : Char} (member : c ∈ List.intercalate [mark] words) :
    c = mark ∨ ∃ word ∈ words, c ∈ word := by
  induction words with
  | nil => exact absurd member List.not_mem_nil
  | cons word words ih =>
    cases words with
    | nil => exact .inr ⟨word, List.mem_cons_self, by simpa using member⟩
    | cons next words =>
      rw [List.intercalate_cons_cons, List.append_assoc, List.mem_append, List.mem_append,
        List.mem_singleton] at member
      rcases member with inside | same | later
      · exact .inr ⟨word, List.mem_cons_self, inside⟩
      · exact .inl same
      · exact (ih later).imp_right fun ⟨other, listed, inside⟩ =>
          ⟨other, List.mem_cons_of_mem word listed, inside⟩

theorem dashCase_joined (filled : words ≠ []) (small : ∀ word ∈ words, isSmallWord word = true) :
    dashCase (Spelling.joined.write words) = Spelling.dashed.write words := by
  have solid : (Spelling.joined.write words).filter (· != ' ') = words.flatMap capitalize :=
    filter_space_eq_self (not_mem_joined small).2
  rw [dashCase, solid, dashCapitals_joined small, flatMap_dash filled]
  rfl

theorem dashCase_spaced (filled : words ≠ []) (small : ∀ word ∈ words, isSmallWord word = true) :
    dashCase (Spelling.spaced.write words) = Spelling.dashed.write words := by
  have solid : (Spelling.spaced.write words).filter (· != ' ') = words.flatMap capitalize :=
    filter_space_intercalate (space_not_mem_capitalize small)
  rw [dashCase, solid, dashCapitals_joined small, flatMap_dash filled]
  rfl

theorem dashCase_dashed (small : ∀ word ∈ words, isSmallWord word = true) :
    dashCase (Spelling.dashed.write words) = Spelling.dashed.write words := by
  have each : ∀ c ∈ Spelling.dashed.write words, c = '-' ∨ isSmall c = true := by
    intro c member
    refine (mem_intercalate member).imp_right ?_
    rintro ⟨word, listed, inside⟩
    exact isSmall_of_mem (small word listed) c inside
  have solid : ' ' ∉ Spelling.dashed.write words := fun member =>
    (each ' ' member).elim (by decide) fun some => (isSmall_ne some).2.2 rfl
  have plain : ∀ c ∈ Spelling.dashed.write words, isAsciiCapital c = false := by
    intro c member
    rcases each c member with rfl | some
    · rfl
    · exact (isSmall_ne some).1
  rw [dashCase, filter_space_eq_self solid, dashCapitals_eq_self plain]
  -- The first word begins with a letter, so there is no leading dash.
  cases words with
  | nil => rfl
  | cons word words =>
    obtain ⟨first, rest, rfl, letter, -, -⟩ :=
      exists_letter_of_isSmallWord (small word List.mem_cons_self)
    have head : first ≠ '-' := (isSmall_ne (Bool.or_eq_true_iff.mpr (.inl letter))).2.1
    obtain ⟨more, same⟩ : ∃ more, Spelling.dashed.write ((first :: rest) :: words) = first :: more := by
      cases words with
      | nil => exact ⟨rest, by simp [Spelling.write]⟩
      | cons next words => exact ⟨_, by rw [Spelling.write, List.intercalate_cons_cons]; rfl⟩
    rw [same, dropLeadingDash]
    rintro other ⟨⟩
    exact head rfl

theorem dashCase_write (form : Spelling) (filled : words ≠ [])
    (small : ∀ word ∈ words, isSmallWord word = true) :
    dashCase (form.write words) = Spelling.dashed.write words := by
  cases form with
  | dashed => exact dashCase_dashed small
  | joined => exact dashCase_joined filled small
  | spaced => exact dashCase_spaced filled small

theorem dashDefault_write (form : Spelling) {last : List Char} (filled : words ≠ [])
    (small : ∀ word ∈ words ++ [last], isSmallWord word = true) :
    dashDefault (form.write (words ++ [last])) ('-' :: last) = Spelling.dashed.write words := by
  have cut : dropEnd? ('-' :: last) (Spelling.dashed.write (words ++ [last])) =
      some (Spelling.dashed.write words) := by
    rw [dropEnd?_eq_some_iff, Spelling.write, intercalate_append filled]
    simp [Spelling.write]
  rw [dashDefault, dashCase_write form (by simp) small, cut, Option.getD_some]

/-! Camel case of the spellings. -/

theorem filter_filled (small : ∀ word ∈ words, isSmallWord word = true) :
    words.filter (fun word => !word.isEmpty) = words := by
  refine List.filter_eq_self.mpr fun word listed => ?_
  obtain ⟨first, rest, rfl, -⟩ := exists_letter_of_isSmallWord (small word listed)
  rfl

theorem wordsOf_dashed (filled : words ≠ []) (small : ∀ word ∈ words, isSmallWord word = true) :
    wordsOf (Spelling.dashed.write words) = words := by
  have solid : ' ' ∉ Spelling.dashed.write words := by
    intro member
    obtain same | ⟨word, listed, inside⟩ := mem_intercalate member
    · exact absurd same (by decide)
    · exact (isSmall_ne (isSmall_of_mem (small word listed) ' ' inside)).2.2 rfl
  rw [wordsOf_of_no_space solid, Spelling.write, List.splitOn_intercalate _ _ filled]
  intro word listed inside
  exact (isSmall_ne (isSmall_of_mem (small word listed) '-' inside)).2.1 rfl

theorem wordsOf_joined (small : ∀ word ∈ words, isSmallWord word = true) :
    wordsOf (Spelling.joined.write words) = [Spelling.joined.write words] := by
  obtain ⟨plain, solid⟩ := not_mem_joined small
  exact (wordsOf_of_no_space solid).trans (List.splitOn_eq_singleton plain)

theorem wordsOf_spaced (filled : words ≠ []) (small : ∀ word ∈ words, isSmallWord word = true) :
    wordsOf (Spelling.spaced.write words) = words.map capitalize := by
  have plain : '-' ∉ Spelling.spaced.write words := by
    intro member
    obtain same | ⟨word, listed, inside⟩ := mem_intercalate member
    · exact absurd same (by decide)
    · obtain ⟨source, known, rfl⟩ := List.mem_map.mp listed
      exact (ne_of_mem_capitalize (small source known) '-' inside).1 rfl
  rw [wordsOf_of_no_dash plain, Spelling.write,
    List.splitOn_intercalate _ (space_not_mem_capitalize small) (by simpa using filled)]

theorem flatMap_capitalize_capitalize (small : ∀ word ∈ words, isSmallWord word = true) :
    (words.map capitalize).flatMap capitalize = words.flatMap capitalize := by
  rw [List.flatMap_map]
  exact List.flatMap_congr fun word listed => capitalize_capitalize (small word listed)

theorem capitalize_joined (small : ∀ word ∈ words, isSmallWord word = true) :
    capitalize (words.flatMap capitalize) = words.flatMap capitalize := by
  cases words with
  | nil => rfl
  | cons word words =>
    obtain ⟨first, rest, -, letter, -, capital⟩ :=
      exists_letter_of_isSmallWord (small word List.mem_cons_self)
    have ascii := toUpper_ascii (toNat_lt_of_isSmall (Bool.or_eq_true_iff.mpr (.inl letter)))
    rw [List.flatMap_cons, capital, List.cons_append, capitalize, upperChar_of_ascii ascii,
      (toUpper_of_isLower letter).2.2.1, List.singleton_append]

theorem filter_capitalized (small : ∀ word ∈ words, isSmallWord word = true) :
    (words.map capitalize).filter (fun word => !word.isEmpty) = words.map capitalize := by
  refine List.filter_eq_self.mpr fun word listed => ?_
  obtain ⟨source, known, rfl⟩ := List.mem_map.mp listed
  obtain ⟨first, rest, -, -, -, capital⟩ := exists_letter_of_isSmallWord (small source known)
  rw [capital]
  rfl

theorem camelCase_write (form : Spelling) (filled : words ≠ [])
    (small : ∀ word ∈ words, isSmallWord word = true) :
    camelCase (form.write words) = uncapitalize (Spelling.joined.write words) := by
  cases form with
  | dashed => rw [camelCase, wordsOf_dashed filled small, filter_filled small]; rfl
  | joined =>
    have some : (words.flatMap capitalize).isEmpty = false := by
      obtain ⟨word, others, rfl⟩ := List.exists_cons_of_ne_nil filled
      obtain ⟨first, rest, -, -, -, capital⟩ :=
        exists_letter_of_isSmallWord (small word List.mem_cons_self)
      rw [List.flatMap_cons, capital]
      rfl
    rw [camelCase, wordsOf_joined small]
    simp [Spelling.write, some, capitalize_joined small]
  | spaced =>
    rw [camelCase, wordsOf_spaced filled small, filter_capitalized small,
      flatMap_capitalize_capitalize small]
    rfl

end

theorem orElse_emptyText (s : String) : (Value.text s).orElse .emptyText = .text s := by
  by_cases empty : s = ""
  · rw [empty]
    rfl
  · exact Value.orElse_text empty .emptyText

theorem isPlaceholder_of_dashDefault {policy : TagPolicy} {tag : Value} {name description : String}
    (skips : policy.skipPlaceholders = true) (named : tag.field "name" = .ok (.text name))
    (described : tag.field "description" = .ok (.text description))
    (same : dashDefault name.toList policy.controllerSuffix.toList =
      dashDefault description.toList policy.controllerSuffix.toList) :
    policy.isPlaceholder tag = .ok true := by
  have name' : Tag.name tag = .ok (.text name) := by
    rw [Tag.name, named]
    exact congrArg Except.ok (orElse_emptyText name)
  have description' : Tag.description tag = .ok (.text description) := by
    rw [Tag.description, described]
    exact congrArg Except.ok (orElse_emptyText description)
  rw [TagPolicy.isPlaceholder, skips, name', description']
  show Except.ok _ = _
  rw [same, beq_self_eq_true]

/-- Two or more words have one dash case and one camel case in all their spellings, and a tag that is
named by one of them and described by another is a placeholder if the last word does not count. -/
theorem spellings_agree {words : List (List Char)} {last : List Char} (filled : words ≠ [])
    (small : ∀ word ∈ words ++ [last], isSmallWord word = true) :
    (∀ form : Spelling,
      dashCase (form.write (words ++ [last])) = Spelling.dashed.write (words ++ [last]) ∧
      dashDefault (form.write (words ++ [last])) ('-' :: last) = Spelling.dashed.write words ∧
      camelCase (form.write (words ++ [last])) =
        uncapitalize (Spelling.joined.write (words ++ [last]))) ∧
    ∀ (policy : TagPolicy) (tag : Value) (first second : Spelling),
      policy.skipPlaceholders = true → policy.controllerSuffix.toList = '-' :: last →
      tag.field "name" = .ok (.text (String.ofList (first.write (words ++ [last])))) →
      tag.field "description" = .ok (.text (String.ofList (second.write (words ++ [last])))) →
        policy.isPlaceholder tag = .ok true := by
  refine ⟨fun form => ⟨dashCase_write form (by simp) small, dashDefault_write form filled small,
    camelCase_write form (by simp) small⟩, ?_⟩
  intro policy tag first second skips ending named described
  refine isPlaceholder_of_dashDefault skips named described ?_
  rw [ending, String.toList_ofList, String.toList_ofList, dashDefault_write first filled small,
    dashDefault_write second filled small]

theorem spellings_of_orderItem :
    (∀ form : Spelling,
      dashCase (form.write ["order".toList, "item2".toList, "controller".toList]) =
        "order-item2-controller".toList ∧
      dashDefault (form.write ["order".toList, "item2".toList, "controller".toList])
        "-controller".toList = "order-item2".toList ∧
      camelCase (form.write ["order".toList, "item2".toList, "controller".toList]) =
        "orderItem2Controller".toList) ∧
    TagPolicy.standard.isPlaceholder (.map [(.text "name", .text "order-item2-controller"),
      (.text "description", .text "Order Item2 Controller")]) = .ok true := by
  have filled : ["order".toList, "item2".toList] ≠ [] := by decide
  have small : ∀ word ∈ ["order".toList, "item2".toList] ++ ["controller".toList],
      isSmallWord word = true := by decide
  obtain ⟨forms, placeholder⟩ := spellings_agree filled small
  exact ⟨forms, placeholder .standard _ .dashed .spaced rfl rfl rfl rfl⟩

/-! Camel case takes back dash case. -/

theorem isSmall_toLower_of_isAsciiCapital {c : Char} (capital : isAsciiCapital c = true) :
    isSmall c.toLower = true := by
  refine forall_ascii (fun c => isAsciiCapital c = true → isSmall c.toLower = true) ?_
    (toNat_lt_of_isAsciiCapital capital) capital
  decide

theorem splitOn_dashCapitals {text : List Char} (plain : '-' ∉ text) :
    ∃ first more, (dashCapitals text).splitOn '-' = first :: more ∧ (∀ piece ∈ more, piece ≠ []) ∧
      first ++ more.flatMap capitalize = text := by
  induction text with
  | nil => exact ⟨[], [], rfl, by simp, rfl⟩
  | cons c rest ih =>
    obtain ⟨noDash, others⟩ : '-' ≠ c ∧ '-' ∉ rest := by simpa using plain
    obtain ⟨first, more, pieces, filled, whole⟩ := ih others
    by_cases capital : isAsciiCapital c = true
    · have small : (c.toLower == '-') = false :=
        beq_eq_false_iff_ne.mpr (isSmall_ne (isSmall_toLower_of_isAsciiCapital capital)).2.1
      have cut : dashCapitals (c :: rest) = '-' :: c.toLower :: dashCapitals rest := by
        rw [dashCapitals, List.flatMap_cons, if_pos capital]
        rfl
      refine ⟨[], (c.toLower :: first) :: more, ?_, ?_, ?_⟩
      · rw [cut, List.splitOn_cons_eq_if_modifyHead, List.splitOn_cons_eq_if_modifyHead, small, pieces]
        simp
      · simpa using filled
      · have ascii := toLower_ascii (toNat_lt_of_isAsciiCapital capital)
        rw [List.nil_append, List.flatMap_cons, capitalize, upperChar_of_ascii ascii,
          toUpper_toLower_of_isAsciiCapital capital, ← whole]
        rfl
    · have cut : dashCapitals (c :: rest) = c :: dashCapitals rest := by
        rw [dashCapitals, List.flatMap_cons, if_neg capital]
        rfl
      refine ⟨c :: first, more, ?_, filled, by rw [List.cons_append, whole]⟩
      rw [cut, List.splitOn_cons_eq_if_modifyHead, pieces]
      simp [Ne.symm noDash]

theorem mem_dashCapitals {c : Char} {text : List Char} (member : c ∈ dashCapitals text) :
    c = '-' ∨ c ∈ text ∨ isSmall c = true := by
  obtain ⟨source, listed, inside⟩ := List.mem_flatMap.mp member
  split at inside
  · rename_i capital
    rcases List.mem_cons.mp inside with same | later
    · exact .inl same
    · obtain rfl := List.mem_singleton.mp later
      exact .inr (.inr (isSmall_toLower_of_isAsciiCapital capital))
  · obtain rfl := List.mem_singleton.mp inside
    exact .inr (.inl listed)

theorem dashCase_cons {c : Char} {rest : List Char} (plain : '-' ∉ c :: rest)
    (solid : ' ' ∉ c :: rest) :
    dashCase (c :: rest) = (if isAsciiCapital c then c.toLower else c) :: dashCapitals rest := by
  rw [dashCase, filter_space_eq_self solid, dashCapitals, List.flatMap_cons]
  by_cases capital : isAsciiCapital c = true
  · rw [if_pos capital, if_pos capital]
    rfl
  · rw [if_neg capital, if_neg capital, List.singleton_append, dropLeadingDash]
    · rfl
    · rintro other ⟨⟩
      exact plain List.mem_cons_self

theorem camelCase_cons_dashCapitals {d : Char} {rest : List Char} (low : d.toNat < 128)
    (apart : d ≠ '-' ∧ d ≠ ' ') (plain : '-' ∉ rest) (solid : ' ' ∉ rest) :
    camelCase (d :: dashCapitals rest) = d.toUpper.toLower :: rest := by
  obtain ⟨first, more, pieces, filled, whole⟩ := splitOn_dashCapitals plain
  have noSpace : ' ' ∉ d :: dashCapitals rest := by
    intro member
    rcases List.mem_cons.mp member with same | later
    · exact apart.2 same.symm
    · rcases mem_dashCapitals later with dash | inside | small
      · exact absurd dash (by decide)
      · exact solid inside
      · exact (isSmall_ne small).2.2 rfl
  have words : wordsOf (d :: dashCapitals rest) = (d :: first) :: more := by
    rw [wordsOf_of_no_space noSpace, List.splitOn_cons_eq_if_modifyHead, pieces]
    simp [apart.1]
  have kept : ((d :: first) :: more).filter (fun word => !word.isEmpty) = (d :: first) :: more := by
    refine List.filter_eq_self.mpr fun word listed => ?_
    rcases List.mem_cons.mp listed with rfl | later
    · rfl
    · simpa using filled word later
  rw [camelCase, words, kept, List.flatMap_cons, capitalize, upperChar_of_ascii low,
    List.singleton_append, List.cons_append, whole, uncapitalize,
    lower_of_ascii (toUpper_ascii low), List.singleton_append]

theorem camelCase_dashCase {name : List Char} (plain : '-' ∉ name) (solid : ' ' ∉ name)
    (ascii : ∀ c ∈ name.head?, c.toNat < 128) : camelCase (dashCase name) = uncapitalize name := by
  cases name with
  | nil => rfl
  | cons c rest =>
    have low : c.toNat < 128 := ascii c rfl
    have noDash : '-' ∉ rest := fun member => plain (List.mem_cons_of_mem c member)
    have noSpace : ' ' ∉ rest := fun member => solid (List.mem_cons_of_mem c member)
    rw [dashCase_cons plain solid, uncapitalize, lower_of_ascii low, List.singleton_append]
    by_cases capital : isAsciiCapital c = true
    · have small := isSmall_toLower_of_isAsciiCapital capital
      rw [if_pos capital, camelCase_cons_dashCapitals (toLower_ascii low) (isSmall_ne small).2 noDash
        noSpace, toUpper_toLower low, toLower_toUpper low]
    · have apart : c ≠ '-' ∧ c ≠ ' ' :=
        ⟨fun same => plain (same ▸ List.mem_cons_self), fun same => solid (same ▸ List.mem_cons_self)⟩
      rw [if_neg capital, camelCase_cons_dashCapitals low apart noDash noSpace, toLower_toUpper low]

/-- A name in one piece, in ASCII at its head. -/
structure IsSolid (name : List Char) : Prop where
  noDash : '-' ∉ name
  noSpace : ' ' ∉ name
  ascii : ∀ c ∈ name.head?, c.toNat < 128

/-- Camel case takes back dash case up to the case of the first letter, so two names have the same
dash case only if they differ in nothing else. -/
theorem camelCase_dashCase_and_inj {name other : List Char} (solid : IsSolid name)
    (solidToo : IsSolid other) :
    camelCase (dashCase name) = uncapitalize name ∧
      (dashCase name = dashCase other → name.tail = other.tail ∧
        name.head?.map Char.toLower = other.head?.map Char.toLower) := by
  have back := camelCase_dashCase solid.noDash solid.noSpace solid.ascii
  refine ⟨back, fun same => ?_⟩
  have backToo := camelCase_dashCase solidToo.noDash solidToo.noSpace solidToo.ascii
  rw [same, backToo] at back
  have small {text : List Char} (ascii : ∀ c ∈ text.head?, c.toNat < 128) :
      uncapitalize text = (text.head?.map Char.toLower).toList ++ text.tail := by
    cases text with
    | nil => rfl
    | cons c rest => rw [uncapitalize, lower_of_ascii (ascii c rfl)]; rfl
  rw [small solid.ascii, small solidToo.ascii] at back
  cases name <;> cases other <;> simp_all

theorem camelCase_dashCase_petHTTPError :
    camelCase (dashCase "PetHTTPError_Ü2".toList) = "petHTTPError_Ü2".toList ∧
      dashCase "PetHTTPError_Ü2".toList = dashCase "petHTTPError_Ü2".toList ∧
      "PetHTTPError_Ü2".toList.tail = "petHTTPError_Ü2".toList.tail := by
  have upper : IsSolid "PetHTTPError_Ü2".toList := ⟨by decide, by decide, by simp⟩
  have lower : IsSolid "petHTTPError_Ü2".toList := ⟨by decide, by decide, by simp⟩
  have same : dashCase "PetHTTPError_Ü2".toList = dashCase "petHTTPError_Ü2".toList := by decide
  obtain ⟨back, apart⟩ := camelCase_dashCase_and_inj upper lower
  exact ⟨back, same, (apart same).1⟩

end ApiCatalog.Naming
