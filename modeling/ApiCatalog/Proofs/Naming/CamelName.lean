import ApiCatalog.Proofs.Naming.RouteTemplate
import ApiCatalog.Proofs.Naming.WordCase

/-!
Names in camel case. They hold no dash, and a space exactly if the name is split at dashes and has
spaces besides.
-/

namespace ApiCatalog.Naming

open Text

/-! Signs keep out of letters. -/

theorem upperChar_of_isSign {sign : Char} (isSign : IsSign sign) : upperChar sign = [sign] := by
  have same : sign.toUpper = sign := by
    refine forall_ascii (fun c => c.isAlpha = false → c.toUpper = c) ?_ isSign.ascii isSign.plain
    decide
  rw [upperChar_of_ascii isSign.ascii, same]

theorem lower_of_isSign {sign : Char} (isSign : IsSign sign) : lower [sign] = [sign] := by
  have same : sign.toLower = sign := by
    refine forall_ascii (fun c => c.isAlpha = false → c.toLower = c) ?_ isSign.ascii isSign.plain
    decide
  rw [lower_of_ascii isSign.ascii, same]

theorem mem_capitalize_iff {sign : Char} (isSign : IsSign sign) {text : List Char} :
    sign ∈ capitalize text ↔ sign ∈ text := by
  refine ⟨mem_of_mem_capitalize isSign, fun member => ?_⟩
  cases text with
  | nil => exact member
  | cons c rest =>
    refine List.mem_append.mpr ((List.mem_cons.mp member).imp_left ?_)
    rintro rfl
    simp [upperChar_of_isSign isSign]

theorem mem_uncapitalize_iff {sign : Char} (isSign : IsSign sign) {text : List Char} :
    sign ∈ uncapitalize text ↔ sign ∈ text := by
  cases text with
  | nil => exact Iff.rfl
  | cons c rest =>
    rw [uncapitalize, List.mem_append, List.mem_cons]
    refine or_congr_left ⟨fun member => ?_, ?_⟩
    · exact eq_of_mem_lower isSign member
    · rintro rfl
      simp [lower_of_isSign isSign]

theorem mem_camelCase_iff {sign : Char} (isSign : IsSign sign) {name : List Char} :
    sign ∈ camelCase name ↔ ∃ word ∈ wordsOf name, sign ∈ word := by
  rw [camelCase, mem_uncapitalize_iff isSign, List.mem_flatMap]
  constructor
  · rintro ⟨word, listed, inside⟩
    exact ⟨word, (List.mem_filter.mp listed).1, (mem_capitalize_iff isSign).mp inside⟩
  · rintro ⟨word, listed, inside⟩
    refine ⟨word, List.mem_filter.mpr ⟨listed, ?_⟩, (mem_capitalize_iff isSign).mpr inside⟩
    cases word with
    | nil => exact absurd inside List.not_mem_nil
    | cons c rest => rfl

theorem mem_splitOn_iff {c mark : Char} (other : c ≠ mark) {text : List Char} :
    (∃ piece ∈ text.splitOn mark, c ∈ piece) ↔ c ∈ text := by
  have whole : List.intercalate [mark] (text.splitOn mark) = text :=
    List.intercalate_splitOn mark
  constructor
  · rintro ⟨piece, listed, inside⟩
    rw [← whole]
    exact (infix_intercalate listed).subset inside
  · intro member
    rw [← whole] at member
    exact (mem_intercalate member).resolve_left other

theorem dash_not_mem_camelCase (name : List Char) : '-' ∉ camelCase name := by
  rw [mem_camelCase_iff ⟨by decide, by decide⟩]
  rintro ⟨word, listed, inside⟩
  by_cases dashed : '-' ∈ name
  · have words : wordsOf name = name.splitOn '-' := by simp [wordsOf, dashed]
    exact not_mem_of_mem_splitOn (words ▸ listed) inside
  · rw [wordsOf_of_no_dash dashed] at listed
    exact dashed ((mem_splitOn_iff (by decide)).mp ⟨word, listed, inside⟩)

theorem space_mem_camelCase_iff (name : List Char) :
    ' ' ∈ camelCase name ↔ '-' ∈ name ∧ ' ' ∈ name := by
  rw [mem_camelCase_iff ⟨by decide, by decide⟩]
  by_cases dashed : '-' ∈ name
  · have words : wordsOf name = name.splitOn '-' := by simp [wordsOf, dashed]
    rw [words, mem_splitOn_iff (by decide)]
    simp [dashed]
  · rw [wordsOf_of_no_dash dashed]
    simp only [dashed, false_and, iff_false]
    rintro ⟨word, listed, inside⟩
    exact not_mem_of_mem_splitOn listed inside

/-! A second pass. -/

def recase (text : List Char) : List Char :=
  uncapitalize (capitalize text)

theorem mapCase_ne_nil {sequences : List (Nat × List Nat)} (runs : List CaseRun)
    (filled : ∀ entry ∈ sequences, entry.2 ≠ []) (c : Char) : mapCase sequences runs c ≠ [] := by
  unfold mapCase
  split
  · rename_i points found
    simpa using filled _ (List.mem_of_find?_eq_some found)
  · exact List.cons_ne_nil _ _

theorem upperChar_ne_nil (c : Char) : upperChar c ≠ [] := by
  unfold upperChar
  split
  · exact List.cons_ne_nil _ _
  · exact mapCase_ne_nil _ (by decide) c

theorem lower_ne_nil (c : Char) : lower [c] ≠ [] := by
  unfold lower lowerAfter
  split
  · exact List.cons_ne_nil _ _
  · refine fun empty => ?_
    have single : lowerChar c ≠ [] := by
      unfold lowerChar
      split
      · exact List.cons_ne_nil _ _
      · exact mapCase_ne_nil _ (by decide) c
    exact single (List.append_eq_nil_iff.mp empty).1

theorem uncapitalize_append {text : List Char} (filled : text ≠ []) (rest : List Char) :
    uncapitalize (text ++ rest) = uncapitalize text ++ rest := by
  obtain ⟨c, more, rfl⟩ := List.exists_cons_of_ne_nil filled
  exact (List.append_assoc _ _ _).symm

theorem capitalize_append {text : List Char} (filled : text ≠ []) (rest : List Char) :
    capitalize (text ++ rest) = capitalize text ++ rest := by
  obtain ⟨c, more, rfl⟩ := List.exists_cons_of_ne_nil filled
  exact (List.append_assoc _ _ _).symm

theorem capitalize_ne_nil {text : List Char} (filled : text ≠ []) : capitalize text ≠ [] := by
  obtain ⟨c, more, rfl⟩ := List.exists_cons_of_ne_nil filled
  exact fun empty => upperChar_ne_nil c (List.append_eq_nil_iff.mp empty).1

theorem recase_append {text : List Char} (filled : text ≠ []) (rest : List Char) :
    recase (text ++ rest) = recase text ++ rest := by
  rw [recase, capitalize_append filled, uncapitalize_append (capitalize_ne_nil filled)]
  rfl

theorem recase_ne_nil {text : List Char} (filled : text ≠ []) : recase text ≠ [] := by
  obtain ⟨c, more, same⟩ := List.exists_cons_of_ne_nil (capitalize_ne_nil filled)
  rw [recase, same]
  exact fun empty => lower_ne_nil c (List.append_eq_nil_iff.mp empty).1

theorem camelCase_eq_recase {name : List Char} (plain : '-' ∉ name) (solid : ' ' ∉ name) :
    camelCase name = recase name := by
  rw [camelCase, wordsOf_of_no_space solid, List.splitOn_eq_singleton plain]
  cases name with
  | nil => rfl
  | cons c rest => simp [recase]

def isSeparator (c : Char) : Bool :=
  c == '-' || c == ' '

def firstLetter? (name : List Char) : Option Char :=
  name.find? fun c => !isSeparator c

theorem exists_mark {name : List Char} (unmixed : ¬ ('-' ∈ name ∧ ' ' ∈ name)) :
    ∃ mark, wordsOf name = name.splitOn mark ∧
      ∀ c ∈ name, (!isSeparator c) = (c != mark) := by
  by_cases spaced : ' ' ∈ name
  · have plain : '-' ∉ name := fun dashed => unmixed ⟨dashed, spaced⟩
    refine ⟨' ', wordsOf_of_no_dash plain, fun c member => ?_⟩
    have other : (c == '-') = false := by
      simpa using fun same : c = '-' => plain (same ▸ member)
    rw [isSeparator, other, Bool.false_or]
    rfl
  · refine ⟨'-', wordsOf_of_no_space spaced, fun c member => ?_⟩
    have other : (c == ' ') = false := by
      simpa using fun same : c = ' ' => spaced (same ▸ member)
    rw [isSeparator, other, Bool.or_false]
    rfl

theorem find?_eq_head? {mark : Char} {word : List Char} (absent : mark ∉ word) :
    word.find? (· != mark) = word.head? := by
  cases word with
  | nil => rfl
  | cons c rest =>
    refine List.find?_cons_of_pos ?_
    simpa using fun same : c = mark => absent (same ▸ List.mem_cons_self)

theorem head?_filter_bind {mark : Char} {pieces : List (List Char)}
    (absent : ∀ piece ∈ pieces, mark ∉ piece) :
    (pieces.filter fun piece => !piece.isEmpty).head?.bind List.head? =
      (List.intercalate [mark] pieces).find? (· != mark) := by
  induction pieces with
  | nil => rfl
  | cons piece pieces ih =>
    have others := ih fun other listed => absent other (List.mem_cons_of_mem piece listed)
    have alone := find?_eq_head? (absent piece List.mem_cons_self)
    cases pieces with
    | nil =>
      rw [List.intercalate_singleton, alone]
      cases piece <;> rfl
    | cons next pieces =>
      rw [List.intercalate_cons_cons, List.append_assoc, List.find?_append, alone]
      cases piece with
      | nil => simpa using others
      | cons c rest => rfl

theorem camelCase_cases {name : List Char} (unmixed : ¬ ('-' ∈ name ∧ ' ' ∈ name)) :
    (firstLetter? name = none ∧ camelCase name = []) ∨
      ∃ c rest, firstLetter? name = some c ∧ camelCase name = recase [c] ++ rest := by
  obtain ⟨mark, words, same⟩ := exists_mark unmixed
  have letter : firstLetter? name = (wordsOf name |>.filter fun word => !word.isEmpty).head?.bind
      List.head? := by
    rw [words, head?_filter_bind fun piece listed => not_mem_of_mem_splitOn listed,
      List.intercalate_splitOn]
    rw [firstLetter?, ← List.head?_filter, ← List.head?_filter, List.filter_congr same]
  rw [letter, camelCase]
  cases kept : (wordsOf name).filter fun word => !word.isEmpty with
  | nil => exact .inl ⟨rfl, rfl⟩
  | cons word others =>
    have filled : (!word.isEmpty) = true :=
      (List.mem_filter.mp (kept ▸ List.mem_cons_self : word ∈ (wordsOf name).filter _)).2
    cases word with
    | nil => cases filled
    | cons c rest =>
      refine .inr ⟨c, rest ++ others.flatMap capitalize, rfl, ?_⟩
      rw [List.flatMap_cons, capitalize, List.append_assoc, uncapitalize_append (upperChar_ne_nil c)]
      simp [recase, capitalize]

theorem camelCase_camelCase_iff (name : List Char) :
    camelCase (camelCase name) = camelCase name ↔ ¬ ('-' ∈ name ∧ ' ' ∈ name) ∧
      ∀ c ∈ firstLetter? name, camelCase (camelCase [c]) = camelCase [c] := by
  have plain := dash_not_mem_camelCase name
  by_cases mixed : '-' ∈ name ∧ ' ' ∈ name
  · -- The space that was left goes in the second pass.
    have spaced := (space_mem_camelCase_iff name).mpr mixed
    refine ⟨fun same => ?_, fun ⟨unmixed, _⟩ => absurd mixed unmixed⟩
    rw [← same, space_mem_camelCase_iff] at spaced
    exact absurd spaced.1 plain
  · have solid : ' ' ∉ camelCase name := fun member => mixed ((space_mem_camelCase_iff name).mp member)
    rw [camelCase_eq_recase plain solid]
    obtain ⟨none, empty⟩ | ⟨c, rest, first, whole⟩ := camelCase_cases mixed
    · simp [none, empty, mixed, recase, capitalize, uncapitalize]
    · have apart : c ≠ '-' ∧ c ≠ ' ' := by simpa [isSeparator] using List.find?_some first
      have single : camelCase [c] = recase [c] :=
        camelCase_eq_recase (by simp [Ne.symm apart.1]) (by simp [Ne.symm apart.2])
      have twice : camelCase (recase [c]) = recase (recase [c]) := by
        rw [← single]
        refine camelCase_eq_recase (dash_not_mem_camelCase [c]) fun member => ?_
        exact apart.2 (List.mem_singleton.mp ((space_mem_camelCase_iff [c]).mp member).2).symm
      rw [whole, recase_append (recase_ne_nil (List.cons_ne_nil c [])), List.append_left_inj]
      simp [first, mixed, twice, single]

/-! Names of modules. -/

theorem exists_text_of_camelForm {value : Value} {name : String}
    (read : Tag.camelForm value = .ok name) :
    ∃ text, value.opened = .text text ∧ name.toList = camelCase text.toList := by
  have noText (members : List Value) : Tag.camelForm.camelFault members ≠ .ok name := by
    unfold Tag.camelForm.camelFault
    split <;> exact nofun
  unfold Tag.camelForm at read
  split at read
  case h_1 text opened =>
    obtain rfl := Except.ok.inj read
    exact ⟨text, opened, String.toList_ofList⟩
  case h_2 | h_5 => cases read
  case h_3 members _ => exact absurd read (noText members)
  case h_4 entries _ => exact absurd read (noText _)

theorem exists_text_of_identify {policy : TagPolicy} {tag description : Value} {name : String}
    (identified : policy.identify tag = .ok (name, description)) :
    ∃ value text, (Tag.name tag = .ok value ∨ Tag.description tag = .ok value) ∧
      value.opened = .text text ∧ name.toList = camelCase text.toList := by
  obtain ⟨title, named, rest⟩ := Outcome.bind_eq_ok_iff.mp identified
  obtain ⟨label, described, rest⟩ := Outcome.bind_eq_ok_iff.mp rest
  extract_lets finish at rest
  have ends (swapped : Bool) (done : finish swapped = .ok (name, description)) :
      ∃ value text, (Tag.name tag = .ok value ∨ Tag.description tag = .ok value) ∧
        value.opened = .text text ∧ name.toList = camelCase text.toList := by
    cases swapped with
    | true =>
      obtain ⟨camel, read, same⟩ := Outcome.bind_eq_ok_iff.mp done
      cases Outcome.pure_eq_ok_iff.mp same
      obtain ⟨text, opened, cased⟩ := exists_text_of_camelForm read
      exact ⟨label, text, .inr described, opened, cased⟩
    | false =>
      obtain ⟨camel, read, same⟩ := Outcome.bind_eq_ok_iff.mp done
      cases Outcome.pure_eq_ok_iff.mp same
      obtain ⟨text, opened, cased⟩ := exists_text_of_camelForm read
      exact ⟨title, text, .inl named, opened, cased⟩
  split at rest
  · obtain ⟨swapped, -, done⟩ := Outcome.bind_eq_ok_iff.mp rest
    exact ends swapped done
  · exact ends false rest

/-- A name in camel case holds no dash, and it holds a space exactly if the name had both separators.
A second pass leaves it as it is exactly if there were not both and the first letter, alone, stays
the same in a second pass. The name of a module is of that kind. -/
theorem camelCase_separators (name : List Char) (policy : TagPolicy) :
    ('-' ∉ camelCase name ∧ (' ' ∈ camelCase name ↔ '-' ∈ name ∧ ' ' ∈ name) ∧
      (camelCase (camelCase name) = camelCase name ↔ ¬ ('-' ∈ name ∧ ' ' ∈ name) ∧
        ∀ c ∈ firstLetter? name, camelCase (camelCase [c]) = camelCase [c])) ∧
    ∀ (tag description : Value) (title : String), policy.identify tag = .ok (title, description) →
      ∃ value text, (Tag.name tag = .ok value ∨ Tag.description tag = .ok value) ∧
        value.opened = .text text ∧ '-' ∉ title.toList ∧
        (' ' ∈ title.toList ↔ '-' ∈ text.toList ∧ ' ' ∈ text.toList) := by
  refine ⟨⟨dash_not_mem_camelCase name, space_mem_camelCase_iff name,
    camelCase_camelCase_iff name⟩, ?_⟩
  intro tag description title identified
  obtain ⟨value, text, source, opened, cased⟩ := exists_text_of_identify identified
  rw [cased]
  exact ⟨value, text, source, opened, dash_not_mem_camelCase _, space_mem_camelCase_iff _⟩

theorem camelCase_separators_petStoreApi :
    TagPolicy.standard.identify (.map [(.text "name", .text "pet-store api")]) =
      .ok ("petStore api", .emptyText) ∧
    '-' ∉ "petStore api".toList ∧ ' ' ∈ "petStore api".toList ∧
    camelCase (camelCase "pet-store api".toList) ≠ camelCase "pet-store api".toList := by
  have identified : TagPolicy.standard.identify (.map [(.text "name", .text "pet-store api")]) =
      .ok ("petStore api", .emptyText) := rfl
  obtain ⟨⟨-, space, twice⟩, modules⟩ := camelCase_separators "pet-store api".toList .standard
  obtain ⟨value, text, -, -, noDash, -⟩ := modules _ _ _ identified
  have mixed : '-' ∈ "pet-store api".toList ∧ ' ' ∈ "pet-store api".toList := by decide
  refine ⟨identified, noDash, by decide, fun same => (twice.mp same).1 mixed⟩

end ApiCatalog.Naming
