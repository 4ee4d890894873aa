import ApiCatalog.Extract.DataType
import ApiCatalog.Proofs.Generic.UseForm

/-! References of data types: which names belong to a namespace, and what they are otherwise. -/

namespace ApiCatalog

theorem resolveReference_eq {self origin raw : List Char} {always : Bool}
    (filled : Generic.useName origin raw ≠ [])
    (notPlaceholder : Generic.useName origin raw ≠ placeholderModel) :
    resolveReference self origin always raw =
      if Generic.useName origin raw = self then selfParameter
      else if origin ≠ [] ∧ Text.occursIn origin (Generic.useName origin raw) = false then
        Generic.qualify origin (Generic.useName origin raw)
      else if always = true ∧ Generic.isQualified (Generic.useName origin raw) = false then
        Generic.qualify [] (Generic.useName origin raw)
      else Generic.useName origin raw := by
  have foreign : (!origin.isEmpty && !Text.occursIn origin (Generic.useName origin raw)) = true ↔
      origin ≠ [] ∧ Text.occursIn origin (Generic.useName origin raw) = false := by
    simp
  have bare : (always && !Generic.isQualified (Generic.useName origin raw)) = true ↔
      always = true ∧ Generic.isQualified (Generic.useName origin raw) = false := by
    simp
  have given : ¬(Generic.useName origin raw = placeholderModel ∨
      (Generic.useName origin raw).isEmpty = true) := by
    simp [filled, notPlaceholder]
  unfold resolveReference
  simp only [foreign, bare, if_neg given]

section
variable {self origin raw : List Char} {always : Bool} (filled : Generic.useName origin raw ≠ [])
  (notPlaceholder : Generic.useName origin raw ≠ placeholderModel)
  (other : Generic.useName origin raw ≠ self)
include filled notPlaceholder other

theorem resolveReference_of_not_contained (foreign : ¬origin <:+: Generic.useName origin raw) :
    resolveReference self origin always raw =
      Generic.namespaceLead ++ origin ++ '.' :: Generic.useName origin raw := by
  have named : origin ≠ [] := by
    rintro rfl
    exact foreign List.nil_infix
  have outside : Text.occursIn origin (Generic.useName origin raw) = false :=
    Bool.eq_false_iff.mpr (mt (Text.occursIn_iff _ _).mp foreign)
  rw [resolveReference_eq filled notPlaceholder, if_neg other, if_pos ⟨named, outside⟩]
  simp [Generic.qualify, named]

theorem resolveReference_of_contained (occurs : origin <:+: Generic.useName origin raw) :
    resolveReference self origin always raw =
      if always = true ∧ Generic.isQualified (Generic.useName origin raw) = false then
        Generic.namespaceLead ++ Generic.useName origin raw
      else Generic.useName origin raw := by
  have inside := (Text.occursIn_iff _ _).mpr occurs
  rw [resolveReference_eq filled notPlaceholder, if_neg other, if_neg (by simp [inside])]
  rfl

end

theorem resolveReference_eq_nil {self origin raw : List Char} {always : Bool}
    (nothing : Generic.useName origin raw = [] ∨ Generic.useName origin raw = placeholderModel) :
    resolveReference self origin always raw = [] := by
  have given : Generic.useName origin raw = placeholderModel ∨
      (Generic.useName origin raw).isEmpty = true := by
    simpa [or_comm] using nothing
  unfold resolveReference
  simp only [if_pos given]

theorem qualify_ne_nil (origin name : List Char) : Generic.qualify origin name ≠ [] := by
  cases origin <;> simp [Generic.qualify, Generic.namespaceLead]

theorem resolveReference_eq_nil_iff {self origin raw : List Char} {always : Bool} :
    resolveReference self origin always raw = [] ↔
      Generic.useName origin raw = [] ∨ Generic.useName origin raw = placeholderModel := by
  constructor
  · intro empty
    by_cases nothing :
        Generic.useName origin raw = [] ∨ Generic.useName origin raw = placeholderModel
    · exact nothing
    · obtain ⟨filled, notPlaceholder⟩ := not_or.mp nothing
      rw [resolveReference_eq filled notPlaceholder] at empty
      split at empty
      · exact absurd empty (by decide)
      · split at empty
        · exact absurd empty (qualify_ne_nil _ _)
        · split at empty
          · exact absurd empty (qualify_ne_nil _ _)
          · exact absurd empty filled
  · exact resolveReference_eq_nil

theorem filled_of_getLast? {used : List Char} (last : used.getLast? = some '>') :
    used ≠ [] ∧ used ≠ placeholderModel := by
  constructor
  · rintro rfl
    simp at last
  · rintro rfl
    exact absurd last (by decide)

theorem resolveReference_definition_eq_nil_iff {self origin key : List Char} {always : Bool} :
    resolveReference self origin always (Generic.definitionsLead ++ key) = [] ↔
      key = [] ∨ key = placeholderModel := by
  rw [resolveReference_eq_nil_iff]
  cases parted : Generic.split key with
  | none => rw [Generic.useName_reference_of_plain parted]
  | some found =>
    obtain ⟨filled, notPlaceholder⟩ :=
      filled_of_getLast? (Generic.getLast?_useName_reference parted origin)
    constructor
    · rintro (empty | placeholder)
      · exact absurd empty filled
      · exact absurd placeholder notPlaceholder
    · rintro (rfl | rfl)
      · have plain : Generic.split [] = none := by decide
        exact absurd (plain.symm.trans parted) (by simp)
      · have plain : Generic.split placeholderModel = none := by decide
        exact absurd (plain.symm.trans parted) (by simp)

theorem getLast?_qualify (origin : List Char) {name : List Char} (nonempty : name ≠ []) :
    (Generic.qualify origin name).getLast? = name.getLast? := by
  obtain ⟨c, rest, rfl⟩ := List.exists_cons_of_ne_nil nonempty
  cases origin <;> simp [Generic.qualify, List.getLast?_append, List.getLast?_cons]

theorem namespaceLead_prefix_resolveReference {origin raw : List Char}
    (given : resolveReference [] origin true raw ≠ []) :
    Generic.namespaceLead <+: resolveReference [] origin true raw := by
  by_cases nothing : Generic.useName origin raw = [] ∨ Generic.useName origin raw = placeholderModel
  · exact absurd (resolveReference_eq_nil nothing) given
  · obtain ⟨filled, notPlaceholder⟩ := not_or.mp nothing
    rw [resolveReference_eq filled notPlaceholder, if_neg filled]
    split
    · exact Generic.namespaceLead_prefix_qualify _ _
    · split
      · exact Generic.namespaceLead_prefix_qualify _ _
      · rename_i qualified
        simpa [Generic.isQualified] using qualified

theorem getLast?_resolveReference {self origin raw : List Char} {always : Bool}
    (last : (Generic.useName origin raw).getLast? = some '>')
    (other : Generic.useName origin raw ≠ self) :
    (resolveReference self origin always raw).getLast? = some '>' := by
  obtain ⟨filled, notPlaceholder⟩ := filled_of_getLast? last
  rw [resolveReference_eq filled notPlaceholder, if_neg other]
  split
  · rw [getLast?_qualify _ filled, last]
  · split
    · rw [getLast?_qualify _ filled, last]
    · exact last

end ApiCatalog
