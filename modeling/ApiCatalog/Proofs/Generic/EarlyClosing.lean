import ApiCatalog.Proofs.Generic.ArgumentList
import ApiCatalog.Proofs.Generic.UseForm

/-!
Names whose guillemets do not balance. The text between the first guillemet that opens and the last
character is checked for balance, but not what stands before it. So an unbalanced name is taken for
a generic one exactly if all that is wrong with it is a closing guillemet before the first opening
one; every other unbalanced name is plain.
-/

namespace ApiCatalog.Generic

/-- A name that closes guillemets before it opens one, and from there on is a list of arguments in
guillemets. -/
def ClosesEarly (name : List Char) : Prop :=
  ∃ front payload found, name = front ++ '«' :: (payload ++ ['»']) ∧ '«' ∉ front ∧ '»' ∈ front ∧
    IsArgumentList payload found

theorem isBalanced_of_markless {text : List Char} (noOpening : '«' ∉ text)
    (noClosing : '»' ∉ text) : IsBalanced text := by
  constructor
  · intro front leads
    have none : '»' ∉ front := fun member => noClosing (leads.subset member)
    rw [List.count_eq_zero.mpr none]
    exact Nat.zero_le _
  · rw [List.count_eq_zero.mpr noOpening, List.count_eq_zero.mpr noClosing]

theorem IsBalanced.append {front back : List Char} (first : IsBalanced front)
    (second : IsBalanced back) : IsBalanced (front ++ back) := by
  constructor
  · rintro lead ⟨rest, same⟩
    rcases List.append_eq_append_iff.mp same with ⟨more, rfl, -⟩ | ⟨more, rfl, rfl⟩
    · exact first.closes_le lead (List.prefix_append lead more)
    · have within := second.closes_le more (List.prefix_append more rest)
      have whole := first.closes_eq
      rw [List.count_append, List.count_append]
      omega
  · rw [List.count_append, List.count_append, first.closes_eq, second.closes_eq]

theorem isBalanced_joinPieces {found : List (List Char)} (all : ∀ piece ∈ found, IsBalanced piece) :
    IsBalanced (joinPieces found) := by
  induction found with
  | nil => exact isBalanced_of_markless List.not_mem_nil List.not_mem_nil
  | cons first others ih =>
    have here : IsBalanced first := all first List.mem_cons_self
    have rest := ih fun piece member => all piece (List.mem_cons_of_mem first member)
    cases others with
    | nil => simpa [joinPieces] using here
    | cons second others =>
      have comma : IsBalanced [','] := isBalanced_of_markless (by decide) (by decide)
      rw [joinPieces_cons_cons]
      exact here.append (comma.append rest)

theorem IsArgumentList.isBalanced {payload : List Char} {found : List (List Char)}
    (listed : IsArgumentList payload found) : IsBalanced payload := by
  rw [listed.joined]
  exact isBalanced_joinPieces listed.balanced

theorem IsBalanced.enclosed {payload : List Char} (inside : IsBalanced payload) :
    IsBalanced ('«' :: (payload ++ ['»'])) := by
  constructor
  · rw [forall_prefix_cons]
    refine ⟨Nat.le_refl 0, ?_⟩
    intro front leads
    rcases List.prefix_concat_iff.mp leads with rfl | leads
    · have whole := inside.closes_eq
      simp [List.count_append, whole]
    · have within := inside.closes_le front leads
      simp
      omega
  · simp [List.count_append, inside.closes_eq]

theorem isBalanced_iff_of_split {name outer payload : List Char}
    (parted : split name = some (outer, payload)) : IsBalanced name ↔ '»' ∉ outer := by
  obtain ⟨-, absent, rfl, listed⟩ := split_eq_some_iff.mp parted
  obtain ⟨found, listed⟩ := isSome_arguments_iff.mp listed
  constructor
  · intro balanced closing
    have below := balanced.closes_le outer (List.prefix_append _ _)
    rw [List.count_eq_zero.mpr absent] at below
    exact absurd (List.count_pos_iff.mpr closing) (by omega)
  · intro noClosing
    exact (isBalanced_of_markless absent noClosing).append listed.isBalanced.enclosed

theorem split_eq_none_iff_of_unbalanced {name : List Char} (unbalanced : ¬IsBalanced name) :
    split name = none ↔ ¬ClosesEarly name := by
  constructor
  · rintro plain ⟨front, payload, found, rfl, absent, closing, listed⟩
    have filled : front ≠ [] := List.ne_nil_of_mem closing
    have parted := split_eq_some_iff.mpr
      ⟨filled, absent, rfl, isSome_arguments_iff.mpr ⟨found, listed⟩⟩
    exact absurd (plain.symm.trans parted) (by simp)
  · intro notEarly
    cases parted : split name with
    | none => rfl
    | some both =>
      obtain ⟨outer, payload⟩ := both
      obtain ⟨-, absent, same, listed⟩ := split_eq_some_iff.mp parted
      obtain ⟨found, listed⟩ := isSome_arguments_iff.mp listed
      have closing : '»' ∈ outer :=
        Decidable.not_not.mp (mt (isBalanced_iff_of_split parted).mpr unbalanced)
      exact absurd ⟨outer, payload, found, same, absent, closing, listed⟩ notEarly

section
variable {name : List Char} (leadless : ¬definitionsLead <+: name)
include leadless

theorem useName_eq_self_iff (origin : List Char) : useName origin name = name ↔ split name = none := by
  constructor
  · intro same
    cases parted : split name with
    | none => rfl
    | some both =>
      have last := getLast?_useName_reference parted origin
      rw [useName_reference leadless, same, getLast?_of_split parted] at last
      exact absurd last (by decide)
  · intro plain
    rw [useName_eq, definitionName_eq_self leadless, parts_eq_none_iff.mpr plain]

theorem declarationName_eq_self_iff : declarationName name = name ↔ split name = none := by
  rw [declarationName, definitionName_eq_self leadless]
  constructor
  · intro same
    cases parted : split name with
    | none => rfl
    | some both =>
      obtain ⟨outer, payload⟩ := both
      obtain ⟨-, -, -, returned⟩ := split_eq_some_iff.mp parted
      obtain ⟨found, listed⟩ := Option.isSome_iff_exists.mp returned
      rw [parts_eq_some_iff.mpr ⟨payload, parted, listed⟩] at same
      have last := getLast?_bracket outer ((List.range found.length).map
        fun index => 'T' :: Number.digitsOf index)
      have ending := getLast?_of_split parted
      rw [← same] at ending
      exact absurd (last.symm.trans ending) (by decide)
  · intro plain
    rw [parts_eq_none_iff.mpr plain]

end

theorem ne_nil_of_isSome_arguments {payload : List Char}
    (returned : (arguments payload).isSome = true) : payload ≠ [] := by
  rintro rfl
  exact absurd returned (by decide)

theorem selfArgument_eq_nil_iff (name : List Char) : selfArgument name = [] ↔ split name = none := by
  cases parted : split name with
  | none => simp [selfArgument, parted]
  | some both =>
    obtain ⟨outer, payload⟩ := both
    obtain ⟨-, -, -, returned⟩ := split_eq_some_iff.mp parted
    have filled := ne_nil_of_isSome_arguments returned
    simp only [selfArgument, parted, reduceCtorEq, iff_false]
    cases nested : split payload with
    | none => exact filled
    | some inner =>
      obtain ⟨front, content⟩ := inner
      obtain ⟨-, -, -, inside⟩ := split_eq_some_iff.mp nested
      dsimp only
      split
      · exact ne_nil_of_isSome_arguments inside
      · exact filled

/-- An unbalanced name is plain in every respect exactly if it does not close guillemets early. -/
theorem split_eq_none_iff_not_closesEarly {name : List Char}
    (leadless : ¬"#/definitions/".toList <+: name) (unbalanced : ¬IsBalanced name) :
    (split name = none ↔ ¬ClosesEarly name) ∧
      (∀ origin, useName origin name = name ↔ ¬ClosesEarly name) ∧
      (declarationName name = name ↔ ¬ClosesEarly name) ∧
      (selfArgument name = [] ↔ ¬ClosesEarly name) := by
  have plain := split_eq_none_iff_of_unbalanced unbalanced
  refine ⟨plain, ?_, ?_, ?_⟩
  · intro origin
    exact (useName_eq_self_iff leadless origin).trans plain
  · exact (declarationName_eq_self_iff leadless).trans plain
  · exact (selfArgument_eq_nil_iff name).trans plain

theorem split_of_early_closing :
    (¬IsBalanced "Foo»Bar«X»".toList ∧
      split "Foo»Bar«X»".toList = some ("Foo»Bar".toList, "X".toList) ∧
      useName "api".toList "Foo»Bar«X»".toList ≠ "Foo»Bar«X»".toList ∧
      declarationName "Foo»Bar«X»".toList ≠ "Foo»Bar«X»".toList ∧
      selfArgument "Foo»Bar«X»".toList ≠ []) ∧
    ¬IsBalanced "Foo«Bar»»".toList ∧ ¬ClosesEarly "Foo«Bar»»".toList ∧
      useName "api".toList "Foo«Bar»»".toList = "Foo«Bar»»".toList := by
  have early : ¬IsBalanced "Foo»Bar«X»".toList := by
    intro balanced
    exact absurd (balanced.closes_le "Foo»".toList (by decide)) (by decide)
  have late : ¬IsBalanced "Foo«Bar»»".toList := by
    intro balanced
    exact absurd balanced.closes_eq (by decide)
  have closes : ClosesEarly "Foo»Bar«X»".toList :=
    ⟨"Foo»Bar".toList, "X".toList, ["X".toList], by decide, by decide, by decide,
      isArgumentList_iff.mpr ⟨by decide, by decide⟩⟩
  obtain ⟨-, used, declared, argument⟩ :=
    @split_eq_none_iff_not_closesEarly "Foo»Bar«X»".toList (by decide) early
  obtain ⟨plain, unchanged, -, -⟩ :=
    @split_eq_none_iff_not_closesEarly "Foo«Bar»»".toList (by decide) late
  have closesNot : ¬ClosesEarly "Foo«Bar»»".toList := plain.mp (by decide)
  refine ⟨⟨early, by decide, ?_, ?_, ?_⟩, late, closesNot, (unchanged _).mpr closesNot⟩
  · exact fun same => (used _).mp same closes
  · exact fun same => declared.mp same closes
  · exact fun same => argument.mp same closes

end ApiCatalog.Generic
