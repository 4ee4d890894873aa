import ApiCatalog.Proofs.Generic.UseForm

/-!
The parts of a generic name: its outer names and its arguments that are no generic names, at any
depth. The use form of each part stands in the use form of the name.
-/

namespace ApiCatalog.Generic

inductive Part
  | outer (name : List Char)
  | leaf (name : List Char)
  /-- What is left of a reference that has nothing but its lead before the guillemets. -/
  | bare (text : List Char)

namespace Part

def form (origin : List Char) : Part → List Char
  | outer name => useOuter origin name
  | leaf name => useLeaf origin name
  | bare text => text

/-- Whether a part belongs to the document: it is no name of the notation and of no namespace. -/
def IsOwn : Part → Prop
  | outer name => name ≠ listName ∧ isQualified name = false
  | leaf name => name ≠ "long".toList ∧ name ∉ plainNames ∧ isQualified name = false
  | bare _ => False

instance : DecidablePred IsOwn
  | outer name => inferInstanceAs (Decidable (name ≠ listName ∧ isQualified name = false))
  | leaf name =>
    inferInstanceAs
      (Decidable (name ≠ "long".toList ∧ name ∉ plainNames ∧ isQualified name = false))
  | bare _ => inferInstanceAs (Decidable False)

end Part

/-- Which parts a name has. An argument may be a reference itself, of which the lead does not
count. -/
inductive HasPart : List Char → Part → Prop
  | outer {name outer : List Char} {found : List (List Char)}
      (parted : parts (definitionName name) = some (outer, found)) : HasPart name (.outer outer)
  | leaf {name outer argument : List Char} {found : List (List Char)}
      (parted : parts (definitionName name) = some (outer, found)) (member : argument ∈ found)
      (plain : split argument = none) : HasPart name (.leaf argument)
  | inner {name outer argument : List Char} {found : List (List Char)} {part : Part}
      (parted : parts (definitionName name) = some (outer, found)) (member : argument ∈ found)
      (generic : (split argument).isSome = true) (inside : HasPart argument part) :
      HasPart name part
  | bare {name : List Char} (unparted : parts (definitionName name) = none) :
      HasPart name (.bare (definitionName name))

/-- A text that needs no namespace, or has one. -/
def IsSettled (text : List Char) : Prop :=
  text = "Array".toList ∨ text ∈ plainNames ∨ isQualified text = true

theorem infix_qualify (origin name : List Char) : origin <:+: qualify origin name := by
  cases origin with
  | nil => exact List.nil_infix
  | cons c rest => exact ⟨namespaceLead, '.' :: name, by simp [qualify]⟩

theorem isQualified_qualify (origin name : List Char) : isQualified (qualify origin name) = true :=
  List.isPrefixOf_iff_prefix.mpr (namespaceLead_prefix_qualify origin name)

theorem Part.form_of_isOwn {part : Part} (own : part.IsOwn) (origin : List Char) :
    ∃ name, part.form origin = qualify origin name := by
  cases part with
  | outer name =>
    obtain ⟨notList, unqualified⟩ := own
    exact ⟨name, by simp [form, useOuter, notList, unqualified]⟩
  | leaf name =>
    obtain ⟨notLong, notPlain, unqualified⟩ := own
    have foreign : ¬(name ∈ plainNames ∨ isQualified name = true) := by
      simp [notPlain, unqualified]
    exact ⟨name, (if_neg notLong).trans (if_neg foreign)⟩
  | bare text => exact own.elim

theorem isSettled_useOuter (origin outer : List Char) : IsSettled (useOuter origin outer) := by
  unfold useOuter
  split
  · exact Or.inl rfl
  · split
    · rename_i qualified
      exact Or.inr (Or.inr qualified)
    · exact Or.inr (Or.inr (isQualified_qualify origin outer))

theorem isSettled_useLeaf (origin argument : List Char) : IsSettled (useLeaf origin argument) := by
  unfold useLeaf
  split
  · exact Or.inr (Or.inl (by decide))
  · split
    · rename_i kept
      exact Or.inr kept
    · exact Or.inr (Or.inr (isQualified_qualify origin argument))

theorem outer_infix_bracket (outer : List Char) (arguments : List (List Char)) :
    outer <:+: bracket outer arguments :=
  (List.prefix_append _ _).isInfix

theorem argument_infix_bracket {argument : List Char} (outer : List Char)
    {arguments : List (List Char)} (member : argument ∈ arguments) :
    argument <:+: bracket outer arguments := by
  have joined : List.intercalate [','] arguments <:+: bracket outer arguments :=
    ⟨outer ++ ['<'], ['>'], by simp [bracket]⟩
  exact (Text.infix_intercalate member).trans joined

theorem HasPart.form_infix_useName {name : List Char} {part : Part} (has : HasPart name part)
    (origin : List Char) : part.form origin <:+: useName origin name := by
  induction has with
  | outer parted =>
    rw [useName_eq, parted]
    exact outer_infix_bracket _ _
  | leaf parted member plain =>
    rw [useName_eq, parted]
    apply argument_infix_bracket
    exact List.mem_map.mpr ⟨_, member, by simp [useArgument, plain, Part.form]⟩
  | inner parted member generic inside ih =>
    rw [useName_eq, parted]
    apply ih.trans
    apply argument_infix_bracket
    exact List.mem_map.mpr ⟨_, member, by simp [useArgument, generic]⟩
  | bare unparted =>
    rw [useName_eq, unparted]
    exact List.infix_rfl

theorem HasPart.origin_infix_useName {name : List Char} {part : Part} (has : HasPart name part)
    (own : part.IsOwn) (origin : List Char) : origin <:+: useName origin name := by
  obtain ⟨inner, same⟩ := part.form_of_isOwn own origin
  exact (same ▸ infix_qualify origin inner).trans (has.form_infix_useName origin)

theorem HasPart.isSettled {name : List Char} {part : Part} (has : HasPart name part)
    (generic : (split name).isSome = true) (origin : List Char) :
    IsSettled (part.form origin) ∨ ∃ back, part = .bare ('«' :: back) := by
  induction has with
  | outer parted => exact Or.inl (isSettled_useOuter origin _)
  | leaf parted member plain => exact Or.inl (isSettled_useLeaf origin _)
  | inner parted member nested inside ih => exact ih nested
  | bare unparted =>
    obtain ⟨⟨outer, payload⟩, parted⟩ := Option.isSome_iff_exists.mp generic
    rcases split_definitionName parted with ⟨rest, still⟩ | ⟨back, cut⟩
    · exact absurd ((parts_eq_none_iff.mp unparted).symm.trans still) (by simp)
    · exact Or.inr ⟨back, congrArg Part.bare cut⟩

end ApiCatalog.Generic
