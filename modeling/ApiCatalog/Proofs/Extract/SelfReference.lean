import ApiCatalog.Proofs.Extract.Declaration
import ApiCatalog.Proofs.Extract.ReferenceForm
import ApiCatalog.Proofs.Extract.SchemaType

/-!
References of a generic class to its own argument. Such a reference becomes the parameter exactly
if the argument is no generic name itself and stands in the name of the class without margins: the
argument is kept as it is written, while references are compared in their use form.
-/

namespace ApiCatalog

namespace Generic

theorem selfArgument_eq_payload {name outer payload argument : List Char}
    (parted : split name = some (outer, payload)) (single : arguments payload = some [argument])
    (notList : ∀ inner, split argument ≠ some (listName, inner)) : selfArgument name = payload := by
  simp only [selfArgument, parted]
  cases inside : split payload with
  | none => rfl
  | some found =>
    obtain ⟨front, inner⟩ := found
    simp only
    split
    · rename_i isList
      subst isList
      obtain ⟨-, -, whole, -⟩ := split_eq_some_iff.mp inside
      have trimmed : Text.IsTrimmed payload := by
        constructor
        · rw [whole]
          rintro c ⟨⟩
          decide
        · rw [getLast?_of_split inside]
          rintro c ⟨⟩
          decide
      have same := (eq_strip_of_arguments_singleton single).1
      rw [Text.strip_eq_self trimmed] at same
      exact absurd (same ▸ inside) (notList inner)
    · rfl

end Generic

theorem selfParameter_ne_qualify (origin name : List Char) :
    Generic.qualify origin name ≠ selfParameter := by
  intro same
  have head := congrArg List.head? same
  cases origin <;> simp [Generic.qualify, Generic.namespaceLead, selfParameter] at head

theorem resolveReference_of_plain_argument {payload argument : List Char}
    (parted : Generic.split argument = none) (nonempty : argument ≠ [])
    (notPlaceholder : argument ≠ placeholderModel) (origin : List Char) :
    resolveReference payload origin false (Generic.definitionsLead ++ argument) = selfParameter ↔
      payload = argument ∨ (argument = selfParameter ∧ origin <:+: selfParameter) := by
  have used := Generic.useName_reference_of_plain parted origin
  rw [resolveReference_eq (by rwa [used]) (by rwa [used]), used]
  by_cases same : argument = payload
  · simp [same]
  · rw [if_neg same]
    by_cases occurs : origin <:+: argument
    · have inside := (Text.occursIn_iff origin argument).mpr occurs
      simp only [inside, Bool.true_eq_false, and_false, Bool.false_eq_true, if_false,
        Ne.symm same, false_or]
      exact ⟨fun parameter => ⟨parameter, parameter ▸ occurs⟩, And.left⟩
    · have named : origin ≠ [] := by
        rintro rfl
        exact occurs (List.nil_infix)
      have outside : Text.occursIn origin argument = false :=
        Bool.eq_false_iff.mpr (mt (Text.occursIn_iff origin argument).mp occurs)
      rw [if_pos ⟨named, outside⟩]
      simp only [selfParameter_ne_qualify, Ne.symm same, false_or, false_iff, not_and]
      exact fun parameter inside => occurs (parameter ▸ inside)

theorem resolveReference_of_generic_argument {payload argument outer inner : List Char}
    (stripped : argument = Text.strip payload)
    (parted : Generic.split argument = some (outer, inner)) (origin : List Char) :
    resolveReference payload origin false (Generic.definitionsLead ++ argument) ≠ selfParameter := by
  have last := Generic.getLast?_useName_reference parted origin
  have other : Generic.useName origin (Generic.definitionsLead ++ argument) ≠ payload := by
    intro same
    have bracketed := Text.getLast?_strip (same ▸ last) (by decide)
    rw [← stripped, Generic.getLast?_of_split parted] at bracketed
    exact absurd bracketed (by decide)
  intro parameter
  have ending := @getLast?_resolveReference payload origin _ false last other
  rw [parameter] at ending
  exact absurd ending (by decide)

theorem resolveReference_eq_selfParameter_iff {payload argument : List Char}
    (single : Generic.arguments payload = some [argument])
    (notPlaceholder : argument ≠ placeholderModel) (origin : List Char) :
    resolveReference payload origin false (Generic.definitionsLead ++ argument) = selfParameter ↔
      (payload = argument ∧ Generic.split argument = none) ∨
        (argument = selfParameter ∧ origin <:+: selfParameter) := by
  obtain ⟨stripped, nonempty⟩ := Generic.eq_strip_of_arguments_singleton single
  cases parted : Generic.split argument with
  | none =>
    rw [and_iff_left rfl]
    exact resolveReference_of_plain_argument parted nonempty notPlaceholder origin
  | some found =>
    have notT : argument ≠ selfParameter := by
      rintro rfl
      exact absurd (Generic.getLast?_of_split parted) (by decide)
    simp [resolveReference_of_generic_argument stripped parted origin, notT]

/-- Of the references to the one argument of a generic class, exactly those become its parameter
whose name is plain and stands in the name of the class without margins. -/
theorem selfReference_collapses_iff {definitions : Value} {origin : String}
    {classes : List BaseClass}
    (extracted : (BaseClass.ofDefinitions definitions origin).outcome = .ok classes)
    {key : String} {definition : Value} (declared : definitions.Declares key definition)
    {outer payload argument : List Char}
    (parted : Generic.split key.toList = some (outer, payload))
    (single : Generic.arguments payload = some [argument])
    (notPlaceholder : argument ≠ "Model".toList)
    (notList : ∀ inner, Generic.split argument ≠ some ("List".toList, inner)) :
    ∃ base fields, (BaseClass.ofDefinition origin (.text key, definition)).outcome = .ok base ∧
      definitionFields definition = .ok fields ∧
      List.Forall₂ (fun field property =>
        field.2.PointsTo (String.ofList ("#/definitions/".toList ++ argument)) →
          (property.dataType.reference = "T0" ↔
            (payload = argument ∧ Generic.split argument = none) ∨
              (argument = "T0".toList ∧ origin.toList <:+: "T0".toList)))
        fields base.properties := by
  obtain ⟨entries, hentries, member⟩ := declared
  obtain ⟨known, built, hknown, each, -⟩ := BaseClass.of_ofDefinitions extracted
  obtain rfl := Except.ok.inj (hentries.symm.trans hknown)
  obtain ⟨base, -, returned⟩ := forall₂_exists_right each member
  obtain ⟨name, required, fields, hname, -, hfields, properties⟩ :=
    BaseClass.of_ofDefinition returned
  obtain rfl := Except.ok.inj hname
  refine ⟨base, fields, returned, hfields, properties.imp ?_⟩
  intro field property ofField points
  obtain ⟨⟨raw, refers, referenced⟩, -⟩ :=
    DataType.of_ofSchema (Property.of_ofEntry ofField).1
  obtain rfl := points.eq_of_refersBy (by simp [String.ofList_eq_empty_iff]) refers
  rw [referenced, Generic.selfArgument_eq_payload parted single notList]
  have asText : ∀ reference, String.ofList reference = "T0" ↔ reference = selfParameter := by
    intro reference
    rw [← String.toList_inj, String.toList_ofList]
    rfl
  rw [asText, String.toList_ofList, String.toList_ofList]
  exact resolveReference_eq_selfParameter_iff single notPlaceholder origin.toList

def pageHolder : Value :=
  .map [(.text "properties", .map [(.text "data",
    .map [(.text "$ref", .text "#/definitions/Page«User»")])])]

theorem selfReference_of_nested_argument :
    ∃ base property,
      (BaseClass.ofDefinition "" (.text "Result«Page«User»»", pageHolder)).outcome = .ok base ∧
        base.properties = [property] ∧ property.dataType.reference ≠ "T0" := by
  have extracted : (BaseClass.ofDefinitions (.map [(.text "Result«Page«User»»", pageHolder)])
      "").outcome = .ok [⟨"Result<T0>", "",
        [⟨"data", "", false, ⟨false, .empty, "defs.Page<defs.User>", none⟩, none⟩]⟩] :=
    Outcome.eq_ok_of_toOption (by decide +kernel)
  have parted : Generic.split "Result«Page«User»»".toList =
      some ("Result".toList, "Page«User»".toList) := by decide
  have single : Generic.arguments "Page«User»".toList = some ["Page«User»".toList] := by decide
  have nested : Generic.split "Page«User»".toList = some ("Page".toList, "User".toList) := by decide
  have notList : ∀ inner, Generic.split "Page«User»".toList ≠ some ("List".toList, inner) := by
    intro inner same
    exact absurd (Prod.mk.inj (Option.some.inj (nested.symm.trans same))).1 (by decide)
  obtain ⟨base, fields, returned, hfields, properties⟩ :=
    selfReference_collapses_iff extracted ⟨_, rfl, List.mem_singleton_self _⟩ parted single
      (by decide) notList
  obtain rfl := Except.ok.inj hfields
  obtain ⟨property, others, first, rest, same⟩ := List.forall₂_cons_left_iff.mp properties
  obtain rfl := List.forall₂_nil_left_iff.mp rest
  refine ⟨base, property, returned, same, fun parameter => ?_⟩
  rcases (first (.direct rfl)).mp parameter with ⟨-, plain⟩ | ⟨same, -⟩
  · exact absurd plain (by decide)
  · exact absurd same (by decide)

end ApiCatalog
