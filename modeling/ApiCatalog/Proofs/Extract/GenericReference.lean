import ApiCatalog.Proofs.Extract.ReferenceForm
import ApiCatalog.Proofs.Extract.SchemaType
import ApiCatalog.Proofs.Generic.NameParts

/-!
References to generic definitions. The use form of a generic name is qualified part by part. Where
the origin occurs nowhere in it, the namespace of the document comes before the whole as well; a
single name of the document's own rules that out.
-/

namespace ApiCatalog

section

variable {self origin name : List Char}

theorem resolveReference_of_occurs (last : (Generic.useName origin name).getLast? = some '>')
    (other : Generic.useName origin name ≠ self)
    (occurs : origin <:+: Generic.useName origin name) :
    resolveReference self origin false name = Generic.useName origin name := by
  obtain ⟨filled, notPlaceholder⟩ := filled_of_getLast? last
  rw [resolveReference_of_contained filled notPlaceholder other occurs, if_neg (by simp)]

theorem resolveReference_of_foreign (last : (Generic.useName origin name).getLast? = some '>')
    (other : Generic.useName origin name ≠ self)
    (foreign : ¬origin <:+: Generic.useName origin name) :
    resolveReference self origin false name =
      Generic.namespaceLead ++ origin ++ '.' :: Generic.useName origin name := by
  obtain ⟨filled, notPlaceholder⟩ := filled_of_getLast? last
  exact resolveReference_of_not_contained filled notPlaceholder other foreign

end

theorem DataType.outcome_ofSchema_reference {raw self origin : String} {always : Bool}
    (filled : resolveReference self.toList origin.toList always raw.toList ≠ []) :
    (DataType.ofSchema (.map [(.text "$ref", .text raw)]) self origin always).outcome =
      .ok ⟨false, .empty,
        String.ofList (resolveReference self.toList origin.toList always raw.toList), none⟩ := by
  have nonempty : raw ≠ "" := by
    rintro rfl
    exact filled (resolveReference_eq_nil (Or.inl (Generic.useName_eq _ _)))
  have points : (Value.map [(.text "$ref", .text raw)]).PointsTo raw := .direct rfl
  obtain ⟨typeName, listed, htype, hlisted, returned⟩ :=
    DataType.outcome_ofSchema_of_pointsTo points nonempty filled
  obtain rfl := Except.ok.inj htype
  obtain rfl := Except.ok.inj hlisted
  exact returned

/-- The reference to a generic definition is its use form, all parts of which are settled, exactly
if the origin occurs in it, and the use form in the namespace of the document otherwise. -/
theorem DataType.ofSchema_generic_reference {name self origin : String}
    (generic : (Generic.split name.toList).isSome = true)
    (noReference : ¬"#/definitions/".toList <+: name.toList)
    (other : Generic.useName origin.toList name.toList ≠ self.toList) :
    ∃ reference : String,
      (DataType.ofSchema (.map [(.text "$ref", .text ("#/definitions/" ++ name))]) self origin
        false).outcome = .ok ⟨false, .empty, reference, none⟩ ∧
      (reference.toList = Generic.useName origin.toList name.toList ↔
        origin.toList <:+: Generic.useName origin.toList name.toList) ∧
      (¬origin.toList <:+: Generic.useName origin.toList name.toList →
        reference.toList =
          "defs.".toList ++ origin.toList ++ '.' :: Generic.useName origin.toList name.toList) ∧
      (∀ part, Generic.HasPart name.toList part → part.IsOwn →
        reference.toList = Generic.useName origin.toList name.toList) ∧
      ∀ part, Generic.HasPart name.toList part →
        part.form origin.toList <:+: Generic.useName origin.toList name.toList ∧
          (Generic.IsSettled (part.form origin.toList) ∨ ∃ back, part = .bare ('«' :: back)) := by
  obtain ⟨⟨outer, payload⟩, parted⟩ := Option.isSome_iff_exists.mp generic
  have raw : ("#/definitions/" ++ name).toList = Generic.definitionsLead ++ name.toList :=
    String.toList_append
  have last := Generic.getLast?_useName_reference parted origin.toList
  have same := Generic.useName_reference noReference origin.toList
  have whole (occurs : origin.toList <:+: Generic.useName origin.toList name.toList) :
      resolveReference self.toList origin.toList false ("#/definitions/" ++ name).toList =
        Generic.useName origin.toList name.toList := by
    rw [raw, ← same]
    exact resolveReference_of_occurs last (same ▸ other) (same ▸ occurs)
  have within (foreign : ¬origin.toList <:+: Generic.useName origin.toList name.toList) :
      resolveReference self.toList origin.toList false ("#/definitions/" ++ name).toList =
        Generic.namespaceLead ++ origin.toList ++
          '.' :: Generic.useName origin.toList name.toList := by
    rw [raw, ← same]
    exact resolveReference_of_foreign last (same ▸ other) (same ▸ foreign)
  have filled :
      resolveReference self.toList origin.toList false ("#/definitions/" ++ name).toList ≠ [] := by
    rw [raw, Ne, resolveReference_eq_nil_iff]
    exact not_or.mpr (filled_of_getLast? last)
  refine ⟨_, DataType.outcome_ofSchema_reference filled, ?_⟩
  rw [String.toList_ofList]
  refine ⟨⟨fun equal => ?_, whole⟩, within, ?_, ?_⟩
  · by_contra foreign
    have lengths := congrArg List.length ((within foreign).symm.trans equal)
    simp only [List.length_append, List.length_cons] at lengths
    omega
  · intro part has own
    exact whole (has.origin_infix_useName own origin.toList)
  · intro part has
    exact ⟨has.form_infix_useName origin.toList, has.isSettled generic origin.toList⟩

theorem DataType.reference_of_result_of_pet :
    (DataType.ofSchema (.map [(.text "$ref", .text "#/definitions/Result«Pet»")]) "" "api"
      false).outcome = .ok ⟨false, .empty, "defs.api.Result<defs.api.Pet>", none⟩ := by
  have resolved : Generic.useName "api".toList "Result«Pet»".toList =
      "defs.api.Result<defs.api.Pet>".toList := by decide +kernel
  have parted : Generic.parts (Generic.definitionName "Result«Pet»".toList) =
      some ("Result".toList, ["Pet".toList]) := by decide
  have own : (Generic.Part.outer "Result".toList).IsOwn := by decide
  obtain ⟨reference, returned, -, -, whole, -⟩ :=
    @DataType.ofSchema_generic_reference "Result«Pet»" "" "api" (by decide) (by decide)
      (by rw [resolved]; decide)
  have same := whole _ (.outer parted) own
  rw [resolved, String.toList_inj] at same
  exact same ▸ returned

theorem DataType.reference_of_list_of_strings :
    (Generic.split "List«string»".toList).isSome = true ∧
      ¬"#/definitions/".toList <+: "List«string»".toList ∧
      Generic.useName "api".toList "List«string»".toList = "Array<string>".toList ∧
      (DataType.ofSchema (.map [(.text "$ref", .text "#/definitions/List«string»")]) "" "api"
        false).outcome = .ok ⟨false, .empty, "defs.api.Array<string>", none⟩ :=
  ⟨by decide, by decide, by decide +kernel, Outcome.eq_ok_of_toOption (by decide +kernel)⟩

end ApiCatalog
