import ApiCatalog.Proofs.Extract.ReferenceForm
import ApiCatalog.Proofs.Extract.SchemaType

/-!
References to plain definitions. The name of a definition gets the namespace of the document exactly
if the origin is no part of the name. Where it is, the name stays as it is, or gets the bare
namespace if one is asked for.
-/

namespace ApiCatalog

section
variable {self origin name : List Char} {always : Bool} (plain : Generic.split name = none)
  (filled : name ≠ []) (notPlaceholder : name ≠ placeholderModel) (other : name ≠ self)
include plain filled notPlaceholder other

theorem resolveReference_plain_of_not_contained (foreign : ¬origin <:+: name) :
    resolveReference self origin always (Generic.definitionsLead ++ name) =
      Generic.namespaceLead ++ origin ++ '.' :: name := by
  have used := Generic.useName_reference_of_plain plain origin
  rw [resolveReference_of_not_contained (by rwa [used]) (by rwa [used]) (by rwa [used])
    (by rwa [used]), used]

theorem resolveReference_plain_of_contained (unqualified : ¬Generic.namespaceLead <+: name)
    (occurs : origin <:+: name) :
    resolveReference self origin always (Generic.definitionsLead ++ name) =
      if always then Generic.namespaceLead ++ name else name := by
  have used := Generic.useName_reference_of_plain plain origin
  have bare : Generic.isQualified name = false :=
    Bool.eq_false_iff.mpr (mt List.isPrefixOf_iff_prefix.mp unqualified)
  rw [resolveReference_of_contained (by rwa [used]) (by rwa [used]) (by rwa [used])
    (by rwa [used]), used, bare]
  simp

theorem resolveReference_plain_eq_qualified_iff (unqualified : ¬Generic.namespaceLead <+: name) :
    resolveReference self origin always (Generic.definitionsLead ++ name) =
      Generic.namespaceLead ++ origin ++ '.' :: name ↔ ¬origin <:+: name := by
  constructor
  · intro qualified occurs
    rw [resolveReference_plain_of_contained plain filled notPlaceholder other unqualified occurs]
      at qualified
    -- The full form is longer than either form without the origin.
    have lengths := congrArg List.length qualified
    cases always <;> simp at lengths <;> omega
  · exact resolveReference_plain_of_not_contained plain filled notPlaceholder other

end

/-- The reference to a plain definition, by the schema itself or through its items, has the
namespace of the document before the name exactly if the origin does not occur in the name. -/
theorem DataType.ofSchema_plain_reference {schema : Value} {name self origin : String}
    {always : Bool} (points : schema.PointsTo ("#/definitions/" ++ name)) (filled : name ≠ "")
    (plain : Generic.split name.toList = none) (notPlaceholder : name ≠ "Model")
    (unqualified : ¬"defs.".toList <+: name.toList) (other : name ≠ self) :
    ∃ typeName listed reference, schemaType schema = .ok typeName ∧
      schema.field "enum" = .ok listed ∧
      (DataType.ofSchema schema self origin always).outcome =
        (fun members => ⟨typeName == "array", .empty, reference, members⟩) <$>
          EnumMember.ofListed listed ∧
      (reference = "defs." ++ origin ++ "." ++ name ↔ ¬origin.toList <:+: name.toList) ∧
      (origin.toList <:+: name.toList →
        reference = if always then "defs." ++ name else name) := by
  have raw : ("#/definitions/" ++ name).toList = Generic.definitionsLead ++ name.toList :=
    String.toList_append
  have filled' : name.toList ≠ [] := by simpa using filled
  have notPlaceholder' : name.toList ≠ placeholderModel := mt String.toList_inj.mp notPlaceholder
  have other' : name.toList ≠ self.toList := mt String.toList_inj.mp other
  have given :
      resolveReference self.toList origin.toList always ("#/definitions/" ++ name).toList ≠ [] := by
    rw [raw, Ne, resolveReference_definition_eq_nil_iff]
    exact not_or.mpr ⟨filled', notPlaceholder'⟩
  obtain ⟨typeName, listed, htype, hlisted, returned⟩ :=
    DataType.outcome_ofSchema_of_pointsTo points (by simp) given
  refine ⟨typeName, listed, _, htype, hlisted, returned, ?_, ?_⟩
  · have qualified : ("defs." ++ origin ++ "." ++ name).toList =
        Generic.namespaceLead ++ origin.toList ++ '.' :: name.toList := by
      simp [Generic.namespaceLead]
    rw [← String.toList_inj, String.toList_ofList, qualified, raw]
    exact resolveReference_plain_eq_qualified_iff plain filled' notPlaceholder' other' unqualified
  · intro occurs
    rw [← String.toList_inj, String.toList_ofList, raw, resolveReference_plain_of_contained plain
      filled' notPlaceholder' other' unqualified occurs]
    cases always
    · rfl
    · exact String.toList_append.symm

theorem DataType.reference_of_array_of_pets :
    (DataType.ofSchema (.map [(.text "type", .text "array"),
      (.text "items", .map [(.text "$ref", .text "#/definitions/Pet")])]) "" "api" true).outcome =
      .ok ⟨true, .empty, "defs.api.Pet", none⟩ := by
  have points : (Value.map [(.text "type", .text "array"),
      (.text "items", .map [(.text "$ref", .text "#/definitions/Pet")])]).PointsTo
        ("#/definitions/" ++ "Pet") :=
    .items rfl rfl rfl rfl rfl
  obtain ⟨typeName, listed, reference, htype, hlisted, returned, qualified, -⟩ :=
    @DataType.ofSchema_plain_reference _ "Pet" "" "api" true points (by decide) (by decide)
      (by decide) (by decide) (by decide)
  obtain rfl := Except.ok.inj htype
  obtain rfl := Except.ok.inj hlisted
  obtain rfl := qualified.mpr (by decide)
  exact returned

theorem DataType.reference_of_name_with_origin :
    Generic.split "Carpet".toList = none ∧ ¬"defs.".toList <+: "Carpet".toList ∧
      ¬"#/definitions/".toList <+: "Carpet".toList ∧
      (DataType.ofSchema (.map [(.text "$ref", .text "#/definitions/Carpet")]) "" "pet"
        false).outcome = .ok ⟨false, .empty, "Carpet", none⟩ ∧
      "Carpet" ≠ "defs." ++ "pet" ++ "." ++ "Carpet" :=
  ⟨by decide, by decide, by decide, Outcome.eq_ok_of_toOption (by decide +kernel), by decide⟩

end ApiCatalog
