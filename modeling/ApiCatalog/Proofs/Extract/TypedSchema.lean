import ApiCatalog.Proofs.Extract.ClassSelection
import ApiCatalog.Proofs.Extract.EnumRange
import ApiCatalog.Proofs.Extract.Parameter
import ApiCatalog.Proofs.Extract.WellTyped

/-!
Types of well-typed schemas. Making the type of a schema, of a field or of a parameter hinges on the
enumeration of the schema alone.
-/

namespace ApiCatalog

theorem DataType.hingesOn_ofSchema {schema : Value} (typed : schema.IsSchema) (self origin : String)
    (always : Bool) : (DataType.ofSchema schema self origin always).HingesOn [schema] := by
  obtain ⟨outer, houter⟩ := exists_schemaType typed.listed.isMap
  obtain ⟨found, hfound⟩ := Value.exists_field_of_isMap typed.listed.isMap "items"
  obtain ⟨direct, hdirect, refers⟩ := typed.reference.field
  obtain ⟨listed, hlisted, nullOrRow⟩ := typed.listed.field
  have row : listed = .null ∨ ∃ items, listed.members = .ok items :=
    nullOrRow.imp_right fun whole => whole.members.imp fun _ => And.left
  -- Items that are no mapping count as empty ones.
  have items : (if found.isMap then found else .emptyMap).MayHave (.text "$ref") Value.IsText := by
    split
    · rename_i mapping
      exact typed.items found hfound mapping
    · exact Value.mayHave_emptyMap _
  obtain ⟨inner, hinner⟩ := exists_schemaType items.isMap
  obtain ⟨ofItems, hofItems, innerRefers⟩ := items.field
  have text : Value.IsText ((direct.orElse ofItems).orElse .emptyText) :=
    (refers.orElse_nullOr innerRefers).orElse Value.isText_emptyText
  obtain ⟨raw, hraw⟩ := text.asText
  have rest (primitive : Primitive) (reference : String) :
      (do
        let listed ← schema.field "enum"
        let members ← EnumMember.ofListed listed
        return ⟨outer == "array", primitive, reference, members⟩ :
          Traced DataType).HingesOn [schema] :=
    .ok_bind hlisted ((Value.hingesOn_ofListed hlisted row).bind_ok fun members _ => ⟨_, rfl⟩)
  have known (name : String) : (knownPrimitive name).HingesOn [] := by
    unfold knownPrimitive
    split <;> exact Traced.hingesOn_of_ok rfl
  unfold DataType.ofSchema
  refine .ok_bind houter ?_
  refine .ok_bind hfound ?_
  refine .ok_bind hinner ?_
  refine .ok_bind hdirect ?_
  refine .ok_bind hofItems ?_
  refine .ok_bind hraw ?_
  exact .ite ((known _).bind fun primitive _ => rest primitive _)
    ((Traced.hingesOn_of_ok rfl).bind fun primitive _ => rest primitive _)

theorem exists_checked {name description : Value} (named : name.IsText)
    (described : description.IsText) (required : Bool) (dataType : DataType)
    (location : Option Location) :
    ∃ p, Property.checked name description required dataType location = .ok p := by
  obtain ⟨s, rfl⟩ := named
  obtain ⟨t, rfl⟩ := described
  exact ⟨⟨s, t, required, dataType, location⟩, rfl⟩

def Value.ownSchemas (parameter : Value) : List Value :=
  (parameterSchema parameter).toOption.toList

theorem Property.hingesOn_ofParameter {parameter : Value} (typed : parameter.IsParameter)
    {name : Value} (named : name.IsText) (origin : String) (location : Location) :
    (Property.ofParameter origin name location parameter).HingesOn parameter.ownSchemas := by
  obtain ⟨schema, hschema, isSchema⟩ := typed.exists_schema
  obtain ⟨description, hdescription, nullOrText⟩ := typed.description.field
  have described := nullOrText.orElse Value.isText_emptyText
  obtain ⟨required, hrequired⟩ :=
    Value.exists_fieldOr_of_isMap typed.description.isMap "required" (.bool false)
  have own : parameter.ownSchemas = [schema] := by
    rw [Value.ownSchemas, hschema]
    rfl
  rw [own]
  unfold Property.ofParameter
  refine .ok_bind hschema ?_
  refine .ok_bind hdescription ?_
  refine .ok_bind hrequired ?_
  refine (DataType.hingesOn_ofSchema isSchema "" origin _).bind_ok fun dataType _ => ?_
  exact exists_checked named described required.truthy dataType (some location)

theorem Property.hingesOn_ofParameters {listed : List Value}
    (typed : ∀ parameter ∈ listed, parameter.IsParameter) (origin : String) (seen : List Value) :
    (Property.ofParameters origin seen listed).HingesOn
      ((firstParameters seen listed).flatMap Value.ownSchemas) := by
  induction listed generalizing seen with
  | nil => exact Traced.hingesOn_of_ok rfl
  | cons parameter rest ih =>
    have first := typed parameter List.mem_cons_self
    have others : ∀ other ∈ rest, other.IsParameter :=
      fun other member => typed other (List.mem_cons_of_mem parameter member)
    obtain ⟨s, hname⟩ := first.name
    have named := Value.givenName_eq hname
    obtain ⟨place, step⟩ := @Property.ofParameters_cons origin seen rest _ first.place.isMap
    rw [step]
    cases known : parameter.givenPlace with
    | none =>
      rw [firstParameters_cons_of_none known]
      exact (Traced.hingesOn_of_ok rfl).bind fun _ _ => ih others seen
    | some location =>
      have isKey : ¬ (!(Value.text s).isKey) = true := Bool.false_ne_true
      dsimp only
      rw [firstParameters_cons_of_some known, named, if_neg isKey]
      by_cases already : seen.any (Value.same (.text s)) = true
      · rw [if_pos already, if_pos already]
        exact (Traced.hingesOn_of_ok rfl).bind fun _ _ => ih others seen
      · rw [if_neg already, if_neg already, List.flatMap_cons]
        refine (Property.hingesOn_ofParameter first ⟨s, rfl⟩ origin location).bind fun p _ => ?_
        exact (ih others _).bind_ok fun more _ => ⟨p :: more, rfl⟩

theorem exists_isRequired {property listed : Value} (mapping : property.isMap = true)
    (row : listed.IsListOf Value.IsText) (name : Value) :
    ∃ required, isRequired property name listed = .ok required := by
  obtain ⟨flag, hflag⟩ := Value.exists_field_of_isMap mapping "required"
  obtain ⟨items, opens, -⟩ := row
  have listedHolds : listed.holds name = .ok (items.any (Value.same name)) := by
    simp [Value.holds, opens]
  rw [isRequired, hflag]
  cases flag with
  | bool b => exact ⟨b, rfl⟩
  | _ => exact ⟨_, listedHolds⟩

theorem Property.hingesOn_ofEntry {entry : Value × Value} (named : entry.1.IsText)
    (typed : entry.2.IsField) {required : Value} (row : required.IsListOf Value.IsText)
    (self origin : String) :
    (Property.ofEntry self origin required entry).HingesOn [entry.2] := by
  obtain ⟨description, hdescription, nullOrText⟩ := typed.description.field
  have described := nullOrText.orElse Value.isText_emptyText
  obtain ⟨flag, hflag⟩ := exists_isRequired typed.description.isMap row entry.1
  unfold Property.ofEntry
  refine .ok_bind hdescription (.ok_bind hflag ?_)
  refine (DataType.hingesOn_ofSchema typed.toIsSchema self origin _).bind_ok fun dataType _ => ?_
  exact exists_checked named described flag dataType none

def Value.fieldSchemas (definition : Value) : List Value :=
  ((definitionFields definition).toOption.getD []).map (·.2)

theorem BaseClass.hingesOn_ofDefinition {entry : Value × Value} (named : entry.1.IsText)
    (typed : entry.2.IsNullOr Value.IsDefinition) (origin : String) :
    (BaseClass.ofDefinition origin entry).HingesOn entry.2.fieldSchemas := by
  obtain ⟨name, hname⟩ := named.asText
  have definition := typed.orElse Value.isDefinition_emptyMap
  obtain ⟨required, hrequired, nullOrRow⟩ := definition.required.field
  have row := nullOrRow.orElse Value.isListOf_emptyList
  obtain ⟨properties, hproperties, nullOrMap⟩ := definition.properties.field
  obtain ⟨entries, hentries, each⟩ := (nullOrMap.orElse Value.isMapOf_emptyMap).entries
  obtain ⟨description, hdescription, nullOrText⟩ := definition.description.field
  obtain ⟨text, described⟩ := (nullOrText.orElse Value.isText_emptyText).check
  have own : entry.2.fieldSchemas = entries.flatMap fun field => [field.2] := by
    have listed : definitionFields entry.2 = .ok entries :=
      Outcome.bind_eq_ok_iff.mpr ⟨properties, hproperties, hentries⟩
    rw [Value.fieldSchemas, listed]
    exact List.map_eq_flatMap
  rw [own]
  unfold BaseClass.ofDefinition
  refine .ok_bind hname (.ok_bind hrequired (.ok_bind hproperties (.ok_bind hentries ?_)))
  refine (Traced.hingesOn_mapM fun field member => Property.hingesOn_ofEntry (each field member).1
    (each field member).2 row _ origin).bind_ok fun properties _ => ?_
  refine ⟨⟨String.ofList (Generic.declarationName name.toList), text, properties⟩,
    Traced.outcome_bind_eq_ok_iff.mpr ⟨description, hdescription, ?_⟩⟩
  dsimp only
  rw [described]
  rfl

theorem BaseClass.hingesOn_ofDefinitions {definitions : Value}
    (typed : definitions.IsMapOf (Value.IsNullOr Value.IsDefinition)) (origin : String) :
    ∃ entries, (definitions.orElse .emptyMap).entries = .ok entries ∧
      (BaseClass.ofDefinitions definitions origin).HingesOn
        (entries.flatMap fun entry => entry.2.fieldSchemas) := by
  obtain ⟨entries, hentries, each⟩ :=
    (Value.IsNullOr.orElse (.inr typed) Value.isMapOf_emptyMap).entries
  refine ⟨entries, hentries, .ok_bind hentries ?_⟩
  refine (Traced.hingesOn_mapM fun entry member => BaseClass.hingesOn_ofDefinition
    (each entry member).1 (each entry member).2 origin).bind_ok fun classes _ => ?_
  exact ⟨_, BaseClass.outcome_sortUnique classes⟩

end ApiCatalog
