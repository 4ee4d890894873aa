import ApiCatalog.Model.Export
import ApiCatalog.Proofs.Extract.CatalogInvariant
import ApiCatalog.Proofs.Json.RoundTrip
import ApiCatalog.Proofs.Model.CheckedForm

/-!
Catalogues as texts. The JSON form of a record passes the check of its kind and gives the record
again, so a catalogue is read back from its text whatever the indentation.
-/

namespace ApiCatalog
namespace Check

theorem enumMember_toJson (member : EnumMember) :
    enumMember (Value.ofJson member.toJson) = .valid member := by
  cases member <;> rfl

theorem primitive_toJson (primitive : Primitive) :
    choice Primitive.ofName? (Value.ofJson (.string primitive.name)) = .valid primitive := by
  rw [Value.ofJson, choice, Primitive.ofName?_name]

theorem location_toJson (location : Location) :
    choice Location.ofName? (Value.ofJson (.string location.name)) = .valid location := by
  rw [Value.ofJson, choice, Location.ofName?_name]

theorem enumeration_toJson (enumeration : Option (List EnumMember)) :
    optional (list enumMember) (Value.ofJson (match enumeration with
      | none => .null
      | some members => .list (members.map EnumMember.toJson))) = .valid enumeration := by
  cases enumeration with
  | none => rfl
  | some members =>
    have each := list_toJson fun member (_ : member ∈ members) => enumMember_toJson member
    exact congrArg (some <$> ·) each

theorem optionalLocation_toJson (location : Option Location) :
    optional (choice Location.ofName?) (Value.ofJson (match location with
      | none => .null
      | some location => .string location.name)) = .valid location := by
  cases location with
  | none => rfl
  | some location => exact congrArg (some <$> ·) (location_toJson location)

theorem dataType_toJson (t : DataType) : dataType (Value.ofJson t.toJson) = .valid t := by
  rw [dataType, DataType.toJson, record_toJson, field_toJson rfl _ (bool_toJson t.isArray),
    field_toJson rfl _ (primitive_toJson t.primitive), field_toJson rfl _ (text_toJson t.reference),
    field_toJson rfl _ (enumeration_toJson t.enumeration)]
  rfl

theorem property_toJson (p : Property) : property (Value.ofJson p.toJson) = .valid p := by
  rw [property, Property.toJson, record_toJson, requiredField_toJson rfl (text_toJson p.name),
    field_toJson rfl _ (text_toJson p.description), field_toJson rfl _ (bool_toJson p.required),
    field_toJson rfl _ (dataType_toJson p.dataType),
    field_toJson rfl _ (optionalLocation_toJson p.location)]
  rfl

theorem interface_toJson (i : Interface) : interface (Value.ofJson i.toJson) = .valid i := by
  have consumes := list_toJson fun s (_ : s ∈ i.consumes) => text_toJson s
  have parameters := list_toJson fun p (_ : p ∈ i.parameters) => property_toJson p
  rw [interface, Interface.toJson, record_toJson, requiredField_toJson rfl (text_toJson i.name),
    field_toJson rfl _ (text_toJson i.description), requiredField_toJson rfl (text_toJson i.method),
    requiredField_toJson rfl (text_toJson i.path), field_toJson rfl _ consumes,
    field_toJson rfl _ (dataType_toJson i.response), field_toJson rfl _ parameters]
  rfl

theorem apiModule_toJson (m : ApiModule) : apiModule (Value.ofJson m.toJson) = .valid m := by
  have interfaces := list_toJson fun i (_ : i ∈ m.interfaces) => interface_toJson i
  rw [apiModule, ApiModule.toJson, record_toJson, requiredField_toJson rfl (text_toJson m.name),
    field_toJson rfl _ (text_toJson m.description), field_toJson rfl _ interfaces]
  rfl

-- The name without type parameters is written and passed over: it follows from the name.
theorem baseClass_toJson (b : BaseClass) : baseClass (Value.ofJson b.toJson) = .valid b := by
  have properties := list_toJson fun p (_ : p ∈ b.properties) => property_toJson p
  rw [baseClass, BaseClass.toJson, record_toJson, requiredField_toJson rfl (text_toJson b.name),
    field_toJson rfl _ (text_toJson b.description), field_toJson rfl _ properties]
  rfl

theorem catalog_toJson (c : Catalog) : catalog (Value.ofJson c.toJson) = .valid c := by
  have modules := list_toJson fun m (_ : m ∈ c.modules) => apiModule_toJson m
  have classes := list_toJson fun b (_ : b ∈ c.baseClasses) => baseClass_toJson b
  rw [catalog, Catalog.toJson, record_toJson, field_toJson rfl _ (text_toJson c.name),
    field_toJson rfl _ modules, field_toJson rfl _ classes]
  rfl

end Check

namespace Json

theorem Writable.list_map {α : Type} {form : α → Json} {xs : List α}
    (each : ∀ x ∈ xs, Writable (form x)) : Writable (.list (xs.map form)) := by
  refine .list fun item member => ?_
  obtain ⟨x, inside, rfl⟩ := List.mem_map.mp member
  exact each x inside

end Json

/-- A member of an enumeration that a text can hold: a whole number has a limit of digits, and
doubles are finite. -/
def EnumMember.IsWritable : EnumMember → Prop
  | .int n => (Number.digitsOf n.natAbs).length ≤ Number.digitLimit
  | .float x => x.isFinite = true
  | _ => True

theorem EnumMember.writable_toJson {member : EnumMember} (fits : member.IsWritable) :
    member.toJson.Writable := by
  cases member with
  | text s => exact .string s
  | bool b => exact .bool b
  | int n =>
    refine .int (decide_eq_true ?_)
    exact (Number.length_digitsOf_le_iff (by decide)).mp fits
  | float x => exact .float fits

def DataType.enumMembers (t : DataType) : List EnumMember :=
  t.enumeration.getD []

def Catalog.enumMembers (c : Catalog) : List EnumMember :=
  c.dataTypes.flatMap DataType.enumMembers

def DataType.IsWritable (t : DataType) : Prop :=
  ∀ member ∈ t.enumMembers, member.IsWritable

theorem DataType.writable_toJson {t : DataType} (fits : t.IsWritable) : t.toJson.Writable := by
  obtain ⟨isArray, primitive, reference, enumeration⟩ := t
  refine .object (by simp) ?_
  simp only [List.forall_mem_cons, List.not_mem_nil, false_imp_iff, implies_true, and_true]
  refine ⟨.bool _, .string _, .string _, ?_⟩
  cases enumeration with
  | none => exact .null
  | some members =>
    exact .list_map fun member inside => EnumMember.writable_toJson (fits member inside)

theorem Property.writable_toJson {p : Property} (fits : p.dataType.IsWritable) :
    p.toJson.Writable := by
  obtain ⟨name, description, required, dataType, location⟩ := p
  refine .object (by simp) ?_
  simp only [List.forall_mem_cons, List.not_mem_nil, false_imp_iff, implies_true, and_true]
  refine ⟨.string _, .string _, .bool _, DataType.writable_toJson fits, ?_⟩
  cases location with
  | none => exact .null
  | some location => exact .string _

theorem Interface.writable_toJson {i : Interface} (response : i.response.IsWritable)
    (parameters : ∀ p ∈ i.parameters, p.dataType.IsWritable) : i.toJson.Writable := by
  refine .object (by simp) ?_
  simp only [List.forall_mem_cons, List.not_mem_nil, false_imp_iff, implies_true, and_true]
  exact ⟨.string _, .string _, .string _, .string _, .list_map fun s _ => .string s,
    DataType.writable_toJson response,
    .list_map fun p inside => Property.writable_toJson (parameters p inside)⟩

theorem ApiModule.writable_toJson {m : ApiModule}
    (interfaces : ∀ i ∈ m.interfaces, i.toJson.Writable) : m.toJson.Writable := by
  refine .object (by simp) ?_
  simp only [List.forall_mem_cons, List.not_mem_nil, false_imp_iff, implies_true, and_true]
  exact ⟨.string _, .string _, .list_map interfaces⟩

theorem BaseClass.writable_toJson {b : BaseClass}
    (properties : ∀ p ∈ b.properties, p.dataType.IsWritable) : b.toJson.Writable := by
  refine .object (by simp) ?_
  simp only [List.forall_mem_cons, List.not_mem_nil, false_imp_iff, implies_true, and_true]
  exact ⟨.string _, .string _,
    .list_map fun p inside => Property.writable_toJson (properties p inside), .string _⟩

namespace Catalog

theorem writable_toJson {c : Catalog} (fits : ∀ member ∈ c.enumMembers, member.IsWritable) :
    c.toJson.Writable := by
  have types : ∀ t ∈ c.dataTypes, t.IsWritable := fun t inside member belongs =>
    fits member (List.mem_flatMap.mpr ⟨t, inside, belongs⟩)
  have classes : ∀ b ∈ c.baseClasses, b.toJson.Writable := fun b inside =>
    BaseClass.writable_toJson fun p member =>
      types p.dataType (List.mem_append_left _
        (List.mem_flatMap.mpr ⟨b, inside, List.mem_map_of_mem member⟩))
  have interfaces : ∀ i ∈ c.interfaces, ∀ t ∈ i.response :: i.parameters.map Property.dataType,
      t.IsWritable := fun i inside t member =>
    types t (List.mem_append_right _ (List.mem_flatMap.mpr ⟨i, inside, member⟩))
  have modules : ∀ m ∈ c.modules, m.toJson.Writable := fun m inside =>
    ApiModule.writable_toJson fun i member =>
      have known := interfaces i (mem_interfaces.mpr ⟨m, inside, member⟩)
      Interface.writable_toJson (known i.response List.mem_cons_self) fun p belongs =>
        known p.dataType (List.mem_cons_of_mem _ (List.mem_map_of_mem belongs))
  refine .object (by simp) ?_
  simp only [List.forall_mem_cons, List.not_mem_nil, false_imp_iff, implies_true, and_true]
  exact ⟨.string _, .list_map modules, .list_map classes⟩

/-- A catalogue whose enumerations a text can hold is read back from its text. -/
theorem check_modelText (indent : Option Nat) {c : Catalog}
    (fits : ∀ member ∈ c.enumMembers, member.IsWritable) :
    ∃ json, Json.parse (modelText indent c.toJson).toList = .ok json ∧
      Check.catalog (Value.ofJson json) = .valid c := by
  have parsed := @Json.parse_write ⟨indent, false⟩ _ (writable_toJson fits) [] (by simp)
  rw [List.append_nil] at parsed
  refine ⟨c.toJson, ?_, Check.catalog_toJson c⟩
  rw [modelText, Json.render, String.toList_ofList]
  exact parsed

def ofKinds : Catalog where
  name := ""
  modules := []
  baseClasses := [⟨"Flag", "", [⟨"value", "", true, ⟨false, .string, "",
    some [.text "0", .bool false, .int 0, .float (Number.Double.zero true)]⟩, none⟩]⟩]

theorem check_modelText_ofKinds : (∀ member ∈ ofKinds.enumMembers, member.IsWritable) ∧
    ∃ json, Json.parse (modelText (some 0) ofKinds.toJson).toList = .ok json ∧
      Check.catalog (Value.ofJson json) = .valid ofKinds := by
  have fits : ∀ member ∈ ofKinds.enumMembers, member.IsWritable := by
    intro member inside
    have kinds : member ∈ [.text "0", .bool false, .int 0, .float (Number.Double.zero true)] :=
      inside
    simp only [List.mem_cons, List.not_mem_nil, or_false] at kinds
    rcases kinds with rfl | rfl | rfl | rfl
    · trivial
    · trivial
    · show (Number.digitsOf 0).length ≤ Number.digitLimit
      decide
    · rfl
  exact ⟨fits, check_modelText (some 0) fits⟩

end Catalog
end ApiCatalog
