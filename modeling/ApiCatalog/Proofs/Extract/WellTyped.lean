import ApiCatalog.Extract.Catalog
import ApiCatalog.Proofs.Extract.SchemaType

/-!
Documents of the usual shape. What such a document says of names, tags, operations and schemas is of
the kind that is asked for, or is absent or null; types and flags may be anything.
-/

namespace ApiCatalog.Value

def IsText (value : Value) : Prop :=
  ∃ s, value = .text s

def IsListOf (shape : Value → Prop) (value : Value) : Prop :=
  ∃ items, value.opened = .list items ∧ ∀ item ∈ items, shape item

def IsMapOf (shape : Value → Prop) (value : Value) : Prop :=
  ∃ entries, value.opened = .map entries ∧ ∀ entry ∈ entries, IsText entry.1 ∧ shape entry.2

def IsNullOr (shape : Value → Prop) (value : Value) : Prop :=
  value = .null ∨ shape value

def MayHave (value key : Value) (shape : Value → Prop) : Prop :=
  ∃ found, value.lookup? key = .ok found ∧ ∀ inner ∈ found, inner.IsNullOr shape

structure IsTyped (value : Value) : Prop where
  items : ∀ items, value.field "items" = .ok items → items.isMap = true →
    items.MayHave (.text "$ref") IsText
  listed : value.MayHave (.text "enum") (IsListOf fun _ => True)

structure IsSchema (schema : Value) : Prop extends schema.IsTyped where
  reference : schema.MayHave (.text "$ref") IsText

structure IsField (schema : Value) : Prop extends schema.IsSchema where
  description : schema.MayHave (.text "description") IsText

structure IsDefinition (definition : Value) : Prop where
  description : definition.MayHave (.text "description") IsText
  required : definition.MayHave (.text "required") (IsListOf IsText)
  properties : definition.MayHave (.text "properties") (IsMapOf IsField)

structure IsParameter (parameter : Value) : Prop extends parameter.IsTyped where
  name : ∃ s, parameter.fieldOr "name" .emptyText = .ok (.text s)
  place : parameter.MayHave (.text "in") IsText
  description : parameter.MayHave (.text "description") IsText
  schema : parameter.MayHave (.text "schema") IsSchema

structure IsOperation (operation : Value) : Prop where
  tags : operation.MayHave (.text "tags") (IsListOf IsText)
  id : operation.MayHave (.text "operationId") IsText
  summary : operation.MayHave (.text "summary") IsText
  consumes : operation.MayHave (.text "consumes") (IsListOf IsText)
  /-- Documents in YAML may key responses by number. -/
  responses : operation.MayHave (.text "responses") fun responses =>
    ∀ key ∈ [Value.text "200", .int 200], responses.MayHave key fun response =>
      response.MayHave (.text "schema") IsSchema
  parameters : operation.MayHave (.text "parameters") (IsListOf IsParameter)

def IsPathItem (item : Value) : Prop :=
  ∀ entries, item.opened = .map entries → ∀ entry ∈ entries, ∃ key, entry.1 = .text key ∧
    (lowerText key ∈ httpMethods → entry.2.isMap = true → entry.2.IsOperation)

structure IsTag (tag : Value) : Prop where
  name : tag.MayHave (.text "name") IsText
  description : tag.MayHave (.text "description") IsText

structure IsWellTyped (document : Value) : Prop where
  name : document.MayHave (.text "name") IsText
  definitions : document.MayHave (.text "definitions") (IsMapOf (IsNullOr IsDefinition))
  paths : document.MayHave (.text "paths") (IsMapOf IsPathItem)
  tags : document.MayHave (.text "tags") (IsListOf IsTag)

section
variable {α : Type} {value other : Value} {shape : Value → Prop}

theorem IsNullOr.orElse (first : value.IsNullOr shape) (second : shape other) :
    shape (value.orElse other) := by
  unfold Value.orElse
  split
  · rename_i counts
    rcases first with rfl | holds
    · exact absurd counts Bool.false_ne_true
    · exact holds
  · exact second

theorem IsNullOr.orElse_nullOr (first : value.IsNullOr shape) (second : other.IsNullOr shape) :
    (value.orElse other).IsNullOr shape := by
  have nested : value.IsNullOr (IsNullOr shape) := Or.imp_right Or.inr first
  exact nested.orElse second

theorem isText_emptyText : IsText emptyText :=
  ⟨"", rfl⟩

theorem isListOf_emptyList : IsListOf shape emptyList :=
  ⟨[], rfl, fun _ member => absurd member List.not_mem_nil⟩

theorem isMapOf_emptyMap : IsMapOf shape emptyMap :=
  ⟨[], rfl, fun _ member => absurd member List.not_mem_nil⟩

theorem mayHave_of_absent {key : Value} (nothing : value.lookup? key = .ok none) :
    value.MayHave key shape :=
  ⟨none, nothing, fun _ found => absurd found (Option.not_mem_none _)⟩

theorem mayHave_of_present {key inner : Value} (something : value.lookup? key = .ok (some inner))
    (holds : shape inner) : value.MayHave key shape :=
  ⟨some inner, something, fun _ found => Option.mem_some.mp found ▸ Or.inr holds⟩

theorem mayHave_emptyMap (key : Value) : emptyMap.MayHave key shape :=
  mayHave_of_absent rfl

theorem isMapOf_singleton {key inner : Value} (text : key.IsText) (holds : shape inner) :
    IsMapOf shape (.map [(key, inner)]) :=
  ⟨_, rfl, fun _ member => List.mem_singleton.mp member ▸ ⟨text, holds⟩⟩

theorem isSchema_emptyMap : emptyMap.IsSchema where
  items := by
    rintro items found mapping
    obtain rfl := Except.ok.inj found
    exact absurd mapping Bool.false_ne_true
  listed := mayHave_emptyMap _
  reference := mayHave_emptyMap _

theorem isDefinition_emptyMap : emptyMap.IsDefinition :=
  ⟨mayHave_emptyMap _, mayHave_emptyMap _, mayHave_emptyMap _⟩

theorem MayHave.isMap {key : Value} (has : value.MayHave key shape) : value.isMap = true := by
  obtain ⟨found, looked, -⟩ := has
  exact isMap_of_lookup? looked

theorem MayHave.field {name : String} (has : value.MayHave (.text name) shape) :
    ∃ found, value.field name = .ok found ∧ found.IsNullOr shape := by
  obtain ⟨found, looked, holds⟩ := has
  refine ⟨found.getD .null, ?_, ?_⟩
  · rw [Value.field, fieldOr, looked]
    rfl
  · cases found with
    | none => exact Or.inl rfl
    | some inner => exact holds inner rfl

theorem IsListOf.members (whole : value.IsListOf shape) :
    ∃ items, value.members = .ok items ∧ ∀ item ∈ items, shape item := by
  obtain ⟨items, opens, each⟩ := whole
  exact ⟨items, by rw [Value.members, opens], each⟩

theorem IsMapOf.entries (whole : value.IsMapOf shape) :
    ∃ entries, value.entries = .ok entries ∧ ∀ entry ∈ entries, IsText entry.1 ∧ shape entry.2 := by
  obtain ⟨entries, opens, each⟩ := whole
  exact ⟨entries, by rw [Value.entries, opens], each⟩

theorem IsText.asText (text : value.IsText) : ∃ s, value.asText = .ok s := by
  obtain ⟨s, rfl⟩ := text
  exact ⟨s, rfl⟩

theorem IsText.check (text : value.IsText) : ∃ s, Check.text value = .valid s := by
  obtain ⟨s, rfl⟩ := text
  exact ⟨s, rfl⟩

theorem exists_eachFrom {check : Value → Checked α} {items : List Value}
    (each : ∀ item ∈ items, ∃ x, check item = .valid x) (place : Nat) :
    ∃ xs, Checked.eachFrom check place items = .valid xs := by
  induction items generalizing place with
  | nil => exact ⟨[], rfl⟩
  | cons item rest ih =>
    obtain ⟨⟨x, first⟩, others⟩ := List.forall_mem_cons.mp each
    obtain ⟨xs, checked⟩ := ih others (place + 1)
    exact ⟨x :: xs, by rw [Checked.eachFrom, first, checked]; rfl⟩

theorem IsListOf.check_list (whole : value.IsListOf IsText) :
    ∃ texts, Check.list Check.text value = .valid texts := by
  obtain ⟨items, opens, each⟩ := whole
  rw [Check.list, opens]
  exact exists_eachFrom (fun item member => (each item member).check) 0

theorem IsParameter.exists_schema {parameter : Value} (typed : parameter.IsParameter) :
    ∃ schema, parameterSchema parameter = .ok schema ∧ schema.IsSchema := by
  obtain ⟨body, hbody, nullOrSchema⟩ := typed.schema.field
  have schema : (body.orElse emptyMap).IsSchema := nullOrSchema.orElse isSchema_emptyMap
  obtain ⟨ownType, hownType⟩ := exists_field_of_isMap typed.schema.isMap "type"
  obtain ⟨ownItems, hownItems⟩ := exists_field_of_isMap typed.schema.isMap "items"
  obtain ⟨ownEnum, hownEnum, ownListed⟩ := typed.listed.field
  obtain ⟨type, htype⟩ := exists_field_of_isMap schema.listed.isMap "type"
  obtain ⟨items, hitems⟩ := exists_field_of_isMap schema.listed.isMap "items"
  obtain ⟨reference, hreference, refers⟩ := schema.reference.field
  obtain ⟨enum, henum, listed⟩ := schema.listed.field
  refine ⟨.map [(.text "type", ownType.orElse type), (.text "items", ownItems.orElse items),
    (.text "$ref", reference), (.text "enum", ownEnum.orElse enum)], ?_, ?_⟩
  · simp only [parameterSchema, hbody, hownType, htype, hownItems, hitems, hreference, hownEnum,
      henum, Bind.bind, Except.bind, Pure.pure, Except.pure]
  · have itemsRefer : ∀ inner, inner = ownItems.orElse items → inner.isMap = true →
        inner.MayHave (.text "$ref") IsText := by
      rintro inner rfl mapping
      unfold Value.orElse at mapping ⊢
      split
      · rename_i counts
        rw [if_pos counts] at mapping
        exact typed.items ownItems hownItems mapping
      · rename_i empty
        rw [if_neg empty] at mapping
        exact schema.items items hitems mapping
    refine { items := ?_, listed := ?_, reference := ?_ }
    · rintro inner found mapping
      exact itemsRefer inner (Except.ok.inj found).symm mapping
    · refine ⟨some (ownEnum.orElse enum), rfl, ?_⟩
      rintro inner ⟨⟩
      exact ownListed.orElse_nullOr listed
    · refine ⟨some reference, rfl, ?_⟩
      rintro inner ⟨⟩
      exact refers

end

end ApiCatalog.Value
