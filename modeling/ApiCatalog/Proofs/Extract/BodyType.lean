import ApiCatalog.Proofs.Extract.Grouping

/-!
Types of bodies. A body merges what it says of its type with its schema; where it says nothing
itself, its type is that of a response with the same schema.
-/

namespace ApiCatalog

theorem DataType.ofSchema_congr {a b : Value}
    (agree : ∀ name ∈ ["type", "items", "$ref", "enum"], a.field name = b.field name)
    (self origin : String) (always : Bool) :
    DataType.ofSchema a self origin always = DataType.ofSchema b self origin always := by
  have typed : a.field "type" = b.field "type" := agree _ (by simp)
  have items : a.field "items" = b.field "items" := agree _ (by simp)
  have refers : a.field "$ref" = b.field "$ref" := agree _ (by simp)
  have listed : a.field "enum" = b.field "enum" := agree _ (by simp)
  simp only [DataType.ofSchema, schemaType, typed, items, refers, listed]

/-- A parameter has no type, items or enumeration of its own, or none that counts. -/
def Value.LeavesTypeToSchema (parameter : Value) : Prop :=
  ∀ name ∈ ["type", "items", "enum"], ∃ own, parameter.field name = .ok own ∧ own.truthy = false

theorem parameterSchema_field {parameter found merged : Value}
    (leaves : parameter.LeavesTypeToSchema) (given : parameter.field "schema" = .ok found)
    (merges : parameterSchema parameter = .ok merged) :
    ∀ name ∈ ["type", "items", "$ref", "enum"],
      merged.field name = (found.orElse .emptyMap).field name := by
  obtain ⟨ownType, hownType, noType⟩ := leaves "type" (by simp)
  obtain ⟨ownItems, hownItems, noItems⟩ := leaves "items" (by simp)
  obtain ⟨ownListed, hownListed, noListed⟩ := leaves "enum" (by simp)
  unfold parameterSchema at merges
  simp only [Outcome.bind_eq_ok_iff, given, hownType, hownItems, hownListed, Except.ok.injEq,
    exists_eq_left', Value.orElse_of_not_truthy noType, Value.orElse_of_not_truthy noItems,
    Value.orElse_of_not_truthy noListed] at merges
  obtain ⟨typed, htyped, items, hitems, reference, href, listed, hlisted, same⟩ := merges
  obtain rfl := Outcome.pure_eq_ok_iff.mp same
  simp only [List.forall_mem_cons, htyped, hitems, href, hlisted]
  exact ⟨rfl, rfl, rfl, rfl, fun _ none => absurd none List.not_mem_nil⟩

/-- The response of an operation to success: keyed by text or, where nothing that counts is keyed
so, by number. Where neither counts, an empty one takes its place. -/
inductive Value.Succeeds (operation : Value) : Value → Prop
  | byText {responses response : Value} (given : operation.field "responses" = .ok responses)
      (keyed : responses.field "200" = .ok response) (filled : response.truthy = true) :
      operation.Succeeds response
  | byNumber {responses absent response : Value}
      (given : operation.field "responses" = .ok responses)
      (nothing : responses.field "200" = .ok absent) (empty : absent.truthy = false)
      (keyed : responses.lookup? (.int 200) = .ok (some response))
      (filled : response.truthy = true) : operation.Succeeds response
  | empty {responses absent : Value} {numbered : Option Value}
      (given : operation.field "responses" = .ok responses)
      (nothing : responses.field "200" = .ok absent) (empty : absent.truthy = false)
      (keyed : responses.lookup? (.int 200) = .ok numbered)
      (uncounted : (numbered.getD .null).truthy = false) : operation.Succeeds .emptyMap

theorem responseSchema_of_succeeds {operation response found : Value}
    (succeeds : operation.Succeeds response) (given : response.field "schema" = .ok found) :
    responseSchema operation = .ok (found.orElse .emptyMap) := by
  -- However the response is keyed, the schema is a field of the one that counts.
  have reads {responses byText : Value} {byNumber : Option Value}
      (read : operation.field "responses" = .ok responses)
      (text : responses.field "200" = .ok byText)
      (number : responses.lookup? (.int 200) = .ok byNumber)
      (counts : (byText.orElse (byNumber.getD .null)).orElse .emptyMap = response) :
      responseSchema operation = .ok (found.orElse .emptyMap) := by
    have mapping := Value.orElse_emptyMap_of_isMap (Value.isMap_of_field text)
    unfold responseSchema
    simp only [Outcome.bind_eq_ok_iff]
    refine ⟨_, read, byText, mapping.symm ▸ text, byNumber, mapping.symm ▸ number, found, ?_, rfl⟩
    rw [counts, given]
  cases succeeds with
  | byText read keyed filled =>
    obtain ⟨byNumber, looked⟩ :=
      Value.exists_lookup?_of_isMap (Value.isMap_of_field keyed) (.int 200)
    refine reads read keyed looked ?_
    rw [Value.orElse_of_truthy filled, Value.orElse_of_truthy filled]
  | byNumber read nothing empty keyed filled =>
    refine reads read nothing keyed ?_
    rw [Value.orElse_of_not_truthy empty, Option.getD_some, Value.orElse_of_truthy filled]
  | empty read nothing empty keyed uncounted =>
    refine reads read nothing keyed ?_
    rw [Value.orElse_of_not_truthy empty, Value.orElse_of_not_truthy uncounted]

structure RawOperation.AnswersWith (raw : RawOperation) (origin : String) (t : DataType) :
    Prop where
  resolved : ∃ schema, responseSchema raw.operation = .ok schema ∧
    (DataType.ofSchema schema "" origin true).outcome = .ok t
  response : ∀ byId lead i, (Interface.ofOperation raw byId lead origin).outcome = .ok i →
    i.response = t

theorem RawOperation.answersWith_of_resolved {raw : RawOperation} {origin : String}
    {schema : Value} {t : DataType} (answered : responseSchema raw.operation = .ok schema)
    (typed : (DataType.ofSchema schema "" origin true).outcome = .ok t) :
    raw.AnswersWith origin t := by
  refine ⟨⟨schema, answered, typed⟩, fun byId lead i returned => ?_⟩
  obtain ⟨other, _, made⟩ := Interface.madeFrom_of_ofOperation returned
  obtain rfl := Except.ok.inj (answered.symm.trans made.answered)
  exact Except.ok.inj (made.response.symm.trans typed)

theorem Property.MadeFrom.answersWith {origin : String} {parameter response : Value} {p : Property}
    {raw : RawOperation} (made : Property.MadeFrom origin parameter p)
    (body : p.location = some .body) (leaves : parameter.LeavesTypeToSchema)
    (succeeds : raw.operation.Succeeds response)
    (sameSchema : response.field "schema" = parameter.field "schema") :
    raw.AnswersWith origin p.dataType := by
  obtain ⟨merged, merges, -, -, typed⟩ := made.spec
  obtain ⟨own, hown, -⟩ := leaves "type" (by simp)
  obtain ⟨found, given⟩ := Value.exists_field_of_isMap (Value.isMap_of_field hown) "schema"
  refine RawOperation.answersWith_of_resolved
    (responseSchema_of_succeeds succeeds (sameSchema.trans given)) ?_
  rw [← DataType.ofSchema_congr (parameterSchema_field leaves given merges)]
  simpa [body] using typed

end ApiCatalog
