import ApiCatalog.Extract.BaseClass
import ApiCatalog.Proofs.Extract.Outcome

/-! Classes as definitions declare them, one from each definition, before any is left out. -/

namespace ApiCatalog

def Value.Declares (definitions : Value) (key : String) (definition : Value) : Prop :=
  ∃ entries, (definitions.orElse .emptyMap).entries = .ok entries ∧
    (.text key, definition) ∈ entries

def definitionFields (definition : Value) : Except Fault (List (Value × Value)) := do
  ((← (definition.orElse .emptyMap).field "properties").orElse .emptyMap).entries

theorem Property.of_checked {name description : Value} {required : Bool} {dataType : DataType}
    {location : Option Location} {p : Property}
    (checked : Property.checked name description required dataType location = .ok p) :
    Check.text name = .valid p.name ∧ p.dataType = dataType ∧ p.location = location := by
  simp only [Property.checked, Checked.orFault_eq_ok_iff, Checked.seq_eq_valid_iff,
    Checked.map_eq_valid_iff, Checked.under_eq_valid_iff] at checked
  obtain ⟨_, _, ⟨_, _, ⟨_, _, ⟨_, _, ⟨text, named, rfl⟩, -, rfl⟩, -, rfl⟩, typed, rfl⟩, placed,
    rfl⟩ := checked
  cases typed
  cases placed
  exact ⟨named, rfl, rfl⟩

theorem Property.of_ofEntry {self origin : String} {required : Value} {entry : Value × Value}
    {p : Property} (returned : (Property.ofEntry self origin required entry).outcome = .ok p) :
    (DataType.ofSchema entry.2 self origin false).outcome = .ok p.dataType ∧
      p.location = none := by
  unfold Property.ofEntry at returned
  simp only [Traced.outcome_bind_eq_ok_iff, Traced.outcome_lift] at returned
  obtain ⟨_, -, _, -, dataType, typed, checked⟩ := returned
  obtain ⟨-, rfl, placed⟩ := Property.of_checked checked
  exact ⟨typed, placed⟩

theorem BaseClass.of_ofDefinition {origin : String} {entry : Value × Value} {base : BaseClass}
    (returned : (BaseClass.ofDefinition origin entry).outcome = .ok base) :
    ∃ key required fields, entry.1.asText = .ok key ∧
      base.name = String.ofList (Generic.declarationName key.toList) ∧
      definitionFields entry.2 = .ok fields ∧
      List.Forall₂ (fun field property =>
        (Property.ofEntry (String.ofList (Generic.selfArgument key.toList)) origin required
          field).outcome = .ok property) fields base.properties := by
  unfold BaseClass.ofDefinition at returned
  simp only [Traced.outcome_bind_eq_ok_iff, Traced.outcome_lift, Traced.outcome_mapM_eq_ok_iff]
    at returned
  obtain ⟨key, hkey, required, -, listed, hlisted, fields, hfields, properties, each, _, -,
    checked⟩ := returned
  simp only [Checked.orFault_eq_ok_iff, Checked.seq_eq_valid_iff, Checked.map_eq_valid_iff,
    Checked.under_eq_valid_iff] at checked
  obtain ⟨_, _, ⟨_, _, ⟨_, declared, rfl⟩, -, rfl⟩, same, rfl⟩ := checked
  cases declared
  cases same
  exact ⟨key, _, fields, hkey, rfl, Outcome.bind_eq_ok_iff.mpr ⟨listed, hlisted, hfields⟩, each⟩

theorem BaseClass.of_ofDefinitions {definitions : Value} {origin : String}
    {classes : List BaseClass}
    (returned : (BaseClass.ofDefinitions definitions origin).outcome = .ok classes) :
    ∃ entries declared, (definitions.orElse .emptyMap).entries = .ok entries ∧
      List.Forall₂ (fun entry base => (BaseClass.ofDefinition origin entry).outcome = .ok base)
        entries declared ∧
      (BaseClass.sortUnique declared).outcome = .ok classes := by
  unfold BaseClass.ofDefinitions at returned
  simp only [Traced.outcome_bind_eq_ok_iff, Traced.outcome_lift, Traced.outcome_mapM_eq_ok_iff]
    at returned
  obtain ⟨entries, hentries, declared, each, sorted⟩ := returned
  exact ⟨entries, declared, hentries, each, sorted⟩

end ApiCatalog
