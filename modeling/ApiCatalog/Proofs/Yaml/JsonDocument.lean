import ApiCatalog.Document.Access
import ApiCatalog.Proofs.Yaml.JsonTokens
import ApiCatalog.Proofs.Yaml.JsonValue
import ApiCatalog.Proofs.Yaml.NodeFault

/-! JSON objects loaded as YAML: whether there is a document, and which. -/

namespace ApiCatalog.Yaml

open Json

/-! Only objects are mappings. -/

theorem isObject_of_isMap {source : Source} (isMap : (source.value .json).isMap = true) :
    source.IsObject := by
  cases source with
  | emptyObject | object => trivial
  | string | emptyList | list => cases isMap
  | number numeral =>
    change (Numeral.value numeral).isMap = true at isMap
    unfold Numeral.value at isMap
    split at isMap <;> cases isMap
  | word word listed =>
    have none : ∀ word ∈ valueWords, (Value.ofJson word.2).isMap = false := by decide
    exact absurd isMap (Bool.eq_false_iff.mp (none word listed))

theorem isMap_of_isObject {source : Source} (object : source.IsObject) (as : Convention) :
    (source.value as).isMap = true := by
  cases source with
  | emptyObject | object => rfl
  | string | word | number | emptyList | list => exact object.elim

/-! Documents. -/

variable {before after : Gap} {source : Source} {text : List Char}

theorem ofText_object (object : source.IsObject)
    (parts : text = before.chars ++ (source.text ++ after.chars)) (usual : HasUsualBreaks text) :
    ('\t' ∉ text ∧ source.Near →
        Node.ofText text = .ok (some 0, (source.flow.nodes 0).toArray)) ∧
      (¬ ('\t' ∉ text ∧ source.Near) → ∃ failure, Node.ofText text = .error failure) := by
  obtain ⟨whole, broken⟩ := tokensOf_object object parts usual
  by_cases tab : '\t' ∈ text
  · refine ⟨fun both => absurd tab both.1, fun _ => ?_⟩
    exact exists_error_of_unended (broken tab)
  · obtain ⟨reads, stops⟩ := Flow.ofText_eq (whole tab)
    rw [source.marked_flow] at reads stops
    exact ⟨fun both => reads both.2, fun other => stops fun near => other ⟨tab, near⟩⟩

theorem load_object (object : source.IsObject)
    (parts : text = before.chars ++ (source.text ++ after.chars)) (usual : HasUsualBreaks text)
    (value : Value) : load text = .ok value ↔
      (∀ c ∈ text, isAdmitted c = true) ∧ '\t' ∉ text ∧ source.Near ∧ source.value .yaml = value := by
  obtain ⟨reads, stops⟩ := ofText_object object parts usual
  unfold load
  by_cases admitted : ∀ c ∈ text, isAdmitted c = true
  case neg =>
    have refused : text.all isAdmitted = false := by
      rw [← Bool.not_eq_true, List.all_eq_true]
      exact admitted
    rw [refused]
    exact iff_of_false nofun fun holds => admitted holds.1
  rw [List.all_eq_true.mpr admitted, and_iff_right admitted, ← and_assoc]
  by_cases both : '\t' ∉ text ∧ source.Near
  · have built := Flow.build_eq (means_flow source)
    rw [reads both, and_iff_right both]
    simp only [Bool.not_true, Bool.false_eq_true, if_false, Bind.bind, Except.bind, built,
      Except.ok.injEq]
  · obtain ⟨failure, fails⟩ := stops both
    rw [fails]
    exact iff_of_false nofun fun holds => both holds.1

end ApiCatalog.Yaml
