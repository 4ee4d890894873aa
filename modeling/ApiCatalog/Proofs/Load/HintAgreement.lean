import ApiCatalog.Proofs.Json.SourceReading
import ApiCatalog.Proofs.Load.FileOutcome
import ApiCatalog.Proofs.Yaml.JsonDocument

/-!
The hint about the format of a text. A JSON text gives its document with and without the hint; under
the hint of YAML it gives a document only if it is YAML as well, and then what YAML makes of its
leaves.
-/

namespace ApiCatalog.Load

open Json hiding Source
open Yaml

variable {text : String} {document : Value}

theorem denotes_json_iff {hint : Hint} (json : hint = .json) {value : Value} :
    Denotes hint text value ↔ ∃ tree, Json.parse text.toList = .ok tree ∧ Value.ofJson tree = value := by
  constructor
  · intro denotes
    cases denotes with
    | json admitted read => exact ⟨_, read, rfl⟩
    | yaml chosen read =>
      subst json
      rcases chosen with yaml | ⟨unknown, -⟩
      · cases yaml
      · cases unknown
  · rintro ⟨tree, read, rfl⟩
    exact .json (json ▸ by decide) read

theorem denotes_yaml_iff {value : Value} :
    Denotes .yaml text value ↔ Yaml.load text.toList = .ok value := by
  constructor
  · intro denotes
    generalize hinted : Hint.yaml = hint at denotes
    cases denotes with
    | json admitted => exact absurd hinted.symm admitted
    | yaml chosen read => exact read
  · exact .yaml (.inl rfl)

/-- What becomes of a JSON text under each hint. Without a hint its document is the same. Under the
hint of YAML, as long as all breaks in it are line feeds and carriage returns, there is a document if
and only if all characters are admitted, none is a tab, and every key is near its colon; the document
is what YAML makes of the leaves, which is the same at least where they are common to both.

The three other breaks, U+0085, U+2028 and U+2029, can stand in the strings of a JSON text, where
they are characters like any other. YAML folds them as it folds every break in quotes: blanks on both
sides are dropped; U+0085 becomes a line feed behind another break, nothing before one, and a space
where it is alone; the other two stay. A key with such a break is far from its colon, and a mark that
separates documents is refused behind one. -/
theorem readDocument_of_json (read : readDocument text .json = .ok document) :
    readDocument text .unknown = .ok document ∧
    ∃ (before after : Gap) (source : Json.Source),
      text.toList = before.chars ++ (source.text ++ after.chars) ∧
      source.value .json = document ∧
      (source.IsCommon → source.value .yaml = document) ∧
      (HasUsualBreaks text.toList → ∀ found, readDocument text .yaml = .ok found ↔
        (∀ c ∈ text.toList, isAdmitted c = true) ∧ '\t' ∉ text.toList ∧ source.Near ∧
          source.value .yaml = found) := by
  obtain ⟨denotes, isMap⟩ := readDocument_eq_ok_iff.mp read
  obtain ⟨tree, parsed, means⟩ := (denotes_json_iff rfl).mp denotes
  obtain ⟨before, after, source, parts, same⟩ := exists_source parsed
  have value : source.value .json = document := same.trans means
  have object : source.IsObject := isObject_of_isMap (value ▸ isMap)
  refine ⟨?_, before, after, source, parts, value, fun common => ?_, fun usual found => ?_⟩
  · exact readDocument_eq_ok_iff.mpr ⟨means ▸ .json (by decide) parsed, isMap⟩
  · exact (value_eq source common).trans value
  · rw [readDocument_eq_ok_iff, denotes_yaml_iff, load_object object parts usual]
    refine and_iff_left_of_imp fun holds => ?_
    rw [← holds.2.2.2]
    exact isMap_of_isObject object .yaml

theorem readDocument_of_json_tab :
    readDocument "\x7b\t\x7d" .json = .ok (.map []) ∧
      readDocument "\x7b\t\x7d" .unknown = .ok (.map []) ∧
      ∀ found, readDocument "\x7b\t\x7d" .yaml ≠ .ok found := by
  have read : readDocument "\x7b\t\x7d" .json = .ok (.map []) := rfl
  obtain ⟨unhinted, before, after, source, -, -, -, agrees⟩ := readDocument_of_json read
  have usual : HasUsualBreaks "\x7b\t\x7d".toList := by
    have unbroken : "\x7b\t\x7d".toList.any isBreak = false := by decide
    exact fun c member breaks => absurd breaks (List.any_eq_false.mp unbroken c member)
  refine ⟨read, unhinted, fun found same => ?_⟩
  exact ((agrees usual found).mp same).2.1 (by decide)

end ApiCatalog.Load
