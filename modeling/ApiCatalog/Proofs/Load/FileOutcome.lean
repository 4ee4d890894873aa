import ApiCatalog.Load.File
import ApiCatalog.Proofs.Document.Access
import ApiCatalog.Proofs.Json.LongNumber
import ApiCatalog.Proofs.Load.SavedSettings
import ApiCatalog.Proofs.Yaml.DocumentFault

/-!
What comes of a file. A file either gives what its text denotes, or a problem that is reported as
one of the file, or a fault that no one reports: its bytes are no text, a number has too many
digits, or a value of the YAML document has no meaning.
-/

namespace ApiCatalog

def Fault.IsDocument : Fault → Prop
  | .document _ => True
  | _ => False

def Fault.IsConfig : Fault → Prop
  | .config _ => True
  | _ => False

namespace Load

/-! Texts under a hint. -/

/-- A text that is read as YAML: by its hint, or because it is no JSON. -/
def ReadsYaml (hint : Hint) (text : String) : Prop :=
  hint = .yaml ∨ hint = .unknown ∧ ∃ error, Json.parse text.toList = .error (.malformed error)

inductive Denotes (hint : Hint) (text : String) : Value → Prop
  | json {tree : Json} (admitted : hint ≠ .yaml) (read : Json.parse text.toList = .ok tree) :
    Denotes hint text (.ofJson tree)
  | yaml {value : Value} (chosen : ReadsYaml hint text)
    (read : Yaml.load text.toList = .ok value) : Denotes hint text value

/-- The faults of a text beyond its syntax. -/
inductive Strays (hint : Hint) (text : String) : Fault → Prop
  | json (admitted : hint ≠ .yaml) (fails : Json.parse text.toList = .error .numberTooLong) :
    Strays hint text .noValue
  | yaml {fault : Fault} (chosen : ReadsYaml hint text)
    (fails : Yaml.load text.toList = .error (.fault fault)) : Strays hint text fault

inductive Malformed (hint : Hint) (text : String) : Prop
  | json {error : Json.SyntaxError} (only : hint = .json)
    (fails : Json.parse text.toList = .error (.malformed error))
  | yaml (chosen : ReadsYaml hint text) (fails : Yaml.load text.toList = .error .malformed)

section

variable {hint : Hint} {text : String} {value : Value} {fault : Fault}

theorem yaml_cases (chosen : ReadsYaml hint text) :
    (∃ value, Denotes hint text value) ∨ (∃ fault, Strays hint text fault) ∨
      Malformed hint text := by
  cases loaded : Yaml.load text.toList with
  | ok value => exact .inl ⟨value, .yaml chosen loaded⟩
  | error failure =>
    cases failure with
    | fault fault => exact .inr (.inl ⟨fault, .yaml chosen loaded⟩)
    | malformed => exact .inr (.inr (.yaml chosen loaded))

theorem text_cases (hint : Hint) (text : String) :
    (∃ value, Denotes hint text value) ∨ (∃ fault, Strays hint text fault) ∨
      Malformed hint text := by
  by_cases yaml : hint = .yaml
  · exact yaml_cases (.inl yaml)
  cases parsed : Json.parse text.toList with
  | ok tree => exact .inl ⟨_, .json yaml parsed⟩
  | error failure =>
    cases failure with
    | numberTooLong => exact .inr (.inl ⟨_, .json yaml parsed⟩)
    | malformed error =>
      cases hint with
      | json => exact .inr (.inr (.json rfl parsed))
      | yaml => exact absurd rfl yaml
      | unknown => exact yaml_cases (.inr ⟨rfl, error, parsed⟩)

/-! Documents. -/

theorem asDocument_eq_ok_iff {found : Value} :
    asDocument found = .ok value ↔ found = value ∧ value.isMap = true := by
  unfold asDocument
  split
  case isTrue mapping =>
    constructor
    · rintro ⟨⟩
      exact ⟨rfl, mapping⟩
    · rintro ⟨rfl, -⟩
      rfl
  case isFalse other =>
    refine ⟨nofun, ?_⟩
    rintro ⟨rfl, mapping⟩
    exact absurd mapping other

theorem isDocument_of_asDocument (fails : asDocument value = .error fault) :
    fault.IsDocument := by
  unfold asDocument at fails
  split at fails
  · cases fails
  · cases fails
    trivial

theorem readDocument_of_readsYaml (chosen : ReadsYaml hint text) :
    ∃ json, readDocument text hint = readYaml json text := by
  obtain rfl | ⟨rfl, error, fails⟩ := chosen
  · exact ⟨none, rfl⟩
  · exact ⟨some error, by simp [readDocument, fails]⟩

theorem readDocument_of_denotes (denotes : Denotes hint text value) :
    readDocument text hint = asDocument value := by
  cases denotes with
  | json admitted read => simp [readDocument, admitted, read]
  | yaml chosen read =>
    obtain ⟨json, same⟩ := readDocument_of_readsYaml chosen
    rw [same, readYaml, read]

theorem readDocument_of_strays (strays : Strays hint text fault) :
    readDocument text hint = .error fault := by
  cases strays with
  | json admitted fails => simp [readDocument, admitted, fails]
  | yaml chosen fails =>
    obtain ⟨json, same⟩ := readDocument_of_readsYaml chosen
    rw [same, readYaml, fails]

theorem readDocument_of_malformed (malformed : Malformed hint text) :
    ∃ problem, readDocument text hint = .error (.document problem) := by
  cases malformed with
  | json only fails => exact ⟨_, by simp [readDocument, only, fails]; rfl⟩
  | yaml chosen fails =>
    obtain ⟨json, same⟩ := readDocument_of_readsYaml chosen
    exact ⟨.unreadable json, by rw [same, readYaml, fails]⟩

theorem readDocument_eq_ok_iff :
    readDocument text hint = .ok value ↔ Denotes hint text value ∧ value.isMap = true := by
  constructor
  · intro read
    obtain ⟨found, denotes⟩ | ⟨fault, strays⟩ | malformed := text_cases hint text
    · rw [readDocument_of_denotes denotes, asDocument_eq_ok_iff] at read
      obtain ⟨rfl, mapping⟩ := read
      exact ⟨denotes, mapping⟩
    · cases (readDocument_of_strays strays).symm.trans read
    · obtain ⟨problem, fails⟩ := readDocument_of_malformed malformed
      cases fails.symm.trans read
  · rintro ⟨denotes, mapping⟩
    exact (readDocument_of_denotes denotes).trans (asDocument_eq_ok_iff.mpr ⟨rfl, mapping⟩)

theorem readDocument_eq_error_iff (other : ¬ fault.IsDocument) :
    readDocument text hint = .error fault ↔ Strays hint text fault := by
  refine ⟨fun fails => ?_, readDocument_of_strays⟩
  obtain ⟨found, denotes⟩ | ⟨_, strays⟩ | malformed := text_cases hint text
  · rw [readDocument_of_denotes denotes] at fails
    exact absurd (isDocument_of_asDocument fails) other
  · cases (readDocument_of_strays strays).symm.trans fails
    exact strays
  · obtain ⟨problem, reported⟩ := readDocument_of_malformed malformed
    cases reported.symm.trans fails
    exact absurd trivial other

end

/-! Settings. -/

def settingsHint (path : String) : Hint :=
  if fileEnding path = ".json" then .json else .yaml

section

variable {path text : String} {value : Value} {fault : Fault}

theorem settingsHint_ne_yaml_iff : settingsHint path ≠ .yaml ↔ fileEnding path = ".json" := by
  simp [settingsHint]

theorem readsYaml_settingsHint_iff :
    ReadsYaml (settingsHint path) text ↔ fileEnding path ≠ ".json" := by
  unfold ReadsYaml settingsHint
  split <;> simp_all

theorem settingsValue_of_denotes (denotes : Denotes (settingsHint path) text value) :
    settingsValue path text = .ok value := by
  cases denotes with
  | json admitted read =>
    rw [settingsValue, if_pos (settingsHint_ne_yaml_iff.mp admitted), read]
  | yaml chosen read => rw [settingsValue, if_neg (readsYaml_settingsHint_iff.mp chosen), read]

theorem settingsValue_of_strays (strays : Strays (settingsHint path) text fault) :
    settingsValue path text = .error fault := by
  cases strays with
  | json admitted fails =>
    rw [settingsValue, if_pos (settingsHint_ne_yaml_iff.mp admitted), fails]
  | yaml chosen fails =>
    rw [settingsValue, if_neg (readsYaml_settingsHint_iff.mp chosen), fails]

theorem settingsValue_of_malformed (malformed : Malformed (settingsHint path) text) :
    ∃ problem, settingsValue path text = .error (.config problem) := by
  cases malformed with
  | json only fails =>
    have admitted : settingsHint path ≠ .yaml := by simp [only]
    exact ⟨_, by rw [settingsValue, if_pos (settingsHint_ne_yaml_iff.mp admitted), fails]⟩
  | yaml chosen fails =>
    exact ⟨_, by rw [settingsValue, if_neg (readsYaml_settingsHint_iff.mp chosen), fails]⟩

theorem isMap_of_check {read : Settings} (valid : Settings.check value = .valid read) :
    value.isMap = true := by
  unfold Settings.check Check.record at valid
  unfold Value.isMap
  split at valid
  · simp [*]
  · cases valid

theorem check_orElse_emptyMap_iff {read : Settings} :
    Settings.check (value.orElse .emptyMap) = .valid read ↔
      Settings.check value = .valid read ∨ value.truthy = false ∧ read = .standard := by
  have empty : Settings.check .emptyMap = .valid .standard := rfl
  cases truth : value.truthy with
  | true => simp [Value.orElse, truth]
  | false =>
    have replaced : value.orElse .emptyMap = .emptyMap := by simp [Value.orElse, truth]
    rw [replaced, empty]
    constructor
    · rintro ⟨⟩
      exact .inr ⟨rfl, rfl⟩
    · rintro (valid | ⟨-, rfl⟩)
      · rwa [Value.eq_emptyMap_of_not_truthy truth (isMap_of_check valid), empty] at valid
      · rfl

end

/-! Files. -/

def Source.Holds (source : Source) (text : String) : Prop :=
  ∃ content, source = .bytes content ∧ fileText content = .ok text

def Source.IsBinary (source : Source) : Prop :=
  ∃ content, source = .bytes content ∧ String.fromUTF8? content = none

section

variable {source : Source} {path text : String} {value : Value} {fault : Fault}

theorem source_cases (source : Source) :
    source = .absent ∨ source.IsBinary ∨ ∃ text, source.Holds text := by
  cases source with
  | absent => exact .inl rfl
  | bytes content =>
    cases decoded : String.fromUTF8? content with
    | none => exact .inr (.inl ⟨content, rfl, decoded⟩)
    | some text =>
      refine .inr (.inr ⟨String.ofList (unifyBreaks text.toList), content, rfl, ?_⟩)
      simp only [fileText, decoded]

theorem document_of_isBinary (binary : source.IsBinary) :
    document path source = .error .notUtf8 := by
  obtain ⟨content, rfl, undecoded⟩ := binary
  simp only [document, fileText, undecoded, Bind.bind, Except.bind]

theorem settings_of_isBinary (binary : source.IsBinary) :
    settings path source = .error .notUtf8 := by
  obtain ⟨content, rfl, undecoded⟩ := binary
  simp only [settings, fileText, undecoded, Bind.bind, Except.bind]

theorem document_of_holds (holds : source.Holds text) :
    document path source =
      if Text.allBlank text.toList then .error (.document (.blank path))
      else readDocument text (endingHint path) := by
  obtain ⟨content, rfl, same⟩ := holds
  simp only [document, same, Bind.bind, Except.bind]

theorem settings_of_holds (holds : source.Holds text) :
    settings path source = settingsValue path text >>= fun value =>
      match Settings.check (value.orElse .emptyMap) with
      | .valid read => .ok read
      | .flawed details => .error (.config (.invalid (shownPath path) details)) := by
  obtain ⟨content, rfl, same⟩ := holds
  simp only [settings, same]
  rfl

theorem document_eq_iff {result : Except Fault Value}
    (other : ∀ problem, result ≠ .error (.document problem)) :
    document path source = result ↔ source.IsBinary ∧ result = .error .notUtf8 ∨
      ∃ text, source.Holds text ∧ Text.allBlank text.toList = false ∧
        readDocument text (endingHint path) = result := by
  constructor
  · rintro rfl
    obtain rfl | binary | ⟨text, holds⟩ := source_cases source
    · exact absurd rfl (other (.missing path))
    · exact .inl ⟨binary, document_of_isBinary binary⟩
    · rw [document_of_holds holds] at other ⊢
      split
      case isTrue blank => simp [blank] at other
      case isFalse filled => exact .inr ⟨text, holds, by simpa using filled, rfl⟩
  · rintro (⟨binary, rfl⟩ | ⟨text, holds, filled, rfl⟩)
    · exact document_of_isBinary binary
    · simp [document_of_holds holds, filled]

theorem document_eq_ok_iff : document path source = .ok value ↔
    ∃ text, source.Holds text ∧ Text.allBlank text.toList = false ∧
      Denotes (endingHint path) text value ∧ value.isMap = true := by
  have unreported : ∀ problem, Except.ok (ε := Fault) value ≠ .error (.document problem) := nofun
  simp only [document_eq_iff unreported, reduceCtorEq, and_false, false_or, readDocument_eq_ok_iff]

theorem document_eq_error_iff (other : ¬ fault.IsDocument) :
    document path source = .error fault ↔ source.IsBinary ∧ fault = .notUtf8 ∨
      ∃ text, source.Holds text ∧ Text.allBlank text.toList = false ∧
        Strays (endingHint path) text fault := by
  have unreported : ∀ problem, Except.error (α := Value) fault ≠ .error (.document problem) := by
    rintro problem ⟨⟩
    exact other trivial
  simp only [document_eq_iff unreported, Except.error.injEq, readDocument_eq_error_iff other]

theorem settings_cases (path : String) (source : Source) :
    (∃ problem, settings path source = .error (.config problem)) ∨
    source.IsBinary ∧ settings path source = .error .notUtf8 ∨
    ∃ text, source.Holds text ∧
      ((∃ value read, Denotes (settingsHint path) text value ∧
          Settings.check (value.orElse .emptyMap) = .valid read ∧
            settings path source = .ok read) ∨
        ∃ fault, Strays (settingsHint path) text fault ∧ settings path source = .error fault) := by
  obtain rfl | binary | ⟨text, holds⟩ := source_cases source
  · exact .inl ⟨_, rfl⟩
  · exact .inr (.inl ⟨binary, settings_of_isBinary binary⟩)
  rw [settings_of_holds holds]
  obtain ⟨value, denotes⟩ | ⟨fault, strays⟩ | malformed := text_cases (settingsHint path) text
  · rw [settingsValue_of_denotes denotes]
    cases checked : Settings.check (value.orElse .emptyMap) with
    | valid read =>
      refine .inr (.inr ⟨text, holds, .inl ⟨value, read, denotes, checked, ?_⟩⟩)
      simp only [Bind.bind, Except.bind, checked]
    | flawed details =>
      refine .inl ⟨.invalid (shownPath path) details, ?_⟩
      simp only [Bind.bind, Except.bind, checked]
  · rw [settingsValue_of_strays strays]
    exact .inr (.inr ⟨text, holds, .inr ⟨fault, strays, rfl⟩⟩)
  · obtain ⟨problem, fails⟩ := settingsValue_of_malformed malformed
    rw [fails]
    exact .inl ⟨problem, rfl⟩

theorem settings_eq_ok_iff {read : Settings} : settings path source = .ok read ↔
    ∃ text value, source.Holds text ∧ Denotes (settingsHint path) text value ∧
      (Settings.check value = .valid read ∨ value.truthy = false ∧ read = .standard) := by
  simp only [← check_orElse_emptyMap_iff]
  constructor
  · intro given
    obtain ⟨problem, fails⟩ | ⟨-, fails⟩ | ⟨text, holds, ⟨value, _, denotes, valid, read⟩ |
      ⟨fault, -, fails⟩⟩ := settings_cases path source
    · cases fails.symm.trans given
    · cases fails.symm.trans given
    · cases read.symm.trans given
      exact ⟨text, value, holds, denotes, valid⟩
    · cases fails.symm.trans given
  · rintro ⟨text, value, holds, denotes, valid⟩
    simp only [settings_of_holds holds, settingsValue_of_denotes denotes, Bind.bind, Except.bind,
      valid]

theorem settings_eq_error_iff (other : ¬ fault.IsConfig) :
    settings path source = .error fault ↔ source.IsBinary ∧ fault = .notUtf8 ∨
      ∃ text, source.Holds text ∧ Strays (settingsHint path) text fault := by
  constructor
  · intro given
    obtain ⟨problem, fails⟩ | ⟨binary, fails⟩ | ⟨text, holds, ⟨value, _, -, -, read⟩ |
      ⟨_, strays, fails⟩⟩ := settings_cases path source
    · cases fails.symm.trans given
      exact absurd trivial other
    · cases fails.symm.trans given
      exact .inl ⟨binary, rfl⟩
    · cases read.symm.trans given
    · cases fails.symm.trans given
      exact .inr ⟨text, holds, strays⟩
  · rintro (⟨binary, rfl⟩ | ⟨text, holds, strays⟩)
    · exact settings_of_isBinary binary
    · rw [settings_of_holds holds, settingsValue_of_strays strays]
      rfl

end

/-- A file gives a document if and only if its text denotes a mapping, and settings if and only if
its text denotes a mapping of settings, or what counts as false. Else the problem is reported as one
of the file, but for bytes that are no text, and for numbers and values of a text that have no
meaning: their faults are not reported as problems of the file. -/
theorem file_outcomes (path : String) (source : Source) :
    (∀ value, document path source = .ok value ↔
      ∃ text, source.Holds text ∧ Text.allBlank text.toList = false ∧
        Denotes (endingHint path) text value ∧ value.isMap = true) ∧
    (∀ read, settings path source = .ok read ↔
      ∃ text value, source.Holds text ∧ Denotes (settingsHint path) text value ∧
        (Settings.check value = .valid read ∨ value.truthy = false ∧ read = .standard)) ∧
    (∀ fault : Fault, ¬ fault.IsDocument → (document path source = .error fault ↔
      source.IsBinary ∧ fault = .notUtf8 ∨
        ∃ text, source.Holds text ∧ Text.allBlank text.toList = false ∧
          Strays (endingHint path) text fault)) ∧
    (∀ fault : Fault, ¬ fault.IsConfig → (settings path source = .error fault ↔
      source.IsBinary ∧ fault = .notUtf8 ∨
        ∃ text, source.Holds text ∧ Strays (settingsHint path) text fault)) ∧
    (∀ text, Json.parse text = .error .numberTooLong → Json.HasLongNumber text) ∧
    ∀ text fault, Yaml.load text = .error (.fault fault) →
      Yaml.IsReadFault fault ∧ Yaml.DocumentFault text fault := by
  refine ⟨fun _ => document_eq_ok_iff, fun _ => settings_eq_ok_iff,
    fun _ => document_eq_error_iff, fun _ => settings_eq_error_iff,
    fun _ => Json.hasLongNumber_of_parse, fun text fault fails => ?_⟩
  have caused := Yaml.failsOnly_load text fault fails
  exact ⟨caused.isReadFault, caused⟩

theorem file_outcomes_unreported :
    document "s.yaml" (.bytes ⟨#[0xff]⟩) = .error .notUtf8 ∧
    settings "c.json" (.bytes "false".toUTF8) = .ok .standard ∧
    settings "c.yaml" (.bytes "!!bool x".toUTF8) = .error .unknownWord ∧
    Yaml.DocumentFault "!!bool x".toList .unknownWord ∧
    Json.HasLongNumber ('1' :: List.replicate Number.digitLimit '1') := by
  have binary : Source.IsBinary (.bytes ⟨#[0xff]⟩) := ⟨_, rfl, by decide⟩
  have denied : Denotes (settingsHint "c.json") "false" (.ofJson (.bool false)) :=
    .json (by decide +kernel) rfl
  have fails : Yaml.load "!!bool x".toList = .error (.fault .unknownWord) := by
    have decided (result : Except Yaml.Failure Value)
        (matched : (result matches .error (.fault .unknownWord)) = true) :
        result = .error (.fault .unknownWord) := by
      split at matched
      · rfl
      · cases matched
    exact decided (Yaml.load "!!bool x".toList) (by decide +kernel)
  have hint : settingsHint "c.yaml" = .yaml := by decide +kernel
  obtain ⟨-, -, -, strayed, -, caused⟩ := file_outcomes "c.yaml" (.bytes "!!bool x".toUTF8)
  refine ⟨?_, ?_, ?_, (caused _ _ fails).2, ?_⟩
  · exact ((file_outcomes "s.yaml" _).2.2.1 .notUtf8 id).mpr (.inl ⟨binary, rfl⟩)
  · refine ((file_outcomes "c.json" _).2.1 .standard).mpr ⟨"false", _, ?_, denied, .inr ⟨rfl, rfl⟩⟩
    exact ⟨_, rfl, fileText_toUTF8 (by decide)⟩
  · refine (strayed .unknownWord id).mpr (.inr ⟨"!!bool x", ?_, .yaml (.inl hint) fails⟩)
    exact ⟨_, rfl, fileText_toUTF8 (by decide)⟩
  · refine (file_outcomes "c.json" .absent).2.2.2.2.1 _ ?_
    exact Json.parse_of_long_digits (by decide) (by simp) (by simp)

end Load
end ApiCatalog
