import ApiCatalog.Load.File
import ApiCatalog.Proofs.Json.Characters
import ApiCatalog.Proofs.Json.RoundTrip
import ApiCatalog.Proofs.Model.CheckedForm

/-!
Saved settings. The file in which settings are saved is read back as the same settings if its name
says that it holds JSON.
-/

namespace ApiCatalog

theorem TagPolicy.check_toJson (policy : TagPolicy) :
    TagPolicy.check (Value.ofJson policy.toJson) = .valid policy := by
  rw [TagPolicy.check, TagPolicy.toJson, Check.record_toJson,
    Check.field_toJson rfl _ (Check.bool_toJson policy.skipPlaceholders),
    Check.field_toJson rfl _ (Check.text_toJson policy.controllerSuffix),
    Check.field_toJson rfl _ (Check.bool_toJson policy.matchName),
    Check.field_toJson rfl _ (Check.bool_toJson policy.matchLowerName),
    Check.field_toJson rfl _ (Check.bool_toJson policy.matchLowerDescription),
    Check.field_toJson rfl _ (Check.bool_toJson policy.matchDashDescription),
    Check.field_toJson rfl _ (Check.bool_toJson policy.swapNonLatin)]
  rfl

theorem TagPolicy.writable_toJson (policy : TagPolicy) : policy.toJson.Writable := by
  refine .object (by simp) ?_
  simp only [List.forall_mem_cons, List.not_mem_nil, false_imp_iff, implies_true, and_true]
  exact ⟨.bool _, .string _, .bool _, .bool _, .bool _, .bool _, .bool _⟩

namespace Settings

theorem check_toJson (settings : Settings) :
    Settings.check (Value.ofJson settings.toJson) = .valid settings := by
  rw [Settings.check, Settings.toJson, Check.record_toJson,
    Check.field_toJson rfl _ (Check.bool_toJson settings.byId),
    Check.field_toJson rfl _ (Check.text_toJson settings.origin),
    Check.field_toJson rfl _ (TagPolicy.check_toJson settings.policy)]
  rfl

theorem writable_toJson (settings : Settings) : settings.toJson.Writable := by
  refine .object (by simp) ?_
  simp only [List.forall_mem_cons, List.not_mem_nil, false_imp_iff, implies_true, and_true]
  exact ⟨.bool _, .string _, settings.policy.writable_toJson⟩

theorem toList_save (settings : Settings) :
    settings.save.toList = Json.write ⟨some 2, true⟩ 0 settings.toJson ++ ['\n'] := by
  rw [save, String.toList_append, Json.render, String.toList_ofList]
  rfl

theorem parse_save (settings : Settings) :
    Json.parse settings.save.toList = .ok settings.toJson := by
  rw [toList_save]
  exact Json.parse_write _ settings.writable_toJson (by simp [Json.isSpace])

end Settings

namespace Load

theorem unifyBreaks_eq_self {text : List Char} (unbroken : '\r' ∉ text) :
    unifyBreaks text = text := by
  induction text with
  | nil => rfl
  | cons c text inner =>
    obtain ⟨first, others⟩ := List.ne_and_not_mem_of_not_mem_cons unbroken
    rw [unifyBreaks, inner others]
    · rintro rest rfl
      exact absurd rfl first
    · rintro rfl
      exact absurd rfl first

theorem fromUTF8?_toUTF8 (text : String) : String.fromUTF8? text.toUTF8 = some text :=
  dif_pos text.isValidUTF8

theorem fileText_toUTF8 {text : String} (unbroken : '\r' ∉ text.toList) :
    fileText text.toUTF8 = .ok text := by
  rw [fileText, fromUTF8?_toUTF8]
  simp only [unifyBreaks_eq_self unbroken, String.ofList_toList]

/-- Settings are read back from the file in which they were saved. -/
theorem settings_save {path : String} (ending : fileEnding path = ".json") (saved : Settings) :
    settings path (.bytes saved.save.toUTF8) = .ok saved := by
  have unbroken : '\r' ∉ saved.save.toList := by
    rw [saved.toList_save]
    simp [Json.return_notMem_write]
  have value : settingsValue path saved.save = .ok (Value.ofJson saved.toJson) := by
    rw [settingsValue, if_pos ending, saved.parse_save]
  have filled : (Value.ofJson saved.toJson).orElse .emptyMap = Value.ofJson saved.toJson := rfl
  simp only [settings, fileText_toUTF8 unbroken, value, filled, saved.check_toJson, Bind.bind,
    Except.bind, Pure.pure, Except.pure]

theorem settings_save_escaped : fileEnding "conf/settings.JSON" = ".json" ∧
    settings "conf/settings.JSON" (.bytes (Settings.save
      ⟨false, "\x7f\"\\\r\n😀", ⟨true, "é\t\u2028", true, false, true, false, true⟩⟩).toUTF8) =
        .ok ⟨false, "\x7f\"\\\r\n😀", ⟨true, "é\t\u2028", true, false, true, false, true⟩⟩ :=
  ⟨by decide +kernel, settings_save (by decide +kernel) _⟩

end Load
end ApiCatalog
