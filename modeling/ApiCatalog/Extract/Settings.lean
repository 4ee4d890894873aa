import ApiCatalog.Extract.TagPolicy
import ApiCatalog.Json.Writer

/-! The settings of an extraction, as a record that can be written and read back. -/

namespace ApiCatalog

structure Settings where
  /-- Names interfaces after operation ids rather than after routes. -/
  byId : Bool
  /-- The namespace of the document, which qualifies references. -/
  origin : String
  policy : TagPolicy
deriving DecidableEq

namespace Settings

def standard : Settings :=
  ⟨true, "", .standard⟩

def check : Value → Checked Settings :=
  Check.record fun entries =>
    Settings.mk
      <$> Check.field entries "using_operation_id" true Check.bool
      <*> Check.field entries "origin_name" "" Check.text
      <*> Check.field entries "tag_policy" .standard TagPolicy.check

def toJson (settings : Settings) : Json :=
  .object [("using_operation_id", .bool settings.byId), ("origin_name", .string settings.origin),
    ("tag_policy", settings.policy.toJson)]

/-- The text in which settings are saved: indented by two, in ASCII, with a final line break. -/
def save (settings : Settings) : String :=
  Json.render ⟨some 2, true⟩ settings.toJson ++ "\n"

end Settings
end ApiCatalog
