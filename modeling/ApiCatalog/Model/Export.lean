import ApiCatalog.Json.Writer
import ApiCatalog.Model.Catalog

/-! The JSON form of a catalogue and of its parts. -/

namespace ApiCatalog

def EnumMember.toJson : EnumMember → Json
  | .text s => .string s
  | .bool b => .bool b
  | .int n => .int n
  | .float x => .float x

def DataType.toJson (t : DataType) : Json :=
  .object [("is_array", .bool t.isArray), ("primitive_type", .string t.primitive.name),
    ("reference", .string t.reference),
    ("enum", match t.enumeration with
      | none => .null
      | some members => .list (members.map EnumMember.toJson))]

def Property.toJson (p : Property) : Json :=
  .object [("name", .string p.name), ("description", .string p.description),
    ("required", .bool p.required), ("data_type", p.dataType.toJson),
    ("location", match p.location with
      | none => .null
      | some location => .string location.name)]

def Interface.toJson (i : Interface) : Json :=
  .object [("name", .string i.name), ("description", .string i.description),
    ("method", .string i.method), ("path", .string i.path),
    ("consumes", .list (i.consumes.map .string)), ("response", i.response.toJson),
    ("parameters", .list (i.parameters.map Property.toJson))]

def ApiModule.toJson (m : ApiModule) : Json :=
  .object [("name", .string m.name), ("description", .string m.description),
    ("interfaces", .list (m.interfaces.map Interface.toJson))]

def BaseClass.toJson (b : BaseClass) : Json :=
  .object [("name", .string b.name), ("description", .string b.description),
    ("properties", .list (b.properties.map Property.toJson)), ("just_name", .string b.justName)]

def Catalog.toJson (c : Catalog) : Json :=
  .object [("name", .string c.name), ("mods", .list (c.modules.map ApiModule.toJson)),
    ("base_classes", .list (c.baseClasses.map BaseClass.toJson))]

def modelText (indent : Option Nat) (model : Json) : String :=
  Json.render ⟨indent, false⟩ model

end ApiCatalog
