import ApiCatalog.Extract.Enumeration
import ApiCatalog.Extract.Remark
import ApiCatalog.Generic.Name

/-!
Data types of schemas. A reference wins over a primitive shape; inside a generic class a reference
to the argument of the class becomes its parameter.
-/

namespace ApiCatalog

def placeholderModel : List Char := "Model".toList

def selfParameter : List Char := "T0".toList

/-- The reference of a data type. `self` is the argument of the class around it; `always` asks for
the namespace even where the origin is already part of the name. -/
def resolveReference (self origin : List Char) (always : Bool) (raw : List Char) : List Char :=
  let used := Generic.useName origin raw
  if used = placeholderModel ∨ used.isEmpty = true then []
  else if used = self then selfParameter
  else if !origin.isEmpty && !Text.occursIn origin used then Generic.qualify origin used
  else if always && !Generic.isQualified used then Generic.qualify [] used
  else used

def schemaType (schema : Value) : Except Fault String := do
  match ← schema.field "type" with
  | .text s => return s
  | _ => return ""

def primitiveName (typeName : String) : String :=
  if typeName = "object" then "" else if typeName = "integer" then "number"
  else if typeName = "file" then "File" else typeName

def knownPrimitive (name : String) : Traced Primitive :=
  match Primitive.ofName? name with
  | some primitive => Traced.pure primitive
  | none => ⟨[.unknownType name], .ok .any⟩

def DataType.ofSchema (schema : Value) (self origin : String) (always : Bool) :
    Traced DataType := do
  let outer ← schemaType schema
  let found ← schema.field "items"
  let items := if found.isMap then found else .emptyMap
  let isArray := outer == "array"
  let inner ← schemaType items
  let typeName := if isArray then (if inner = "array" then "" else inner) else outer
  -- A reference counts wherever it stands, whether or not the type is an array.
  let direct ← schema.field "$ref"
  let ofItems ← items.field "$ref"
  let raw ← ((direct.orElse ofItems).orElse .emptyText).asText
  let reference := String.ofList (resolveReference self.toList origin.toList always raw.toList)
  let primitive ←
    if reference = "" then knownPrimitive (primitiveName typeName) else Traced.pure .empty
  let members ← EnumMember.ofListed (← schema.field "enum")
  return ⟨isArray, primitive, reference, members⟩

end ApiCatalog
