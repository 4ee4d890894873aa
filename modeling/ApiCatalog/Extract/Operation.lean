import ApiCatalog.Extract.DataType
import ApiCatalog.Model.Check
import ApiCatalog.Naming.OperationId
import ApiCatalog.Naming.Route

/-! Operations of a document: where they are declared, and the interfaces that they give. -/

namespace ApiCatalog

structure RawOperation where
  path : Value
  method : Value
  operation : Value

def httpMethods : List String :=
  ["get", "put", "post", "delete", "options", "head", "patch"]

def lowerText (s : String) : String :=
  String.ofList (Text.lower s.toList)

def RawOperation.ofEntry (path : Value) (entry : Value × Value) :
    Except Fault (Option RawOperation) :=
  match entry.1 with
  | .text method =>
    if lowerText method ∈ httpMethods ∧ entry.2.isMap = true then
      .ok (some ⟨path, .text (lowerText method), entry.2⟩)
    else .ok none
  | .bytes _ => .ok none
  | _ => .error .noOperation

def RawOperation.ofPath (path item : Value) : Except Fault (List RawOperation) :=
  match item.opened with
  | .map entries => do
    let found ← entries.mapM (RawOperation.ofEntry path)
    return found.flatMap Option.toList
  | _ => .ok []

def RawOperation.ofPaths (paths : Value) : Except Fault (List RawOperation) := do
  let entries ← (paths.orElse .emptyMap).entries
  let found ← entries.mapM fun entry => RawOperation.ofPath entry.1 entry.2
  return found.flatten

def RawOperation.routeName (raw : RawOperation) (lead : String) : Except Fault String := do
  let path ← raw.path.asText
  match raw.method with
  | .text method => return String.ofList (Naming.routeName path.toList method.toList lead.toList)
  | _ => .error .wrongKind

def RawOperation.interfaceName (raw : RawOperation) (byId : Bool) (lead : String) :
    Except Fault String := do
  let id ← raw.operation.field "operationId"
  if byId && id.truthy then
    match id with
    | .text s => return String.ofList (Naming.operationName s.toList)
    | _ => .error .wrongKind
  else raw.routeName lead

def responseSchema (operation : Value) : Except Fault Value := do
  let responses := (← operation.field "responses").orElse .emptyMap
  -- Documents in YAML may key responses by number.
  let byText ← responses.field "200"
  let byNumber := (← responses.lookup? (.int 200)).getD .null
  let success := (byText.orElse byNumber).orElse .emptyMap
  return (← success.field "schema").orElse .emptyMap

/-- The schema of a parameter: its own type, items and enumeration first, then those of its body
schema. -/
def parameterSchema (parameter : Value) : Except Fault Value := do
  let schema := (← parameter.field "schema").orElse .emptyMap
  let typeName := (← parameter.field "type").orElse (← schema.field "type")
  let items := (← parameter.field "items").orElse (← schema.field "items")
  let reference ← schema.field "$ref"
  let listed := (← parameter.field "enum").orElse (← schema.field "enum")
  return .map [(.text "type", typeName), (.text "items", items), (.text "$ref", reference),
    (.text "enum", listed)]

def Location.ofValue? : Value → Option Location
  | .text s => Location.ofName? s
  | _ => none

def Property.checked (name description : Value) (required : Bool) (dataType : DataType)
    (location : Option Location) : Except Fault Property :=
  (Property.mk
    <$> (Check.text name).under (.field "name")
    <*> (Check.text description).under (.field "description")
    <*> .valid required <*> .valid dataType <*> .valid location).orFault .property

def Property.ofParameter (origin : String) (name : Value) (location : Location)
    (parameter : Value) : Traced Property := do
  let schema ← parameterSchema parameter
  let description := (← parameter.field "description").orElse .emptyText
  let required ← parameter.fieldOr "required" (.bool false)
  let dataType ← DataType.ofSchema schema "" origin (location == .body)
  Property.checked name description required.truthy dataType (some location)

/-- The properties of parameters: those with a known location, the first one of each name. `seen`
holds the names before them. -/
def Property.ofParameters (origin : String) (seen : List Value) :
    List Value → Traced (List Property)
  | [] => Traced.pure []
  | parameter :: rest => do
    let name ← parameter.fieldOr "name" .emptyText
    let place ← parameter.fieldOr "in" (.text "query")
    match Location.ofValue? place with
    | none =>
      Traced.remark (.skippedParameter name place)
      Property.ofParameters origin seen rest
    | some location =>
      if !name.isKey then Traced.fail .wrongKind
      else if seen.any (Value.same name) then
        Traced.remark (.duplicateParameter name)
        Property.ofParameters origin seen rest
      else
        let property ← Property.ofParameter origin name location parameter
        let more ← Property.ofParameters origin (name :: seen) rest
        return property :: more

def Interface.ofOperation (raw : RawOperation) (byId : Bool) (lead origin : String) :
    Traced Interface := do
  let name ← raw.interfaceName byId lead
  let response ← DataType.ofSchema (← responseSchema raw.operation) "" origin true
  let description := (← raw.operation.field "summary").orElse .emptyText
  let consumes := (← raw.operation.field "consumes").orElse .emptyList
  let listed := (← raw.operation.field "parameters").orElse .emptyList
  let parameters ← Property.ofParameters origin [] (← listed.members)
  (Interface.mk
    <$> .valid name
    <*> (Check.text description).under (.field "description")
    <*> (Check.text raw.method).under (.field "method")
    <*> (Check.text raw.path).under (.field "path")
    <*> (Check.list Check.text consumes).under (.field "consumes")
    <*> .valid response <*> .valid parameters).orFault .interface

end ApiCatalog
