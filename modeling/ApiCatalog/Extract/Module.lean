import ApiCatalog.Extract.Operation
import ApiCatalog.Extract.TagPolicy

/-! Modules: for each tag, the interfaces of the operations that carry it. -/

namespace ApiCatalog

/-- Whether an operation carries one of the keys of a tag. All its tags have to be possible
keys. -/
def RawOperation.carries (keys : List Value) (raw : RawOperation) : Except Fault Bool := do
  let tags ← ((← raw.operation.field "tags").orElse .emptyList).members
  -- One tag that cannot be a key spoils the list, even if another tag is among the keys.
  if tags.all Value.isKey then return tags.any fun tag => keys.any (Value.same tag)
  else .error .wrongKind

def RawOperation.select (keys : List Value) (operations : List RawOperation) :
    Except Fault (List RawOperation) :=
  operations.filterM (RawOperation.carries keys)

def RawOperation.commonLead (operations : List RawOperation) : Except Fault String := do
  let paths ← operations.mapM fun raw => raw.path.asText
  return String.ofList (Naming.commonLead (paths.map fun path => Naming.dropSlash path.toList))

def Interface.ofOperations (byId : Bool) (lead origin : String) (seen : List String) :
    List RawOperation → Traced (List Interface)
  | [] => Traced.pure []
  | raw :: rest => do
    let interface ← Interface.ofOperation raw byId lead origin
    if interface.name ∈ seen then
      Traced.remark (.duplicateInterface interface.name)
      Interface.ofOperations byId lead origin seen rest
    else
      let more ← Interface.ofOperations byId lead origin (interface.name :: seen) rest
      return interface :: more

def ApiModule.ofTag (operations : List RawOperation) (byId : Bool) (origin : String)
    (policy : TagPolicy) (tag : Value) : Traced (Option ApiModule) := do
  if ← policy.isPlaceholder tag then
    Traced.remark (.placeholderTag (← tag.field "name"))
    return none
  else
    let keys ← policy.matchKeys tag
    let selected ← RawOperation.select keys operations
    let lead ← RawOperation.commonLead selected
    let interfaces ← Interface.ofOperations byId lead origin [] selected
    let (name, description) ← policy.identify tag
    if interfaces.isEmpty then
      Traced.remark (.emptyModule name)
      return none
    else
      some <$> ((ApiModule.mk
        <$> .valid name
        <*> (Check.text description).under (.field "description")
        <*> .valid interfaces).orFault .apiModule : Except Fault ApiModule)

def ApiModule.ofTags (operations : List RawOperation) (tags : Value) (byId : Bool)
    (origin : String) (policy : TagPolicy) : Traced (List ApiModule) := do
  Traced.collect (ApiModule.ofTag operations byId origin policy)
    (← (tags.orElse .emptyList).members)

end ApiCatalog
