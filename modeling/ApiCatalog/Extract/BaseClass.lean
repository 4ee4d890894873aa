import ApiCatalog.Extract.Operation

/-!
Classes: each definition of a document gives one. Definitions that are instances of one generic
declare the same class, and the most specific of them is kept.
-/

namespace ApiCatalog

/-- Whether a property is required: its own flag if it has one, else the list of its class. -/
def isRequired (property name listed : Value) : Except Fault Bool := do
  match ← property.field "required" with
  | .bool flag => return flag
  | _ => listed.holds name

def Property.ofEntry (self origin : String) (required : Value) (entry : Value × Value) :
    Traced Property := do
  let description := (← entry.2.field "description").orElse .emptyText
  let flag ← isRequired entry.2 entry.1 required
  let dataType ← DataType.ofSchema entry.2 self origin false
  Property.checked entry.1 description flag dataType none

def BaseClass.ofDefinition (origin : String) (entry : Value × Value) : Traced BaseClass := do
  let definition := entry.2.orElse .emptyMap
  let name ← entry.1.asText
  let self := String.ofList (Generic.selfArgument name.toList)
  let required := (← definition.field "required").orElse .emptyList
  let entries ← ((← definition.field "properties").orElse .emptyMap).entries
  let properties ← entries.mapM (Property.ofEntry self origin required)
  let declared := String.ofList (Generic.declarationName name.toList)
  let description := (← definition.field "description").orElse .emptyText
  (BaseClass.mk
    <$> .valid declared
    <*> (Check.text description).under (.field "description")
    <*> .valid properties).orFault .baseClass

/-- Whether one class goes before or with another: names without parameters descend, and of equal
ones the longer whole name goes first. -/
def BaseClass.goesBefore (a b : BaseClass) : Bool :=
  decide (b.justName < a.justName) ||
    (a.justName == b.justName && decide (b.name.length ≤ a.name.length))

def BaseClass.firsts (seen : List String) : List BaseClass → Traced (List BaseClass)
  | [] => Traced.pure []
  | base :: rest => do
    if base.justName ∈ seen then
      Traced.remark (.duplicateClass base.name)
      BaseClass.firsts seen rest
    else
      let more ← BaseClass.firsts (base.justName :: seen) rest
      return base :: more

def BaseClass.sortUnique (classes : List BaseClass) : Traced (List BaseClass) :=
  BaseClass.firsts [] (classes.mergeSort BaseClass.goesBefore)

def BaseClass.ofDefinitions (definitions : Value) (origin : String) :
    Traced (List BaseClass) := do
  let entries ← (definitions.orElse .emptyMap).entries
  let classes ← entries.mapM (BaseClass.ofDefinition origin)
  BaseClass.sortUnique classes

end ApiCatalog
