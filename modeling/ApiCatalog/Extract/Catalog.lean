import ApiCatalog.Extract.BaseClass
import ApiCatalog.Extract.Module
import ApiCatalog.Extract.Settings

/-!
The catalogue of a document: its classes, then the modules of its tags. Body parameters whose model
is not declared are dropped from their interfaces.
-/

namespace ApiCatalog

def modelName (origin reference : String) : String :=
  String.ofList (Generic.unqualify origin.toList reference.toList)

def knownNames (classes : List BaseClass) : List String :=
  classes.map BaseClass.name ++ classes.map BaseClass.justName

def Property.isResolvable (origin : String) (known : List String) (p : Property) : Bool :=
  p.location != some .body || p.dataType.reference == "" ||
    known.contains (modelName origin p.dataType.reference)

def Property.resolvable (origin : String) (known : List String) (parameters : List Property) :
    Traced (List Property) :=
  ⟨(parameters.filter fun p => !p.isResolvable origin known).map fun p =>
      .danglingBody p.name p.dataType.reference (modelName origin p.dataType.reference),
    .ok (parameters.filter fun p => p.isResolvable origin known)⟩

def Interface.resolve (origin : String) (known : List String) (i : Interface) :
    Traced Interface := do
  return { i with parameters := ← Property.resolvable origin known i.parameters }

def ApiModule.resolve (origin : String) (known : List String) (m : ApiModule) :
    Traced ApiModule := do
  return { m with interfaces := ← m.interfaces.mapM (Interface.resolve origin known) }

def ApiModule.resolveAll (modules : List ApiModule) (classes : List BaseClass) (origin : String) :
    Traced (List ApiModule) :=
  modules.mapM (ApiModule.resolve origin (knownNames classes))

def documentPart (document : Value) (name : String) (absent : Value) : Except Fault Value :=
  (·.orElse absent) <$> document.field name

def documentClasses (settings : Settings) (document : Value) : Traced (List BaseClass) := do
  BaseClass.ofDefinitions (← documentPart document "definitions" .emptyMap) settings.origin

def documentOperations (document : Value) : Except Fault (List RawOperation) := do
  RawOperation.ofPaths (← documentPart document "paths" .emptyMap)

def documentModules (settings : Settings) (document : Value) (operations : List RawOperation) :
    Traced (List ApiModule) := do
  ApiModule.ofTags operations (← documentPart document "tags" .emptyList) settings.byId
    settings.origin settings.policy

def Catalog.ofDocument (settings : Settings) (document : Value) : Traced Catalog := do
  let classes ← documentClasses settings document
  let operations ← documentOperations document
  let grouped ← documentModules settings document operations
  let modules ← ApiModule.resolveAll grouped classes settings.origin
  Traced.remark (.summary modules.length classes.length)
  let name := (← document.field "name").orElse (.text settings.origin)
  (Catalog.mk
    <$> (Check.text name).under (.field "name")
    <*> .valid modules <*> .valid classes).orFault .catalog

end ApiCatalog
