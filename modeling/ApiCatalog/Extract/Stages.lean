import ApiCatalog.Extract.Catalog
import ApiCatalog.Extract.Settings

/-!
An extraction shown stage by stage: the classes, the operations, the modules, the modules whose
bodies are resolved, and the catalogue of the whole document. The first stage that fails is the
last one shown.
-/

namespace ApiCatalog

inductive StageResult
  | classes (found : List BaseClass)
  | operations (found : List RawOperation)
  | modules (found : List ApiModule)
  | resolved (found : List ApiModule)
  | catalog (found : Catalog)

inductive Stage
  | classes
  | operations
  | modules
  | resolved
  | catalog
deriving DecidableEq, Repr

structure StageReport where
  stage : Stage
  trace : Traced StageResult

def reportStage {α : Type} (stage : Stage) (shown : α → StageResult) (run : Traced α)
    (next : α → List StageReport) : List StageReport :=
  ⟨stage, shown <$> run⟩ ::
    match run.outcome with
    | .ok value => next value
    | .error _ => []

/-- The stages of an extraction. The policy is checked when the modules are made. -/
def stages (byId : Bool) (origin : String) (policy : Checked TagPolicy) (document : Value) :
    List StageReport :=
  let settings (policy : TagPolicy) : Settings := ⟨byId, origin, policy⟩
  let plain := settings .standard
  let checked : Traced TagPolicy := (policy.orFault .tagPolicy : Except Fault TagPolicy)
  reportStage .classes .classes (documentClasses plain document) fun classes =>
  reportStage .operations .operations (documentOperations document : Except Fault _)
    fun operations =>
  reportStage .modules .modules
    (do documentModules (settings (← checked)) document operations) fun modules =>
  reportStage .resolved .resolved (ApiModule.resolveAll modules classes origin) fun _ =>
  reportStage .catalog .catalog
    (do Catalog.ofDocument (settings (← checked)) document) fun _ => []

end ApiCatalog
