import ApiCatalog.Extract.Stages
import ApiCatalog.Proofs.Extract.Outcome

/-!
Resolution of bodies, and the extraction that it ends. Resolution never fails, and takes nothing but
parameters out of the modules: the bodies whose model has no known name. An extraction shown stage
by stage ends as the extraction of the whole document does.
-/

namespace ApiCatalog

def Interface.pruned (origin : String) (known : List String) (i : Interface) : Interface :=
  { i with parameters := i.parameters.filter (·.isResolvable origin known) }

def ApiModule.pruned (origin : String) (known : List String) (m : ApiModule) : ApiModule :=
  { m with interfaces := m.interfaces.map (Interface.pruned origin known) }

theorem Interface.outcome_resolve (origin : String) (known : List String) (i : Interface) :
    (i.resolve origin known).outcome = .ok (i.pruned origin known) :=
  rfl

theorem ApiModule.outcome_resolve (origin : String) (known : List String) (m : ApiModule) :
    (m.resolve origin known).outcome = .ok (m.pruned origin known) := by
  have interfaces := Traced.outcome_mapM_of_forall (Interface.outcome_resolve origin known)
    m.interfaces
  exact Traced.outcome_bind_eq_ok_iff.mpr ⟨_, interfaces, rfl⟩

theorem ApiModule.outcome_resolveAll (modules : List ApiModule) (classes : List BaseClass)
    (origin : String) :
    (ApiModule.resolveAll modules classes origin).outcome =
      .ok (modules.map (ApiModule.pruned origin (knownNames classes))) :=
  Traced.outcome_mapM_of_forall (ApiModule.outcome_resolve origin (knownNames classes)) modules

theorem mem_knownNames {classes : List BaseClass} {name : String} :
    name ∈ knownNames classes ↔ ∃ base ∈ classes, base.name = name ∨ base.justName = name := by
  simp only [knownNames, List.mem_append, List.mem_map]
  constructor
  · rintro (⟨base, member, same⟩ | ⟨base, member, same⟩)
    · exact ⟨base, member, Or.inl same⟩
    · exact ⟨base, member, Or.inr same⟩
  · rintro ⟨base, member, same | same⟩
    · exact Or.inl ⟨base, member, same⟩
    · exact Or.inr ⟨base, member, same⟩

theorem Property.isResolvable_iff {origin : String} {known : List String} {p : Property} :
    p.isResolvable origin known = true ↔
      (p.location = some .body → p.dataType.reference ≠ "" →
        modelName origin p.dataType.reference ∈ known) := by
  simp only [Property.isResolvable, Bool.or_eq_true, bne_iff_ne, beq_iff_eq, List.contains_iff_mem]
  constructor
  · rintro ((elsewhere | nothing) | found)
    · exact fun body => absurd body elsewhere
    · exact fun _ something => absurd nothing something
    · exact fun _ _ => found
  · intro resolves
    by_cases body : p.location = some .body
    · by_cases nothing : p.dataType.reference = ""
      · exact Or.inl (Or.inr nothing)
      · exact Or.inr (resolves body nothing)
    · exact Or.inl (Or.inl body)

theorem BaseClass.of_documentClasses {settings : Settings} {document : Value}
    {classes : List BaseClass}
    (returned : (documentClasses settings document).outcome = .ok classes) :
    ∃ definitions, documentPart document "definitions" .emptyMap = .ok definitions ∧
      (BaseClass.ofDefinitions definitions settings.origin).outcome = .ok classes :=
  Traced.outcome_bind_eq_ok_iff.mp returned

theorem Catalog.of_ofDocument {settings : Settings} {document : Value} {c : Catalog}
    (returned : (Catalog.ofDocument settings document).outcome = .ok c) :
    ∃ operations grouped, (documentClasses settings document).outcome = .ok c.baseClasses ∧
      documentOperations document = .ok operations ∧
      (documentModules settings document operations).outcome = .ok grouped ∧
      c.modules = grouped.map (ApiModule.pruned settings.origin (knownNames c.baseClasses)) := by
  unfold Catalog.ofDocument at returned
  simp only [Traced.outcome_bind_eq_ok_iff, Traced.outcome_lift] at returned
  obtain ⟨classes, hclasses, operations, hoperations, grouped, hgrouped, modules, hmodules, _, -,
    _, -, checked⟩ := returned
  simp only [Checked.orFault_eq_ok_iff, Checked.seq_eq_valid_iff, Checked.map_eq_valid_iff,
    Checked.under_eq_valid_iff] at checked
  obtain ⟨_, _, ⟨_, _, ⟨_, -, rfl⟩, sameModules, rfl⟩, sameClasses, rfl⟩ := checked
  cases sameModules
  cases sameClasses
  rw [ApiModule.outcome_resolveAll] at hmodules
  exact ⟨operations, grouped, hclasses, hoperations, hgrouped, (Except.ok.inj hmodules).symm⟩

/-- Reports that show a computation: all but the last are of steps that returned, with the first
remarks of the computation, and the last one ends as the computation does. -/
def Shows (reports : List StageReport) (run : Traced Catalog) : Prop :=
  ∃ before last, reports = before ++ [last] ∧
    (∀ report ∈ before, ∃ found, report.trace.outcome = .ok found) ∧
    before.flatMap (·.trace.remarks) <+: run.remarks ∧
    last.trace.outcome = StageResult.catalog <$> run.outcome

theorem shows_reportStage {α : Type} {stage : Stage} {shown : α → StageResult} {run : Traced α}
    {next : α → List StageReport} {rest : α → Traced Catalog}
    (later : ∀ value, run.outcome = .ok value → Shows (next value) (rest value)) :
    Shows (reportStage stage shown run next) (run >>= rest) := by
  obtain ⟨remarks, fault | value⟩ := run
  · exact ⟨[], _, rfl, nofun, List.nil_prefix, rfl⟩
  · obtain ⟨before, last, same, returned, first, ends⟩ := later value rfl
    refine ⟨⟨stage, shown <$> ⟨remarks, .ok value⟩⟩ :: before, last, ?_, ?_, ?_, ends⟩
    · exact congrArg _ same
    · exact List.forall_mem_cons.mpr ⟨⟨shown value, rfl⟩, returned⟩
    · have own : (shown <$> (⟨remarks, .ok value⟩ : Traced α)).remarks = remarks :=
        List.append_nil remarks
      rw [List.flatMap_cons, Traced.remarks_bind rfl, own]
      exact (List.prefix_append_right_inj remarks).mpr first

theorem shows_last {stage : Stage} {whole run : Traced Catalog}
    (ends : whole.outcome = run.outcome) :
    Shows (reportStage stage .catalog whole fun _ => []) run := by
  refine ⟨[], ⟨stage, StageResult.catalog <$> whole⟩, ?_, nofun, List.nil_prefix, ?_⟩
  · rcases whole with ⟨remarks, fault | c⟩ <;> rfl
  · rw [← ends]
    rcases whole with ⟨remarks, fault | c⟩ <;> rfl

/-- The stages shown of an extraction are those that returned and one more, the extraction of the
whole document or else the stage that this extraction fails in. -/
theorem shows_stages (byId : Bool) (origin : String) (policy : TagPolicy) (document : Value) :
    Shows (stages byId origin (.valid policy) document)
      (Catalog.ofDocument ⟨byId, origin, policy⟩ document) := by
  refine shows_reportStage fun classes hclasses => ?_
  refine shows_reportStage fun operations hoperations => ?_
  refine shows_reportStage fun grouped hgrouped => ?_
  refine shows_reportStage fun modules hmodules => ?_
  -- All steps returned, so the whole is what is left of it.
  refine shows_last ?_
  refine (Traced.outcome_bind_of_ok hclasses).trans ?_
  refine (Traced.outcome_bind_of_ok hoperations).trans ?_
  refine (Traced.outcome_bind_of_ok hgrouped).trans ?_
  exact Traced.outcome_bind_of_ok hmodules

theorem prefix_reportStage {α : Type} {stage : Stage} {shown : α → StageResult} {run : Traced α}
    {next : α → List StageReport} {names : List Stage}
    (later : ∀ value, (next value).map StageReport.stage <+: names) :
    (reportStage stage shown run next).map StageReport.stage <+: stage :: names := by
  obtain ⟨remarks, fault | value⟩ := run
  · exact (List.prefix_cons_inj stage).mpr List.nil_prefix
  · exact (List.prefix_cons_inj stage).mpr (later value)

theorem stages_in_order (byId : Bool) (origin : String) (policy : Checked TagPolicy)
    (document : Value) :
    (stages byId origin policy document).map StageReport.stage <+:
      [.classes, .operations, .modules, .resolved, .catalog] := by
  refine prefix_reportStage fun classes => ?_
  refine prefix_reportStage fun operations => ?_
  refine prefix_reportStage fun modules => ?_
  refine prefix_reportStage fun resolved => ?_
  exact prefix_reportStage fun catalog => List.nil_prefix

end ApiCatalog
