import ApiCatalog.Proofs.Extract.ClassSelection
import ApiCatalog.Proofs.Extract.Declaration
import ApiCatalog.Proofs.Extract.Grouping
import ApiCatalog.Proofs.Extract.ReferenceForm
import ApiCatalog.Proofs.Extract.Resolution

/-!
What holds of every catalogue. The names of its classes, modules and interfaces are in order, its
data types are sound, and its bodies have known models. The names of the parameters of an interface
are distinct unless the document names two of them by a text and by the bytes of that text.
-/

namespace ApiCatalog

def DataType.IsQualified (t : DataType) : Prop :=
  t.reference ≠ "" → Generic.namespaceLead <+: t.reference.toList

theorem DataType.isQualified_of_ofSchema {schema : Value} {origin : String} {t : DataType}
    (returned : (DataType.ofSchema schema "" origin true).outcome = .ok t) : t.IsQualified := by
  obtain ⟨⟨raw, -, referenced⟩, -⟩ := DataType.of_ofSchema returned
  intro given
  rw [referenced, String.toList_ofList]
  apply namespaceLead_prefix_resolveReference
  intro empty
  exact given (by rw [referenced, String.ofList_eq_empty_iff]; exact empty)

theorem Property.MadeFrom.types {origin : String} {parameter : Value} {p : Property}
    (made : Property.MadeFrom origin parameter p) :
    p.dataType.IsSound ∧ (p.location = some .body → p.dataType.IsQualified) := by
  obtain ⟨schema, -, -, -, typed⟩ := made.spec
  refine ⟨(DataType.of_ofSchema typed).2, fun body => ?_⟩
  rw [body] at typed
  exact DataType.isQualified_of_ofSchema typed

namespace Catalog

def interfaces (c : Catalog) : List Interface :=
  c.modules.flatMap ApiModule.interfaces

def dataTypes (c : Catalog) : List DataType :=
  c.baseClasses.flatMap (fun base => base.properties.map Property.dataType) ++
    c.interfaces.flatMap fun i => i.response :: i.parameters.map Property.dataType

structure IsConsistent (origin : String) (c : Catalog) : Prop where
  just_names_descend : (c.baseClasses.map BaseClass.justName).Pairwise (· > ·)
  modules_filled : ∀ m ∈ c.modules, m.interfaces ≠ []
  interface_names_nodup : ∀ m ∈ c.modules, (m.interfaces.map Interface.name).Nodup
  types_sound : ∀ t ∈ c.dataTypes, t.IsSound
  responses_qualified : ∀ i ∈ c.interfaces, i.response.IsQualified
  bodies_qualified : ∀ i ∈ c.interfaces, ∀ p ∈ i.parameters, p.location = some .body →
    p.dataType.IsQualified
  bodies_declared : ∀ i ∈ c.interfaces, ∀ p ∈ i.parameters, p.location = some .body →
    p.dataType.reference ≠ "" → ∃ base ∈ c.baseClasses,
      base.name = modelName origin p.dataType.reference ∨
        base.justName = modelName origin p.dataType.reference

theorem mem_interfaces {c : Catalog} {i : Interface} :
    i ∈ c.interfaces ↔ ∃ m ∈ c.modules, i ∈ m.interfaces :=
  List.mem_flatMap

theorem exists_of_mem_interfaces {settings : Settings} {document : Value} {c : Catalog}
    (returned : (Catalog.ofDocument settings document).outcome = .ok c) {i : Interface}
    (member : i ∈ c.interfaces) :
    ∃ operations raw lead whole, documentOperations document = .ok operations ∧ raw ∈ operations ∧
      (Interface.ofOperation raw settings.byId lead settings.origin).outcome = .ok whole ∧
      i = whole.pruned settings.origin (knownNames c.baseClasses) := by
  obtain ⟨operations, grouped, -, hoperations, hgrouped, resolved⟩ := Catalog.of_ofDocument returned
  obtain ⟨tags, -, ofTags⟩ := Traced.outcome_bind_eq_ok_iff.mp hgrouped
  obtain ⟨pruned, memberM, memberI⟩ := mem_interfaces.mp member
  rw [resolved] at memberM
  obtain ⟨m, inside, rfl⟩ := List.mem_map.mp memberM
  obtain ⟨whole, memberW, rfl⟩ := List.mem_map.mp memberI
  obtain ⟨lead, each⟩ := (ApiModule.isGrouped_of_ofTags ofTags m inside).from_operations
  obtain ⟨raw, memberR, made⟩ := each whole memberW
  exact ⟨operations, raw, lead, whole, hoperations, memberR, made, rfl⟩

theorem classes_of_ofDocument {settings : Settings} {document : Value} {c : Catalog}
    (returned : (Catalog.ofDocument settings document).outcome = .ok c) :
    (c.baseClasses.map BaseClass.justName).Pairwise (· > ·) ∧
      ∀ base ∈ c.baseClasses, ∀ p ∈ base.properties, p.dataType.IsSound := by
  obtain ⟨_, _, hclasses, -⟩ := Catalog.of_ofDocument returned
  obtain ⟨definitions, -, ofDefinitions⟩ := BaseClass.of_documentClasses hclasses
  obtain ⟨entries, declared, -, each, sorted⟩ := BaseClass.of_ofDefinitions ofDefinitions
  refine ⟨BaseClass.pairwise_justName_of_sortUnique sorted, fun base member p inside => ?_⟩
  obtain ⟨entry, -, made⟩ := forall₂_exists_left each
    (BaseClass.mem_of_sortUnique sorted base member)
  obtain ⟨_, _, _, -, -, -, properties⟩ := BaseClass.of_ofDefinition made
  obtain ⟨field, -, ofField⟩ := forall₂_exists_left properties inside
  exact (DataType.of_ofSchema (Property.of_ofEntry ofField).1).2

theorem modules_of_ofDocument {settings : Settings} {document : Value} {c : Catalog}
    (returned : (Catalog.ofDocument settings document).outcome = .ok c) :
    ∀ m ∈ c.modules, m.interfaces ≠ [] ∧ (m.interfaces.map Interface.name).Nodup := by
  obtain ⟨operations, grouped, -, -, hgrouped, resolved⟩ := Catalog.of_ofDocument returned
  obtain ⟨tags, -, ofTags⟩ := Traced.outcome_bind_eq_ok_iff.mp hgrouped
  rw [resolved]
  intro pruned member
  obtain ⟨m, inside, rfl⟩ := List.mem_map.mp member
  obtain ⟨nonempty, distinct, -⟩ := ApiModule.isGrouped_of_ofTags ofTags m inside
  refine ⟨by simpa [ApiModule.pruned] using nonempty, ?_⟩
  simpa [ApiModule.pruned, Interface.pruned, Function.comp_def] using distinct

theorem isConsistent_of_ofDocument {settings : Settings} {document : Value} {c : Catalog}
    (returned : (Catalog.ofDocument settings document).outcome = .ok c) :
    c.IsConsistent settings.origin := by
  obtain ⟨descending, classTypes⟩ := classes_of_ofDocument returned
  -- Interfaces have only parameters that they had before bodies were resolved.
  have interfaceTypes : ∀ i ∈ c.interfaces, i.response.IsSound ∧ i.response.IsQualified ∧
      ∀ p ∈ i.parameters, p.isResolvable settings.origin (knownNames c.baseClasses) = true ∧
        p.dataType.IsSound ∧ (p.location = some .body → p.dataType.IsQualified) := by
    intro i member
    obtain ⟨_, raw, lead, whole, -, -, made, rfl⟩ := exists_of_mem_interfaces returned member
    obtain ⟨_, _, -, typed, -, properties⟩ := Interface.of_ofOperation made
    refine ⟨(DataType.of_ofSchema typed).2, DataType.isQualified_of_ofSchema typed, ?_⟩
    intro p inside
    obtain ⟨before, resolvable⟩ := List.mem_filter.mp inside
    obtain ⟨parameter, -, madeP⟩ := forall₂_exists_left properties before
    exact ⟨resolvable, madeP.types⟩
  refine ⟨descending, fun m member => (modules_of_ofDocument returned m member).1,
    fun m member => (modules_of_ofDocument returned m member).2, ?_, ?_, ?_, ?_⟩
  · intro t member
    rcases List.mem_append.mp member with ofClass | ofInterface
    · obtain ⟨base, memberB, inside⟩ := List.mem_flatMap.mp ofClass
      obtain ⟨p, memberP, rfl⟩ := List.mem_map.mp inside
      exact classTypes base memberB p memberP
    · obtain ⟨i, memberI, inside⟩ := List.mem_flatMap.mp ofInterface
      rcases List.mem_cons.mp inside with rfl | inside
      · exact (interfaceTypes i memberI).1
      · obtain ⟨p, memberP, rfl⟩ := List.mem_map.mp inside
        exact ((interfaceTypes i memberI).2.2 p memberP).2.1
  · exact fun i memberI => (interfaceTypes i memberI).2.1
  · exact fun i memberI p memberP => ((interfaceTypes i memberI).2.2 p memberP).2.2
  · intro i memberI p memberP body referenced
    have resolvable := ((interfaceTypes i memberI).2.2 p memberP).1
    exact mem_knownNames.mp (Property.isResolvable_iff.mp resolvable body referenced)

/-- Every catalogue is consistent, and the parameters of an interface have distinct names exactly
if no two of those they are made from are named by a text and by the bytes of that text. -/
theorem isConsistent_and_parameter_names_nodup_iff {settings : Settings} {document : Value}
    {c : Catalog} (returned : (Catalog.ofDocument settings document).outcome = .ok c) :
    c.IsConsistent settings.origin ∧
      ∀ i ∈ c.interfaces, ∃ operations raw listed sources,
        documentOperations document = .ok operations ∧ raw ∈ operations ∧
          raw.listed = .ok listed ∧ sources.Sublist (firstParameters [] listed) ∧
          List.Forall₂ (Property.MadeFrom settings.origin) sources i.parameters ∧
          ((i.parameters.map Property.name).Nodup ↔
            ∀ a ∈ sources, ∀ b ∈ sources, ¬ a.givenName.SpellsAlike b.givenName) := by
  refine ⟨isConsistent_of_ofDocument returned, fun i member => ?_⟩
  obtain ⟨operations, raw, lead, whole, hoperations, memberR, made, rfl⟩ :=
    exists_of_mem_interfaces returned member
  obtain ⟨_, listed, -, -, hlisted, properties⟩ := Interface.of_ofOperation made
  obtain ⟨sources, part, related⟩ := forall₂_exists_filter properties
    fun p => p.isResolvable settings.origin (knownNames c.baseClasses)
  have apart : sources.Pairwise fun a b => Value.same b.givenName a.givenName = false :=
    (pairwise_keepFirst [] _).sublist part
  exact ⟨operations, raw, listed, sources, hoperations, memberR, hlisted, part, related,
    nodup_names_iff related apart⟩

def textAndBytes : Value :=
  .map [(.text "tags", .list [.map [(.text "name", .text "t"), (.text "description", .text "d")]]),
    (.text "paths", .map [(.text "/a", .map [(.text "get", .map [
      (.text "tags", .list [.text "t"]),
      (.text "parameters", .list [
        .map [(.text "name", .bytes [0x69, 0x64]), (.text "in", .text "query")],
        .map [(.text "name", .text "id"), (.text "in", .text "header")]])])])])]

theorem parameter_names_of_textAndBytes :
    ∃ c, (Catalog.ofDocument .standard textAndBytes).outcome = .ok c ∧ c.IsConsistent "" ∧
      ∃ i ∈ c.interfaces, ¬ (i.parameters.map Property.name).Nodup := by
  have returned : (Catalog.ofDocument .standard textAndBytes).outcome = .ok ⟨"", [⟨"t", "d",
      [⟨"getA", "", "get", "/a", [], ⟨false, .empty, "", none⟩,
        [⟨"id", "", false, ⟨false, .empty, "", none⟩, some .query⟩,
          ⟨"id", "", false, ⟨false, .empty, "", none⟩, some .header⟩]⟩]⟩], []⟩ :=
    Outcome.eq_ok_of_toOption (by decide +kernel)
  refine ⟨_, returned, (isConsistent_and_parameter_names_nodup_iff returned).1, _,
    List.mem_singleton_self _, by decide⟩

end Catalog
end ApiCatalog
