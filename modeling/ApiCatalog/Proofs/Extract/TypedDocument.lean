import ApiCatalog.Proofs.Extract.Grouping
import ApiCatalog.Proofs.Extract.OperationPair
import ApiCatalog.Proofs.Extract.Resolution
import ApiCatalog.Proofs.Extract.TypedSchema

/-!
Extraction from well-typed documents. It gives a catalogue, unless a schema that is read on the way
lists a whole number beyond the range of doubles; then it overflows.
-/

namespace ApiCatalog

structure RawOperation.IsWellTyped (raw : RawOperation) : Prop where
  path : raw.path.IsText
  method : raw.method.IsText
  operation : raw.operation.IsOperation

theorem RawOperation.exists_ofPaths {paths : Value} (typed : paths.IsMapOf Value.IsPathItem) :
    ∃ operations, RawOperation.ofPaths paths = .ok operations ∧
      ∀ raw ∈ operations, raw.IsWellTyped := by
  obtain ⟨entries, hentries, each⟩ :=
    (Value.IsNullOr.orElse (.inr typed) Value.isMapOf_emptyMap).entries
  have shape : ∀ raw ∈ RawOperation.declared entries, raw.path.IsText ∧
      ∃ key, raw.method = .text key ∧ (lowerText key ∈ httpMethods →
        raw.operation.isMap = true → raw.operation.IsOperation) := by
    intro raw member
    obtain ⟨entry, inside, found⟩ := List.mem_flatMap.mp member
    obtain ⟨methods, opens, keyed, listed, rfl⟩ := RawOperation.mem_declaredBy_iff.mp found
    exact ⟨(each entry inside).1, (each entry inside).2 methods opens keyed listed⟩
  refine ⟨_, RawOperation.ofPaths_eq hentries fun raw member => ?_, ?_⟩
  · obtain ⟨-, key, named, -⟩ := shape raw member
    exact ⟨key, named⟩
  · intro raw member
    obtain ⟨source, found, rfl⟩ := List.mem_map.mp member
    obtain ⟨inside, callable⟩ := List.mem_filter.mp found
    obtain ⟨path, key, named, operation⟩ := shape source inside
    obtain ⟨method, isMap⟩ : lowerText key ∈ httpMethods ∧ source.operation.isMap = true := by
      simpa [RawOperation.isCallable, named] using callable
    simp only [RawOperation.lowered, named]
    exact ⟨path, ⟨_, rfl⟩, operation method isMap⟩

section
variable {raw : RawOperation}

theorem RawOperation.exists_interfaceName (typed : raw.IsWellTyped) (byId : Bool) (lead : String) :
    ∃ name, raw.interfaceName byId lead = .ok name := by
  obtain ⟨path, hpath⟩ := typed.path.asText
  obtain ⟨method, hmethod⟩ := typed.method
  obtain ⟨id, hid, nullOrText⟩ := typed.operation.id.field
  have route : ∃ name, raw.routeName lead = .ok name := by
    rw [RawOperation.routeName, hpath, hmethod]
    exact ⟨_, rfl⟩
  rcases nullOrText with rfl | ⟨s, rfl⟩
  · obtain ⟨name, hname⟩ := route
    refine ⟨name, Outcome.bind_eq_ok_iff.mpr ⟨_, hid, ?_⟩⟩
    simpa [Value.truthy] using hname
  · cases chosen : byId && (Value.text s).truthy with
    | true =>
      refine ⟨String.ofList (Naming.operationName s.toList),
        Outcome.bind_eq_ok_iff.mpr ⟨_, hid, ?_⟩⟩
      rw [if_pos chosen]
      rfl
    | false =>
      obtain ⟨name, hname⟩ := route
      refine ⟨name, Outcome.bind_eq_ok_iff.mpr ⟨_, hid, ?_⟩⟩
      rw [if_neg (by simp [chosen])]
      exact hname

theorem RawOperation.exists_responseSchema (typed : raw.IsWellTyped) :
    ∃ schema, responseSchema raw.operation = .ok schema ∧ schema.IsSchema := by
  obtain ⟨found, hfound, nullOrResponses⟩ := typed.operation.responses.field
  have responses := nullOrResponses.orElse fun key _ => Value.mayHave_emptyMap key
  obtain ⟨byText, hbyText, textResponse⟩ := (responses (.text "200") (by simp)).field
  obtain ⟨numbered, hnumbered, each⟩ := responses (.int 200) (by simp)
  have numberResponse : (numbered.getD .null).IsNullOr fun response =>
      response.MayHave (.text "schema") Value.IsSchema := by
    cases numbered with
    | none => exact Or.inl rfl
    | some response => exact each response rfl
  have success := (textResponse.orElse_nullOr numberResponse).orElse
    (Value.mayHave_emptyMap (.text "schema"))
  obtain ⟨schema, hschema, nullOrSchema⟩ := success.field
  refine ⟨schema.orElse .emptyMap, ?_, nullOrSchema.orElse Value.isSchema_emptyMap⟩
  exact Outcome.bind_eq_ok_iff.mpr ⟨found, hfound, Outcome.bind_eq_ok_iff.mpr ⟨byText, hbyText,
    Outcome.bind_eq_ok_iff.mpr ⟨numbered, hnumbered,
      Outcome.bind_eq_ok_iff.mpr ⟨schema, hschema, rfl⟩⟩⟩⟩

theorem RawOperation.exists_listed (typed : raw.IsWellTyped) :
    ∃ listed, raw.listed = .ok listed ∧ ∀ parameter ∈ listed, parameter.IsParameter := by
  obtain ⟨found, hfound, nullOrRow⟩ := typed.operation.parameters.field
  obtain ⟨listed, hlisted, each⟩ := (nullOrRow.orElse Value.isListOf_emptyList).members
  exact ⟨listed, Outcome.bind_eq_ok_iff.mpr ⟨found, hfound, hlisted⟩, each⟩

theorem RawOperation.exists_carries (typed : raw.IsWellTyped) (keys : List Value) :
    ∃ flag, raw.carries keys = .ok flag := by
  obtain ⟨found, hfound, nullOrRow⟩ := typed.operation.tags.field
  obtain ⟨tags, htags, each⟩ := (nullOrRow.orElse Value.isListOf_emptyList).members
  have possible : tags.all Value.isKey = true := by
    rw [List.all_eq_true]
    intro tag member
    obtain ⟨s, rfl⟩ := each tag member
    rfl
  refine ⟨tags.any fun tag => keys.any (Value.same tag), ?_⟩
  refine Outcome.bind_eq_ok_iff.mpr ⟨found, hfound, Outcome.bind_eq_ok_iff.mpr ⟨tags, htags, ?_⟩⟩
  rw [if_pos possible]
  rfl

theorem RawOperation.exists_commonLead {operations : List RawOperation}
    (typed : ∀ raw ∈ operations, raw.IsWellTyped) :
    ∃ lead, RawOperation.commonLead operations = .ok lead := by
  have each : ∀ raw ∈ operations, ∃ path, raw.path.asText = .ok path ∧ True := by
    intro raw member
    obtain ⟨path, hpath⟩ := (typed raw member).path.asText
    exact ⟨path, hpath, trivial⟩
  obtain ⟨paths, hpaths, -⟩ := Outcome.exists_mapM each
  exact ⟨_, Outcome.bind_eq_ok_iff.mpr ⟨paths, hpaths, rfl⟩⟩

def RawOperation.schemas (raw : RawOperation) : List Value :=
  (responseSchema raw.operation).toOption.toList ++
    (firstParameters [] (raw.listed.toOption.getD [])).flatMap Value.ownSchemas

theorem Interface.hingesOn_ofOperation (typed : raw.IsWellTyped) (byId : Bool)
    (lead origin : String) :
    (Interface.ofOperation raw byId lead origin).HingesOn raw.schemas := by
  obtain ⟨name, hname⟩ := RawOperation.exists_interfaceName typed byId lead
  obtain ⟨schema, hschema, isSchema⟩ := RawOperation.exists_responseSchema typed
  obtain ⟨listed, hlisted, parametersTyped⟩ := RawOperation.exists_listed typed
  obtain ⟨found, hfound, hmembers⟩ := Outcome.bind_eq_ok_iff.mp hlisted
  obtain ⟨summary, hsummary, nullOrText⟩ := typed.operation.summary.field
  obtain ⟨consumes, hconsumes, nullOrRow⟩ := typed.operation.consumes.field
  obtain ⟨description, described⟩ := (nullOrText.orElse Value.isText_emptyText).check
  obtain ⟨kinds, consumed⟩ := (nullOrRow.orElse Value.isListOf_emptyList).check_list
  obtain ⟨method, hmethod⟩ := typed.method.check
  obtain ⟨path, hpath⟩ := typed.path.check
  have own : raw.schemas = [schema] ++ (firstParameters [] listed).flatMap Value.ownSchemas := by
    rw [RawOperation.schemas, hschema, hlisted]
    rfl
  rw [own]
  unfold Interface.ofOperation
  refine .ok_bind hname (.ok_bind hschema ?_)
  refine (DataType.hingesOn_ofSchema isSchema "" origin true).bind fun response _ => ?_
  refine .ok_bind hsummary (.ok_bind hconsumes (.ok_bind hfound (.ok_bind hmembers ?_)))
  refine (Property.hingesOn_ofParameters parametersTyped origin []).bind_ok fun parameters _ => ?_
  refine ⟨⟨name, description, method, path, kinds, response, parameters⟩, ?_⟩
  rw [described, hmethod, hpath, consumed]
  rfl

end

theorem Interface.hingesOn_ofOperations {operations : List RawOperation}
    (typed : ∀ raw ∈ operations, raw.IsWellTyped) (byId : Bool) (lead origin : String)
    (seen : List String) :
    (Interface.ofOperations byId lead origin seen operations).HingesOn
      (operations.flatMap RawOperation.schemas) := by
  induction operations generalizing seen with
  | nil => exact Traced.hingesOn_of_ok rfl
  | cons raw rest ih =>
    obtain ⟨first, others⟩ := List.forall_mem_cons.mp typed
    rw [Interface.ofOperations, List.flatMap_cons]
    refine (Interface.hingesOn_ofOperation first byId lead origin).bind fun i _ => .ite ?_ ?_
    · exact (Traced.hingesOn_of_ok rfl).bind fun _ _ => ih others seen
    · exact (ih others _).bind_ok fun more _ => ⟨i :: more, rfl⟩

theorem Tag.exists_anyNonLatin {members : List Value}
    (each : ∀ member ∈ members, ∃ c, member = .text (String.ofList [c])) :
    ∃ flag, Tag.anyNonLatin members = .ok flag := by
  induction members with
  | nil => exact ⟨false, rfl⟩
  | cons member rest ih =>
    obtain ⟨⟨c, rfl⟩, others⟩ := List.forall_mem_cons.mp each
    obtain ⟨flag, walked⟩ := ih others
    have asked : ∃ foreign, Tag.nonLatinMember (.text (String.ofList [c])) = .ok foreign := by
      unfold Tag.nonLatinMember
      dsimp only
      split
      · exact ⟨false, rfl⟩
      · rw [if_pos (by simp)]
        exact ⟨_, rfl⟩
    obtain ⟨foreign, hforeign⟩ := asked
    rw [Tag.anyNonLatin, hforeign]
    cases foreign with
    | true => exact ⟨true, rfl⟩
    | false => exact ⟨flag, walked⟩

theorem Tag.exists_hasNonLatin (s : String) : ∃ flag, Tag.hasNonLatin (.text s) = .ok flag := by
  have letters : ∀ member ∈ s.toList.map fun c => Value.text (String.ofList [c]),
      ∃ c, member = .text (String.ofList [c]) := by
    intro member inside
    obtain ⟨c, -, rfl⟩ := List.mem_map.mp inside
    exact ⟨c, rfl⟩
  exact Tag.exists_anyNonLatin letters

section
variable {tag : Value} (typed : tag.IsTag) (policy : TagPolicy)
include typed

theorem Tag.exists_name : ∃ s, Tag.name tag = .ok (.text s) := by
  obtain ⟨found, hfound, nullOrText⟩ := typed.name.field
  obtain ⟨s, same⟩ := nullOrText.orElse Value.isText_emptyText
  exact ⟨s, Outcome.map_eq_ok_iff.mpr ⟨found, hfound, same⟩⟩

theorem Tag.exists_description : ∃ s, Tag.description tag = .ok (.text s) := by
  obtain ⟨found, hfound, nullOrText⟩ := typed.description.field
  obtain ⟨s, same⟩ := nullOrText.orElse Value.isText_emptyText
  exact ⟨s, Outcome.map_eq_ok_iff.mpr ⟨found, hfound, same⟩⟩

theorem TagPolicy.exists_isPlaceholder : ∃ flag, policy.isPlaceholder tag = .ok flag := by
  obtain ⟨name, hname⟩ := Tag.exists_name typed
  obtain ⟨description, hdescription⟩ := Tag.exists_description typed
  rw [TagPolicy.isPlaceholder]
  split
  · exact ⟨false, rfl⟩
  · rw [hname, hdescription]
    exact ⟨_, rfl⟩

theorem TagPolicy.exists_matchKeys : ∃ keys, policy.matchKeys tag = .ok keys := by
  obtain ⟨name, hname⟩ := Tag.exists_name typed
  obtain ⟨description, hdescription⟩ := Tag.exists_description typed
  rw [TagPolicy.matchKeys, hname, hdescription]
  dsimp only [Bind.bind, Except.bind]
  -- Each kind of key is taken or left out.
  cases policy.matchName <;> cases policy.matchLowerName <;>
    cases policy.matchLowerDescription && (Value.text description).truthy <;>
    cases policy.matchDashDescription && (Value.text description).truthy <;>
    exact ⟨_, rfl⟩

theorem TagPolicy.exists_identify :
    ∃ name description, policy.identify tag = .ok (name, .text description) := by
  obtain ⟨name, hname⟩ := Tag.exists_name typed
  obtain ⟨description, hdescription⟩ := Tag.exists_description typed
  obtain ⟨foreign, hforeign⟩ := Tag.exists_hasNonLatin name
  rw [TagPolicy.identify, hname, hdescription]
  dsimp only [Bind.bind, Except.bind]
  cases policy.swapNonLatin && (Value.text description).truthy with
  | false => exact ⟨_, _, rfl⟩
  | true =>
    rw [if_pos rfl, hforeign]
    cases foreign <;> exact ⟨_, _, rfl⟩

def TagPolicy.schemas (operations : List RawOperation) (tag : Value) : List Value :=
  if policy.isInformative tag then
    (policy.operationsOf operations tag).flatMap RawOperation.schemas
  else []

theorem ApiModule.hingesOn_ofTag {operations : List RawOperation}
    (operationsTyped : ∀ raw ∈ operations, raw.IsWellTyped) (byId : Bool) (origin : String) :
    (ApiModule.ofTag operations byId origin policy tag).HingesOn
      (policy.schemas operations tag) := by
  obtain ⟨repeats, hrepeats⟩ := TagPolicy.exists_isPlaceholder typed policy
  obtain ⟨keys, hkeys⟩ := TagPolicy.exists_matchKeys typed policy
  obtain ⟨name, description, identified⟩ := TagPolicy.exists_identify typed policy
  have informative : policy.isInformative tag = !repeats := by
    rw [TagPolicy.isInformative, hrepeats]
    cases repeats <;> rfl
  rw [TagPolicy.schemas, informative]
  unfold ApiModule.ofTag
  refine .ok_bind hrepeats ?_
  cases repeats with
  | true =>
    obtain ⟨given, hgiven, -⟩ := typed.name.field
    exact .ok_bind hgiven ((Traced.hingesOn_of_ok rfl).bind fun _ _ => Traced.hingesOn_of_ok rfl)
  | false =>
    obtain ⟨selected, hselected⟩ := Outcome.exists_filterM fun raw member =>
      RawOperation.exists_carries (operationsTyped raw member) keys
    have same : selected = policy.operationsOf operations tag := by
      rw [TagPolicy.operationsOf, hkeys]
      exact RawOperation.select_eq hselected
    have selectedTyped : ∀ raw ∈ policy.operationsOf operations tag, raw.IsWellTyped :=
      fun raw member => operationsTyped raw (List.mem_filter.mp member).1
    obtain ⟨lead, hlead⟩ := RawOperation.exists_commonLead selectedTyped
    subst same
    refine .ok_bind hkeys (.ok_bind hselected (.ok_bind hlead ?_))
    refine (Interface.hingesOn_ofOperations selectedTyped byId lead origin []).bind_ok
      fun interfaces _ => ?_
    refine Exists.imp (fun _ last => Traced.outcome_bind_eq_ok_iff.mpr ⟨_, identified, last⟩) ?_
    dsimp only
    split
    · exact ⟨none, rfl⟩
    · exact ⟨some ⟨name, description, interfaces⟩, rfl⟩

end

theorem ApiModule.hingesOn_ofTags {tags : Value} (typed : tags.IsListOf Value.IsTag)
    {operations : List RawOperation} (operationsTyped : ∀ raw ∈ operations, raw.IsWellTyped)
    (byId : Bool) (origin : String) (policy : TagPolicy) :
    ∃ members, (tags.orElse .emptyList).members = .ok members ∧
      (ApiModule.ofTags operations tags byId origin policy).HingesOn
        (members.flatMap (policy.schemas operations)) := by
  obtain ⟨members, hmembers, each⟩ :=
    (Value.IsNullOr.orElse (.inr typed) Value.isListOf_emptyList).members
  refine ⟨members, hmembers, .ok_bind hmembers ?_⟩
  exact Traced.hingesOn_collect fun tag member =>
    ApiModule.hingesOn_ofTag (each tag member) policy operationsTyped byId origin

def Settings.schemas (settings : Settings) (document : Value) : List Value :=
  let definitions := do
    ((← documentPart document "definitions" .emptyMap).orElse .emptyMap).entries
  let tags := do
    ((← documentPart document "tags" .emptyList).orElse .emptyList).members
  let operations := (documentOperations document).toOption.getD []
  (definitions.toOption.getD []).flatMap (fun entry => entry.2.fieldSchemas) ++
    (tags.toOption.getD []).flatMap (settings.policy.schemas operations)

theorem Settings.schemas_eq {settings : Settings} {document : Value}
    {operations : List RawOperation} {definitions tags : Value} {entries : List (Value × Value)}
    {members : List Value} (documented : documentOperations document = .ok operations)
    (declared : documentPart document "definitions" .emptyMap = .ok definitions)
    (hentries : (definitions.orElse .emptyMap).entries = .ok entries)
    (tagged : documentPart document "tags" .emptyList = .ok tags)
    (hmembers : (tags.orElse .emptyList).members = .ok members) :
    settings.schemas document = entries.flatMap (fun entry => entry.2.fieldSchemas) ++
      members.flatMap (settings.policy.schemas operations) := by
  have definitionRow : (do
      ((← documentPart document "definitions" .emptyMap).orElse .emptyMap).entries) =
        .ok entries :=
    Outcome.bind_eq_ok_iff.mpr ⟨definitions, declared, hentries⟩
  have tagRow : (do
      ((← documentPart document "tags" .emptyList).orElse .emptyList).members) = .ok members :=
    Outcome.bind_eq_ok_iff.mpr ⟨tags, tagged, hmembers⟩
  rw [Settings.schemas, definitionRow, tagRow, documented]
  rfl

theorem exists_documentPart {document : Value} {name : String} {shape : Value → Prop}
    (has : document.MayHave (.text name) shape) {absent : Value} (holds : shape absent) :
    ∃ part, documentPart document name absent = .ok part ∧ shape part := by
  obtain ⟨found, hfound, nullOrShape⟩ := has.field
  exact ⟨found.orElse absent, Outcome.map_eq_ok_iff.mpr ⟨found, hfound, rfl⟩,
    nullOrShape.orElse holds⟩

theorem Catalog.hingesOn_ofDocument {document : Value} (typed : document.IsWellTyped)
    (settings : Settings) :
    (Catalog.ofDocument settings document).HingesOn (settings.schemas document) := by
  obtain ⟨definitions, hdefinitions, definitionsTyped⟩ :=
    exists_documentPart typed.definitions Value.isMapOf_emptyMap
  obtain ⟨paths, hpaths, pathsTyped⟩ := exists_documentPart typed.paths Value.isMapOf_emptyMap
  obtain ⟨tags, htags, tagsTyped⟩ := exists_documentPart typed.tags Value.isListOf_emptyList
  obtain ⟨entries, hentries, classes⟩ :=
    BaseClass.hingesOn_ofDefinitions definitionsTyped settings.origin
  obtain ⟨operations, hoperations, operationsTyped⟩ := RawOperation.exists_ofPaths pathsTyped
  obtain ⟨members, hmembers, modules⟩ := ApiModule.hingesOn_ofTags tagsTyped operationsTyped
    settings.byId settings.origin settings.policy
  obtain ⟨given, hgiven, nullOrText⟩ := typed.name.field
  have documented : documentOperations document = .ok operations :=
    Outcome.bind_eq_ok_iff.mpr ⟨paths, hpaths, hoperations⟩
  have titled : Value.IsText (given.orElse (.text settings.origin)) :=
    nullOrText.orElse ⟨settings.origin, rfl⟩
  obtain ⟨name, named⟩ := titled.check
  rw [Settings.schemas_eq documented hdefinitions hentries htags hmembers]
  unfold Catalog.ofDocument
  have extracted : (documentClasses settings document).HingesOn
      (entries.flatMap fun entry => entry.2.fieldSchemas) := .ok_bind hdefinitions classes
  have grouped : (documentModules settings document operations).HingesOn
      (members.flatMap (settings.policy.schemas operations)) := .ok_bind htags modules
  refine extracted.bind fun classes _ => .ok_bind documented (grouped.bind_ok fun built _ => ?_)
  have resolved := ApiModule.outcome_resolveAll built classes settings.origin
  refine ⟨⟨name, built.map (ApiModule.pruned settings.origin (knownNames classes)), classes⟩, ?_⟩
  refine Traced.outcome_bind_eq_ok_iff.mpr ⟨_, resolved, ?_⟩
  refine Traced.outcome_bind_eq_ok_iff.mpr ⟨(), rfl, ?_⟩
  refine Traced.outcome_bind_eq_ok_iff.mpr ⟨given, hgiven, ?_⟩
  dsimp only
  rw [named]
  rfl

/-- Extraction from a well-typed document fails in one way only: it overflows exactly if a schema
that is read on the way lists a whole number beyond the range of doubles. -/
theorem Catalog.ofDocument_returns_or_overflows {document : Value} (typed : document.IsWellTyped)
    (settings : Settings) :
    ((∀ schema ∈ settings.schemas document, schema.ListsInRange) →
        ∃ c, (Catalog.ofDocument settings document).outcome = .ok c) ∧
      ((∃ schema ∈ settings.schemas document, ¬ schema.ListsInRange) →
        (Catalog.ofDocument settings document).outcome = .error .overflow) :=
  Catalog.hingesOn_ofDocument typed settings

def levelSchema (level : Nat) : Value :=
  .map [(.text "type", .text "integer"), (.text "enum", .list [.int level])]

def levelDocument (level : Nat) : Value :=
  .map [(.text "definitions", .map [(.text "Level", .map [(.text "properties", .map [
    (.text "value", levelSchema level)])])])]

theorem isWellTyped_levelDocument (level : Nat) : (levelDocument level).IsWellTyped := by
  have field : (levelSchema level).IsField :=
    { items := fun items found mapping => by
        obtain rfl := Except.ok.inj found
        exact absurd mapping Bool.false_ne_true
      listed := Value.mayHave_of_present rfl ⟨_, rfl, fun _ _ => trivial⟩
      reference := Value.mayHave_of_absent rfl
      description := Value.mayHave_of_absent rfl }
  have definition : Value.IsDefinition (.map [(.text "properties", .map [
      (.text "value", levelSchema level)])]) :=
    { description := Value.mayHave_of_absent rfl
      required := Value.mayHave_of_absent rfl
      properties := Value.mayHave_of_present rfl (Value.isMapOf_singleton ⟨_, rfl⟩ field) }
  exact
    { name := Value.mayHave_of_absent rfl
      definitions := Value.mayHave_of_present rfl
        (Value.isMapOf_singleton ⟨_, rfl⟩ (Or.inr definition))
      paths := Value.mayHave_of_absent rfl
      tags := Value.mayHave_of_absent rfl }

theorem listsInRange_levelSchema {level : Nat} :
    (levelSchema level).ListsInRange ↔ level < Number.overflowThreshold := by
  have listed : (levelSchema level).listedMembers = [.int level] := rfl
  simp [Value.ListsInRange, listed]

theorem overflow_of_levelDocument :
    (∃ c, (Catalog.ofDocument .standard (levelDocument 1)).outcome = .ok c) ∧
      (Catalog.ofDocument .standard (levelDocument (2 ^ 1024))).outcome = .error .overflow := by
  have read (level : Nat) : Settings.standard.schemas (levelDocument level) = [levelSchema level] :=
    rfl
  have small : ∀ schema ∈ Settings.standard.schemas (levelDocument 1), schema.ListsInRange := by
    rw [read, List.forall_mem_singleton, listsInRange_levelSchema]
    exact Nat.lt_of_lt_of_le (by decide) Number.le_overflowThreshold
  have large : ∃ schema ∈ Settings.standard.schemas (levelDocument (2 ^ 1024)),
      ¬ schema.ListsInRange := by
    refine ⟨levelSchema (2 ^ 1024), ?_, ?_⟩
    · rw [read]
      exact List.mem_singleton_self _
    · rw [listsInRange_levelSchema, not_lt]
      exact Number.overflowThreshold_le
  exact ⟨(Catalog.ofDocument_returns_or_overflows (isWellTyped_levelDocument 1) .standard).1 small,
    (Catalog.ofDocument_returns_or_overflows (isWellTyped_levelDocument _) .standard).2 large⟩

end ApiCatalog
