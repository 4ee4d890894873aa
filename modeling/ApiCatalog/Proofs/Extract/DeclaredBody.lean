import ApiCatalog.Proofs.Extract.BodyModel
import ApiCatalog.Proofs.Extract.ClassSelection
import ApiCatalog.Proofs.Extract.Declaration
import ApiCatalog.Proofs.Extract.Grouping
import ApiCatalog.Proofs.Extract.Resolution

/-!
Bodies whose model is a declared definition. Such a body stays if the definition has a plain name
that begins neither with the namespace nor with the origin, and goes if it has a generic name: the
class of a generic definition is known by its declaration form and by its outer name, and its body
is looked up by its use form.
-/

namespace ApiCatalog

/-- A parameter is a body whose schema refers to the definition of a key. -/
structure Value.IsBodyOf (parameter : Value) (key : String) : Prop where
  placed : parameter.givenPlace = some .body
  refers : ∃ schema, parameter.field "schema" = .ok schema ∧
    schema.field "$ref" = .ok (.text (String.ofList ("#/definitions/".toList ++ key.toList)))

theorem parameterSchema_pointsTo {parameter inner schema : Value} {target : String}
    (given : parameter.field "schema" = .ok inner)
    (refers : inner.field "$ref" = .ok (.text target))
    (returned : parameterSchema parameter = .ok schema) : schema.PointsTo target := by
  unfold parameterSchema at returned
  simp only [Outcome.bind_eq_ok_iff] at returned
  obtain ⟨found, hfound, _, -, _, -, _, -, _, -, reference, href, _, -, _, -, same⟩ := returned
  obtain rfl := Except.ok.inj (given.symm.trans hfound)
  rw [Value.orElse_emptyMap_of_isMap (Value.isMap_of_field refers), refers] at href
  obtain rfl := Except.ok.inj href
  obtain rfl := Outcome.pure_eq_ok_iff.mp same
  exact .direct rfl

/-- A parameter is a body whose schema, with the parts that the parameter has itself, refers to the
definition of a key, directly or through its items. -/
structure Value.TakesModel (parameter : Value) (key : String) : Prop where
  placed : parameter.givenPlace = some .body
  points : ∃ schema, parameterSchema parameter = .ok schema ∧
    schema.PointsTo (String.ofList ("#/definitions/".toList ++ key.toList))

theorem Value.IsBodyOf.takesModel {origin key : String} {parameter : Value} {p : Property}
    (body : parameter.IsBodyOf key) (made : Property.MadeFrom origin parameter p) :
    parameter.TakesModel key := by
  obtain ⟨schema, hschema, -⟩ := made.spec
  obtain ⟨inner, given, refers⟩ := body.refers
  exact ⟨body.placed, schema, hschema, parameterSchema_pointsTo given refers hschema⟩

theorem Property.MadeFrom.reference {origin key : String} {parameter : Value} {p : Property}
    (made : Property.MadeFrom origin parameter p) (takes : parameter.TakesModel key) :
    p.location = some .body ∧ p.dataType.reference = String.ofList
      (resolveReference [] origin.toList true (Generic.definitionsLead ++ key.toList)) := by
  obtain ⟨schema, hschema, located, -, typed⟩ := made.spec
  obtain ⟨known, hknown, points⟩ := takes.points
  obtain rfl := Except.ok.inj (hschema.symm.trans hknown)
  have place := located.trans takes.placed
  rw [place] at typed
  obtain ⟨⟨raw, refersBy, referenced⟩, -⟩ := DataType.of_ofSchema typed
  obtain rfl := points.eq_of_refersBy (by simp) refersBy
  simp only [String.toList_ofList, beq_self_eq_true] at referenced
  exact ⟨place, referenced⟩

theorem unqualify_resolveReference {origin raw : List Char}
    (given : resolveReference [] origin true raw ≠ []) :
    Generic.unqualify origin (resolveReference [] origin true raw) =
      Generic.bodyModel origin (Generic.useName origin raw) := by
  obtain ⟨filled, notPlaceholder⟩ := not_or.mp (mt resolveReference_eq_nil_iff.mpr given)
  have foreign : (!origin.isEmpty && !Text.occursIn origin (Generic.useName origin raw)) = true ↔
      origin ≠ [] ∧ Text.occursIn origin (Generic.useName origin raw) = false := by
    simp
  rw [resolveReference_eq filled notPlaceholder, if_neg filled, Generic.bodyModel]
  simp only [foreign]
  split
  · rw [Generic.unqualify_qualify]
  · split
    · rename_i bare
      have notLead : ¬ Generic.namespaceLead <+: Generic.useName origin raw := by
        simpa [Generic.isQualified, ← Bool.not_eq_true] using bare
      rw [Text.dropStart?_eq_none notLead, Option.getD_none]
      exact Generic.unqualify_lead origin _
    · rename_i qualified
      obtain ⟨rest, same⟩ : Generic.namespaceLead <+: Generic.useName origin raw := by
        simpa [Generic.isQualified] using qualified
      rw [← same, Text.dropStart?_append, Option.getD_some, Generic.unqualify_lead]

def lookedUpModel (origin key : String) : String :=
  String.ofList (Generic.bodyModel origin.toList
    (Generic.useName origin.toList ("#/definitions/".toList ++ key.toList)))

theorem Property.isResolvable_of_takesModel {origin key : String} {parameter : Value}
    {p : Property} (made : Property.MadeFrom origin parameter p) (takes : parameter.TakesModel key)
    (known : List String) :
    p.isResolvable origin known = true ↔
      key = "" ∨ key = "Model" ∨ lookedUpModel origin key ∈ known := by
  obtain ⟨located, referenced⟩ := made.reference takes
  have empty : p.dataType.reference = "" ↔ key = "" ∨ key = "Model" := by
    rw [referenced, String.ofList_eq_empty_iff, resolveReference_definition_eq_nil_iff,
      ← String.toList_inj, ← String.toList_inj]
    rfl
  rw [Property.isResolvable_iff, ← or_assoc, ← empty]
  constructor
  · intro resolves
    by_cases nothing : p.dataType.reference = ""
    · exact Or.inl nothing
    · have found := resolves located nothing
      rw [referenced, String.ofList_eq_empty_iff] at nothing
      rw [referenced, modelName, String.toList_ofList, unqualify_resolveReference nothing] at found
      exact Or.inr found
  · rintro (nothing | found) - given
    · exact absurd nothing given
    · rw [referenced, Ne, String.ofList_eq_empty_iff] at given
      rw [referenced, modelName, String.toList_ofList, unqualify_resolveReference given]
      exact found

theorem Property.isResolvable_of_isBodyOf {origin key : String} {parameter : Value} {p : Property}
    (made : Property.MadeFrom origin parameter p) (body : parameter.IsBodyOf key)
    (known : List String) :
    p.isResolvable origin known = true ↔
      key = "" ∨ key = "Model" ∨ lookedUpModel origin key ∈ known :=
  Property.isResolvable_of_takesModel made (body.takesModel made) known

section
variable {definitions : Value} {origin : String} {classes : List BaseClass}

theorem justName_mem_knownNames
    (extracted : (BaseClass.ofDefinitions definitions origin).outcome = .ok classes) {key : String}
    {definition : Value} (declared : definitions.Declares key definition) :
    justName (String.ofList (Generic.declarationName key.toList)) ∈ knownNames classes := by
  obtain ⟨entries, hentries, member⟩ := declared
  obtain ⟨known, built, hknown, each, sorted⟩ := BaseClass.of_ofDefinitions extracted
  obtain rfl := Except.ok.inj (hentries.symm.trans hknown)
  obtain ⟨base, inside, returned⟩ := forall₂_exists_right each member
  obtain ⟨name, _, _, hname, named, -⟩ := BaseClass.of_ofDefinition returned
  obtain rfl := Except.ok.inj hname
  obtain ⟨kept, memberK, same⟩ := BaseClass.exists_of_sortUnique sorted inside
  exact mem_knownNames.mpr ⟨kept, memberK, Or.inr (by rw [same, BaseClass.justName, named])⟩

theorem exists_of_mem_knownNames
    (extracted : (BaseClass.ofDefinitions definitions origin).outcome = .ok classes) {name : String}
    (known : name ∈ knownNames classes) :
    ∃ key definition, definitions.Declares key definition ∧
      (name = String.ofList (Generic.declarationName key.toList) ∨
        name = justName (String.ofList (Generic.declarationName key.toList))) := by
  obtain ⟨entries, built, hentries, each, sorted⟩ := BaseClass.of_ofDefinitions extracted
  obtain ⟨base, member, same⟩ := mem_knownNames.mp known
  obtain ⟨⟨key, definition⟩, inside, returned⟩ := forall₂_exists_left each
    (BaseClass.mem_of_sortUnique sorted base member)
  obtain ⟨name, _, _, hname, named, -⟩ := BaseClass.of_ofDefinition returned
  have isText : key = .text name := by
    cases key <;> simp_all [Value.asText]
  subst isText
  refine ⟨name, definition, ⟨entries, hentries, inside⟩, ?_⟩
  rw [← named]
  exact same.imp Eq.symm Eq.symm

/-- Names that neither a reference nor a namespace nor type parameters take apart. -/
structure IsBareKey (origin key : List Char) : Prop where
  plain : Generic.split key = none
  bracketless : '<' ∉ key
  leadless : ¬ Generic.definitionsLead <+: key
  namespaceless : ¬ Generic.namespaceLead <+: key
  originless : origin ≠ [] → ¬ (origin ++ ['.']) <+: key

theorem lookedUpModel_mem_of_isBareKey
    (extracted : (BaseClass.ofDefinitions definitions origin).outcome = .ok classes) {key : String}
    {definition : Value} (declared : definitions.Declares key definition)
    (bare : IsBareKey origin.toList key.toList) :
    lookedUpModel origin key ∈ knownNames classes := by
  have lookedUp : lookedUpModel origin key = key := by
    have used := Generic.useName_reference_of_plain bare.plain origin.toList
    calc
      lookedUpModel origin key
          = String.ofList (Generic.bodyModel origin.toList key.toList) :=
            congrArg (fun name => String.ofList (Generic.bodyModel origin.toList name)) used
      _ = key := by
        rw [Generic.bodyModel_eq_self bare.namespaceless bare.originless, String.ofList_toList]
  have declaredAs : Generic.declarationName key.toList = key.toList := by
    rw [Generic.declarationName, Generic.definitionName_eq_self bare.leadless,
      Generic.parts_eq_none_iff.mpr bare.plain]
  have known := justName_mem_knownNames extracted declared
  rw [declaredAs, justName, String.toList_ofList, Text.before_eq_self bare.bracketless,
    String.ofList_toList] at known
  rwa [lookedUp]

theorem lookedUpModel_not_mem_of_split
    (extracted : (BaseClass.ofDefinitions definitions origin).outcome = .ok classes) {key : String}
    {definition : Value} (declared : definitions.Declares key definition)
    (parted : (Generic.split key.toList).isSome = true) (inOrigin : '<' ∉ origin.toList)
    (bracketless : ∀ other found, definitions.Declares other found → '<' ∉ other.toList) :
    lookedUpModel origin key ∉ knownNames classes := by
  obtain ⟨⟨outer, payload⟩, hsplit⟩ := Option.isSome_iff_exists.mp parted
  obtain ⟨front, back, inFront, contents, lookedUp⟩ :=
    Generic.bodyModel_of_split inOrigin (bracketless key definition declared) hsplit
  have looked : (lookedUpModel origin key).toList = front ++ '<' :: back := by
    rw [lookedUpModel, String.toList_ofList]
    exact lookedUp
  intro known
  obtain ⟨other, found, declaredToo, named | named⟩ := exists_of_mem_knownNames extracted known
  · rw [named, String.toList_ofList] at looked
    exact Generic.declarationName_ne (bracketless other found declaredToo) inFront contents looked
  · rw [named, justName, String.toList_ofList] at looked
    exact Text.not_mem_before '<' _ (looked ▸ List.mem_append_right _ List.mem_cons_self)

end

/-- A body of a declared model stays in its interface exactly if a class is known by the name that
its use form leaves. All bare keys leave one; without brackets in the document, no generic key
does. -/
theorem mem_parameters_of_isBodyOf_iff {settings : Settings}
    {document definitions definition : Value} {c : Catalog}
    (returned : (Catalog.ofDocument settings document).outcome = .ok c)
    (defined : documentPart document "definitions" .emptyMap = .ok definitions)
    {operations : List RawOperation} (found : documentOperations document = .ok operations)
    {grouped : List ApiModule}
    (grouping : (documentModules settings document operations).outcome = .ok grouped)
    {key : String} (declared : definitions.Declares key definition)
    {j k : Nat} {m : ApiModule} {i : Interface} {p : Property} {parameter : Value}
    (atModule : grouped[j]? = some m) (atInterface : m.interfaces[k]? = some i)
    (member : p ∈ i.parameters) (made : Property.MadeFrom settings.origin parameter p)
    (body : parameter.IsBodyOf key) :
    ∃ m' i', c.modules[j]? = some m' ∧ m'.interfaces[k]? = some i' ∧
      i' = { i with parameters := i'.parameters } ∧
      (p ∈ i'.parameters ↔ key = "" ∨ key = "Model" ∨ ∃ base ∈ c.baseClasses,
        base.name = lookedUpModel settings.origin key ∨
          base.justName = lookedUpModel settings.origin key) ∧
      (IsBareKey settings.origin.toList key.toList → p ∈ i'.parameters) ∧
      ((Generic.split key.toList).isSome = true → '<' ∉ settings.origin.toList →
        (∀ other found, definitions.Declares other found → '<' ∉ other.toList) →
        p ∉ i'.parameters) := by
  obtain ⟨operations', grouped', hclasses, hoperations, hgrouped, resolved⟩ :=
    Catalog.of_ofDocument returned
  obtain rfl := Except.ok.inj (found.symm.trans hoperations)
  obtain rfl := Except.ok.inj (grouping.symm.trans hgrouped)
  obtain ⟨definitions', hdefinitions, extracted⟩ := BaseClass.of_documentClasses hclasses
  obtain rfl := Except.ok.inj (defined.symm.trans hdefinitions)
  have kept : p ∈ (i.pruned settings.origin (knownNames c.baseClasses)).parameters ↔
      key = "" ∨ key = "Model" ∨
        lookedUpModel settings.origin key ∈ knownNames c.baseClasses := by
    rw [← Property.isResolvable_of_isBodyOf made body, Interface.pruned, List.mem_filter]
    exact ⟨And.right, fun resolvable => ⟨member, resolvable⟩⟩
  refine ⟨m.pruned settings.origin (knownNames c.baseClasses),
    i.pruned settings.origin (knownNames c.baseClasses), ?_, ?_, rfl, ?_, ?_, ?_⟩
  · rw [resolved, List.getElem?_map, atModule]
    rfl
  · rw [ApiModule.pruned, List.getElem?_map, atInterface]
    rfl
  · rw [kept, mem_knownNames]
  · intro bare
    exact kept.mpr (Or.inr (Or.inr (lookedUpModel_mem_of_isBareKey extracted declared bare)))
  · intro parted inOrigin bracketless stays
    rcases kept.mp stays with rfl | rfl | known
    · exact absurd parted (by decide)
    · exact absurd parted (by decide)
    · exact lookedUpModel_not_mem_of_split extracted declared parted inOrigin bracketless known

def resultOfUser : Value :=
  .map [(.text "name", .text "b"), (.text "in", .text "body"),
    (.text "schema", .map [(.text "$ref", .text "#/definitions/Result«User»")])]

def userDocument : Value :=
  .map [(.text "tags", .list [
      .map [(.text "name", .text "user"), (.text "description", .text "d")]]),
    (.text "definitions", .map [(.text "Result«User»", .map [])]),
    (.text "paths", .map [(.text "/a", .map [(.text "post", .map [
      (.text "tags", .list [.text "user"]), (.text "parameters", .list [resultOfUser])])])])]

theorem resultOfUser_dropped :
    ∃ c m i p, (Catalog.ofDocument .standard userDocument).outcome = .ok c ∧
      "Result" ∈ c.baseClasses.map BaseClass.justName ∧
      c.modules[0]? = some m ∧ m.interfaces[0]? = some i ∧
      Property.MadeFrom "" resultOfUser p ∧ p ∉ i.parameters := by
  let p : Property := ⟨"b", "", false, ⟨false, .empty, "defs.Result<defs.User>", none⟩, some .body⟩
  let i : Interface := ⟨"postA", "", "post", "/a", [], ⟨false, .empty, "", none⟩, [p]⟩
  have returned : (Catalog.ofDocument .standard userDocument).outcome = .ok ⟨"",
      [⟨"user", "d", [{ i with parameters := [] }]⟩], [⟨"Result<T0>", "", []⟩]⟩ :=
    Outcome.eq_ok_of_toOption (by decide +kernel)
  have grouping : (do
      let operations ← documentOperations userDocument
      (documentModules .standard userDocument operations).outcome) = .ok [⟨"user", "d", [i]⟩] :=
    Outcome.eq_ok_of_toOption (by decide +kernel)
  obtain ⟨operations, found, grouped⟩ := Outcome.bind_eq_ok_iff.mp grouping
  have made : Property.MadeFrom "" resultOfUser p :=
    ⟨.body, rfl, Outcome.eq_ok_of_toOption (by decide +kernel)⟩
  have body : resultOfUser.IsBodyOf "Result«User»" := ⟨rfl, _, rfl, rfl⟩
  obtain ⟨m', i', atModule, atInterface, -, -, -, dropped⟩ :=
    mem_parameters_of_isBodyOf_iff (j := 0) (k := 0) returned rfl found grouped
      ⟨_, rfl, List.mem_singleton_self _⟩ rfl rfl (List.mem_singleton_self p) made body
  refine ⟨_, m', i', p, returned, by decide, atModule, atInterface, made, ?_⟩
  refine dropped (by decide) (by decide) ?_
  rintro other found ⟨entries, hentries, member⟩
  obtain rfl := Except.ok.inj hentries
  obtain ⟨same, -⟩ := Prod.mk.inj (List.mem_singleton.mp member)
  obtain rfl := Value.text.inj same
  decide

end ApiCatalog
