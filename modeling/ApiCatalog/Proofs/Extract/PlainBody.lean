import ApiCatalog.Proofs.Extract.DeclaredBody

/-!
Bodies whose model has a plain name. Without brackets in the names of the document, the known names
that have no brackets are the outer names of its definitions, and such a body stays in its interface
exactly if its model is one of them.
-/

namespace ApiCatalog

def Generic.outerName (key : List Char) : List Char :=
  match split key with
  | some (outer, _) => outer
  | none => key

theorem Generic.before_declarationName {key : List Char} (bracketless : '<' ∉ key)
    (leadless : ¬ definitionsLead <+: key) :
    Text.before '<' (declarationName key) = outerName key := by
  rw [declarationName, definitionName_eq_self leadless]
  cases parted : split key with
  | none =>
    rw [parts_eq_none_iff.mpr parted, outerName, parted]
    exact Text.before_eq_self bracketless
  | some found =>
    obtain ⟨outer, payload⟩ := found
    obtain ⟨-, -, rfl, isListed⟩ := split_eq_some_iff.mp parted
    obtain ⟨arguments, listed⟩ := Option.isSome_iff_exists.mp isListed
    have inOuter : '<' ∉ outer := fun member => bracketless (List.mem_append_left _ member)
    rw [parts_eq_some_iff.mpr ⟨payload, parted, listed⟩, outerName, parted]
    exact Text.before_append inOuter _

section
variable {definitions : Value} {origin : String} {classes : List BaseClass}

theorem mem_knownNames_iff_declared
    (extracted : (BaseClass.ofDefinitions definitions origin).outcome = .ok classes)
    (bracketless : ∀ key definition, definitions.Declares key definition → '<' ∉ key.toList)
    (leadless : ∀ key definition, definitions.Declares key definition →
      ¬ Generic.definitionsLead <+: key.toList)
    {name : String} (plain : '<' ∉ name.toList) :
    name ∈ knownNames classes ↔ ∃ key definition, definitions.Declares key definition ∧
      Generic.outerName key.toList = name.toList := by
  constructor
  · intro known
    obtain ⟨key, definition, declared, named⟩ := exists_of_mem_knownNames extracted known
    refine ⟨key, definition, declared, ?_⟩
    rw [← Generic.before_declarationName (bracketless key definition declared)
      (leadless key definition declared)]
    rcases named with rfl | rfl
    · rw [String.toList_ofList] at plain ⊢
      exact Text.before_eq_self plain
    · rw [justName, String.toList_ofList, String.toList_ofList]
  · rintro ⟨key, definition, declared, named⟩
    have known := justName_mem_knownNames extracted declared
    rwa [justName, String.toList_ofList, Generic.before_declarationName
      (bracketless key definition declared) (leadless key definition declared), named,
      String.ofList_toList] at known

end

/-- Names that refer to a model as they stand. -/
structure IsPlainModel (origin name : List Char) : Prop where
  filled : name ≠ []
  notPlaceholder : name ≠ placeholderModel
  plain : Generic.split name = none
  bracketless : '<' ∉ name
  namespaceless : ¬ Generic.namespaceLead <+: name
  originless : origin ≠ [] → ¬ (origin ++ ['.']) <+: name

theorem lookedUpModel_of_isPlainModel {origin name : String}
    (model : IsPlainModel origin.toList name.toList) : lookedUpModel origin name = name := by
  have used : Generic.useName origin.toList ("#/definitions/".toList ++ name.toList) =
      name.toList := Generic.useName_reference_of_plain model.plain origin.toList
  rw [lookedUpModel, used, Generic.bodyModel_eq_self model.namespaceless model.originless,
    String.ofList_toList]

theorem Property.isResolvable_of_isPlainModel {origin name : String} {parameter : Value}
    {p : Property} (made : Property.MadeFrom origin parameter p)
    (takes : parameter.TakesModel name) (model : IsPlainModel origin.toList name.toList)
    (known : List String) : p.isResolvable origin known = true ↔ name ∈ known := by
  have filled : name ≠ "" := by
    rintro rfl
    exact model.filled rfl
  have notPlaceholder : name ≠ "Model" := by
    rintro rfl
    exact model.notPlaceholder rfl
  rw [Property.isResolvable_of_takesModel made takes, lookedUpModel_of_isPlainModel model]
  simp only [filled, notPlaceholder, false_or]

/-- A body that refers to a plain name stays in its interface exactly if the name is the outer name
of some definition. The origin may occur in the name, so long as the name does not begin with it. -/
theorem mem_parameters_iff_outerName {settings : Settings} {document definitions : Value}
    {c : Catalog} (returned : (Catalog.ofDocument settings document).outcome = .ok c)
    (defined : documentPart document "definitions" .emptyMap = .ok definitions)
    (bracketless : ∀ key definition, definitions.Declares key definition → '<' ∉ key.toList)
    (leadless : ∀ key definition, definitions.Declares key definition →
      ¬ "#/definitions/".toList <+: key.toList)
    {operations : List RawOperation} (found : documentOperations document = .ok operations)
    {grouped : List ApiModule}
    (grouping : (documentModules settings document operations).outcome = .ok grouped)
    {name : String} (model : IsPlainModel settings.origin.toList name.toList)
    {j k : Nat} {m : ApiModule} {i : Interface} {p : Property} {parameter : Value}
    (atModule : grouped[j]? = some m) (atInterface : m.interfaces[k]? = some i)
    (member : p ∈ i.parameters) (made : Property.MadeFrom settings.origin parameter p)
    (takes : parameter.TakesModel name) :
    ∃ m' i', c.modules[j]? = some m' ∧ m'.interfaces[k]? = some i' ∧
      i' = { i with parameters := i'.parameters } ∧
      (p ∈ i'.parameters ↔ ∃ key definition, definitions.Declares key definition ∧
        Generic.outerName key.toList = name.toList) := by
  obtain ⟨operations', grouped', hclasses, hoperations, hgrouped, resolved⟩ :=
    Catalog.of_ofDocument returned
  obtain rfl := Except.ok.inj (found.symm.trans hoperations)
  obtain rfl := Except.ok.inj (grouping.symm.trans hgrouped)
  obtain ⟨definitions', hdefinitions, extracted⟩ := BaseClass.of_documentClasses hclasses
  obtain rfl := Except.ok.inj (defined.symm.trans hdefinitions)
  refine ⟨m.pruned settings.origin (knownNames c.baseClasses),
    i.pruned settings.origin (knownNames c.baseClasses), ?_, ?_, rfl, ?_⟩
  · rw [resolved, List.getElem?_map, atModule]
    rfl
  · rw [ApiModule.pruned, List.getElem?_map, atInterface]
    rfl
  · rw [← mem_knownNames_iff_declared extracted bracketless leadless model.bracketless,
      ← Property.isResolvable_of_isPlainModel made takes model, Interface.pruned, List.mem_filter]
    exact ⟨And.right, fun resolvable => ⟨member, resolvable⟩⟩

def bodyOf (name model : String) : Value :=
  .map [(.text "name", .text name), (.text "in", .text "body"),
    (.text "schema", .map [(.text "$ref", .text ("#/definitions/" ++ model))])]

def pageDocument : Value :=
  .map [(.text "tags", .list [
      .map [(.text "name", .text "user"), (.text "description", .text "d")]]),
    (.text "definitions", .map [(.text "Page«User»", .map [])]),
    (.text "paths", .map [(.text "/a", .map [(.text "post", .map [
      (.text "tags", .list [.text "user"]),
      (.text "parameters", .list [bodyOf "a" "Page", bodyOf "b" "Stage"])])])])]

theorem parameters_of_pageDocument :
    ∃ c m i p q, (Catalog.ofDocument ⟨true, "age", .standard⟩ pageDocument).outcome = .ok c ∧
      c.modules[0]? = some m ∧ m.interfaces[0]? = some i ∧
      Property.MadeFrom "age" (bodyOf "a" "Page") p ∧ p ∈ i.parameters ∧
      Property.MadeFrom "age" (bodyOf "b" "Stage") q ∧ q ∉ i.parameters := by
  let p : Property := ⟨"a", "", false, ⟨false, .empty, "defs.Page", none⟩, some .body⟩
  let q : Property := ⟨"b", "", false, ⟨false, .empty, "defs.Stage", none⟩, some .body⟩
  let i : Interface := ⟨"postA", "", "post", "/a", [], ⟨false, .empty, "", none⟩, [p, q]⟩
  have returned : (Catalog.ofDocument ⟨true, "age", .standard⟩ pageDocument).outcome = .ok ⟨"age",
      [⟨"user", "d", [{ i with parameters := [p] }]⟩], [⟨"Page<T0>", "", []⟩]⟩ :=
    Outcome.eq_ok_of_toOption (by decide +kernel)
  have grouping : (do
      let operations ← documentOperations pageDocument
      (documentModules ⟨true, "age", .standard⟩ pageDocument operations).outcome) =
        .ok [⟨"user", "d", [i]⟩] :=
    Outcome.eq_ok_of_toOption (by decide +kernel)
  obtain ⟨operations, found, grouped⟩ := Outcome.bind_eq_ok_iff.mp grouping
  have declared : ∀ key definition, Value.Declares (.map [(.text "Page«User»", .map [])]) key
      definition → key = "Page«User»" := by
    rintro key definition ⟨entries, hentries, member⟩
    obtain rfl := Except.ok.inj hentries
    exact Value.text.inj (Prod.mk.inj (List.mem_singleton.mp member)).1
  have bracketless : ∀ key definition, Value.Declares (.map [(.text "Page«User»", .map [])]) key
      definition → '<' ∉ key.toList := by
    intro key definition given
    rw [declared key definition given]
    decide
  have leadless : ∀ key definition, Value.Declares (.map [(.text "Page«User»", .map [])]) key
      definition → ¬ "#/definitions/".toList <+: key.toList := by
    intro key definition given
    rw [declared key definition given]
    decide
  have madeP : Property.MadeFrom "age" (bodyOf "a" "Page") p :=
    ⟨.body, rfl, Outcome.eq_ok_of_toOption (by decide +kernel)⟩
  have madeQ : Property.MadeFrom "age" (bodyOf "b" "Stage") q :=
    ⟨.body, rfl, Outcome.eq_ok_of_toOption (by decide +kernel)⟩
  have page : IsPlainModel "age".toList "Page".toList :=
    ⟨by decide, by decide, by decide, by decide, by decide, by decide⟩
  have stage : IsPlainModel "age".toList "Stage".toList :=
    ⟨by decide, by decide, by decide, by decide, by decide, by decide⟩
  obtain ⟨m', i', atModule, atInterface, -, kept⟩ :=
    mem_parameters_iff_outerName (j := 0) (k := 0) returned rfl bracketless leadless found grouped
      page rfl rfl (List.mem_cons_self) madeP ⟨rfl, _, rfl, .direct rfl⟩
  obtain ⟨m'', i'', atModule', atInterface', -, dropped⟩ :=
    mem_parameters_iff_outerName (j := 0) (k := 0) returned rfl bracketless leadless found grouped
      stage rfl rfl (List.mem_cons_of_mem p List.mem_cons_self) madeQ ⟨rfl, _, rfl, .direct rfl⟩
  obtain rfl := Option.some.inj (atModule.symm.trans atModule')
  obtain rfl := Option.some.inj (atInterface.symm.trans atInterface')
  refine ⟨_, m', i', p, q, returned, atModule, atInterface, madeP, ?_, madeQ, ?_⟩
  · exact kept.mpr ⟨"Page«User»", .map [], ⟨_, rfl, List.mem_singleton_self _⟩, by decide⟩
  · intro stays
    obtain ⟨key, definition, given, named⟩ := dropped.mp stays
    rw [declared key definition given] at named
    exact absurd named (by decide)

end ApiCatalog
