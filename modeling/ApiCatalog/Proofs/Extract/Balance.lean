import ApiCatalog.Proofs.Extract.ClassSelection
import ApiCatalog.Proofs.Extract.Omission
import ApiCatalog.Proofs.Extract.Resolution
import ApiCatalog.Proofs.Extract.TagModule

/-!
What goes into a stage comes out of it or is remarked on as left out, once each.
-/

namespace ApiCatalog

theorem DataType.omitsOnly_ofSchema (schema : Value) (self origin : String) (always : Bool) :
    (DataType.ofSchema schema self origin always).OmitsOnly [] := by
  have known (name : String) : (knownPrimitive name).OmitsOnly [] := by
    unfold knownPrimitive
    split
    · exact Traced.omitsOnly_pure _
    · exact Traced.omitsOnly_remark (by simp [Remark.omission?])
  unfold DataType.ofSchema
  refine (Traced.omitsOnly_lift _).bind fun outer => ?_
  refine (Traced.omitsOnly_lift _).bind fun found => ?_
  refine (Traced.omitsOnly_lift _).bind fun inner => ?_
  refine (Traced.omitsOnly_lift _).bind fun direct => ?_
  refine (Traced.omitsOnly_lift _).bind fun ofItems => ?_
  refine (Traced.omitsOnly_lift _).bind fun raw => ?_
  have rest (primitive : Primitive) (reference : String) :
      (do
        let listed ← schema.field "enum"
        let members ← EnumMember.ofListed listed
        return ⟨outer == "array", primitive, reference, members⟩ :
          Traced DataType).OmitsOnly [] :=
    (Traced.omitsOnly_lift _).bind fun _ => (Traced.omitsOnly_lift _).bind fun _ =>
      Traced.omitsOnly_pure _
  exact .ite ((known _).bind fun primitive => rest primitive _)
    ((Traced.omitsOnly_pure _).bind fun primitive => rest primitive _)

theorem Property.omitsOnly_ofParameter (origin : String) (name : Value) (location : Location)
    (parameter : Value) :
    (Property.ofParameter origin name location parameter).OmitsOnly [] := by
  unfold Property.ofParameter
  refine (Traced.omitsOnly_lift _).bind fun schema => ?_
  refine (Traced.omitsOnly_lift _).bind fun found => ?_
  refine (Traced.omitsOnly_lift _).bind fun required => ?_
  refine (DataType.omitsOnly_ofSchema _ _ _ _).bind fun dataType => ?_
  exact Traced.omitsOnly_lift _

theorem Property.omitsOnly_ofParameters (origin : String) (seen listed : List Value) :
    (Property.ofParameters origin seen listed).OmitsOnly
      [.placelessParameter, .duplicateParameter] := by
  induction listed generalizing seen with
  | nil => exact Traced.omitsOnly_pure []
  | cons parameter rest ih =>
    rw [Property.ofParameters]
    refine (Traced.omitsOnly_lift _).bind fun name => ?_
    refine (Traced.omitsOnly_lift _).bind fun place => ?_
    split
    · exact (Traced.omitsOnly_remark (by simp [Remark.omission?])).bind fun _ => ih seen
    · refine .ite (Traced.omitsOnly_lift (.error _)) (.ite ?_ ?_)
      · exact (Traced.omitsOnly_remark (by simp [Remark.omission?])).bind fun _ => ih seen
      · exact ((Property.omitsOnly_ofParameter origin name _ parameter).mono
          (List.nil_subset _)).bind fun property => (ih _).bind fun more => Traced.omitsOnly_pure _

theorem Property.Walks.length_eq {origin : String} {seen listed : List Value}
    {parameters : List Property} {remarks : List Remark}
    (walks : Property.Walks origin seen listed parameters remarks) :
    listed.length = parameters.length + remarks.countP (Remark.reports .placelessParameter) +
      remarks.countP (Remark.reports .duplicateParameter) := by
  induction walks with
  | nil => rfl
  | placeless unknown _ ih =>
    rw [Remark.countP_reports_cons, Remark.countP_reports_cons, List.length_cons, ih]
    simp only [Remark.omission?, reduceCtorEq, if_true, if_false, Option.some.injEq]
    omega
  | duplicate known already _ ih =>
    rw [Remark.countP_reports_cons, Remark.countP_reports_cons, List.length_cons, ih]
    simp only [Remark.omission?, reduceCtorEq, if_true, if_false, Option.some.injEq]
    omega
  | @kept _ _ parameter location _ _ _ known fresh made _ ih =>
    have quiet (omission : Omission) :=
      (Property.omitsOnly_ofParameter origin parameter.givenName location parameter).omitted_eq_zero
        (List.not_mem_nil (a := omission))
    unfold Traced.omitted at quiet
    rw [List.countP_append, List.countP_append, quiet, quiet, List.length_cons, List.length_cons, ih]
    omega

theorem Property.length_of_ofParameters {origin : String} {seen listed : List Value}
    {parameters : List Property}
    (returned : (Property.ofParameters origin seen listed).outcome = .ok parameters) :
    listed.length = parameters.length +
      (Property.ofParameters origin seen listed).omitted .placelessParameter +
      (Property.ofParameters origin seen listed).omitted .duplicateParameter :=
  (Property.walks_of_ofParameters returned).length_eq

theorem Interface.omitsOnly_ofOperation (raw : RawOperation) (byId : Bool) (lead origin : String) :
    (Interface.ofOperation raw byId lead origin).OmitsOnly
      [.placelessParameter, .duplicateParameter] := by
  unfold Interface.ofOperation
  refine (Traced.omitsOnly_lift _).bind fun name => ?_
  refine (Traced.omitsOnly_lift _).bind fun schema => ?_
  refine ((DataType.omitsOnly_ofSchema _ _ _ _).mono (List.nil_subset _)).bind fun response => ?_
  refine (Traced.omitsOnly_lift _).bind fun description => ?_
  refine (Traced.omitsOnly_lift _).bind fun consumes => ?_
  refine (Traced.omitsOnly_lift _).bind fun found => ?_
  refine (Traced.omitsOnly_lift _).bind fun listed => ?_
  refine (Property.omitsOnly_ofParameters _ _ _).bind fun parameters => ?_
  exact Traced.omitsOnly_lift _

def Interface.parameterTotal (interfaces : List Interface) : Nat :=
  (interfaces.map fun i => i.parameters.length).sum

theorem Interface.parameterTotal_cons (i : Interface) (rest : List Interface) :
    parameterTotal (i :: rest) = i.parameters.length + parameterTotal rest := by
  rw [parameterTotal, List.map_cons, List.sum_cons, parameterTotal]

def RawOperation.parameterCount (raw : RawOperation) : Nat :=
  (raw.listed.toOption.getD []).length

theorem Interface.parameterCount_of_ofOperation {raw : RawOperation} {byId : Bool}
    {lead origin : String} {i : Interface}
    (returned : (Interface.ofOperation raw byId lead origin).outcome = .ok i) :
    raw.parameterCount = i.parameters.length +
      (Interface.ofOperation raw byId lead origin).omitted .placelessParameter +
      (Interface.ofOperation raw byId lead origin).omitted .duplicateParameter := by
  obtain ⟨schema, listed, made⟩ := Interface.madeFrom_of_ofOperation returned
  have balance := Property.length_of_ofParameters made.parameters
  have quiet (omission : Omission) :=
    (DataType.omitsOnly_ofSchema schema "" origin true).omitted_eq_zero
      (List.not_mem_nil (a := omission))
  unfold Traced.omitted at quiet balance ⊢
  rw [RawOperation.parameterCount, made.given, made.remarks, List.countP_append,
    List.countP_append, quiet, quiet, Nat.zero_add, Nat.zero_add]
  exact balance

theorem Interface.omitsOnly_ofOperations (byId : Bool) (lead origin : String) (seen : List String)
    (operations : List RawOperation) :
    (Interface.ofOperations byId lead origin seen operations).OmitsOnly
      [.duplicateInterface, .placelessParameter, .duplicateParameter] := by
  induction operations generalizing seen with
  | nil => exact Traced.omitsOnly_pure []
  | cons raw rest ih =>
    rw [Interface.ofOperations]
    refine ((Interface.omitsOnly_ofOperation raw byId lead origin).mono
      (List.subset_cons_self _ _)).bind fun i => .ite ?_ ?_
    · exact (Traced.omitsOnly_remark (by simp [Remark.omission?])).bind fun _ => ih seen
    · exact (ih _).bind fun more => Traced.omitsOnly_pure _

theorem Interface.length_of_ofOperations {byId : Bool} {lead origin : String} {seen : List String}
    {operations : List RawOperation} {interfaces : List Interface}
    (returned : (Interface.ofOperations byId lead origin seen operations).outcome =
      .ok interfaces) :
    operations.length = interfaces.length +
        (Interface.ofOperations byId lead origin seen operations).omitted .duplicateInterface ∧
      ∃ every, List.Forall₂
          (fun raw i => (Interface.ofOperation raw byId lead origin).outcome = .ok i)
          operations every ∧
        (operations.map RawOperation.parameterCount).sum =
          Interface.parameterTotal every +
            (Interface.ofOperations byId lead origin seen operations).omitted .placelessParameter +
            (Interface.ofOperations byId lead origin seen operations).omitted
              .duplicateParameter := by
  induction operations generalizing seen interfaces with
  | nil =>
    obtain rfl := Except.ok.inj returned
    exact ⟨rfl, [], .nil, rfl⟩
  | cons raw rest ih =>
    rw [Interface.ofOperations] at returned ⊢
    obtain ⟨first, made, returned⟩ := Traced.outcome_bind_eq_ok_iff.mp returned
    have parameters := Interface.parameterCount_of_ofOperation made
    have quiet : (Interface.ofOperation raw byId lead origin).omitted .duplicateInterface = 0 :=
      (Interface.omitsOnly_ofOperation raw byId lead origin).omitted_eq_zero (by decide)
    simp only [Traced.omitted_bind made, quiet, List.map_cons, List.sum_cons, List.length_cons]
    split at returned
    · rename_i already
      obtain ⟨_, remarked, returned⟩ := Traced.outcome_bind_eq_ok_iff.mp returned
      obtain ⟨interfaceBalance, every, each, parameterBalance⟩ := ih returned
      simp only [if_pos already, Traced.omitted_bind remarked]
      rw [Traced.omitted_remark rfl, Traced.omitted_remark_eq_zero (by simp [Remark.omission?]),
        Traced.omitted_remark_eq_zero (by simp [Remark.omission?])]
      refine ⟨by omega, first :: every, .cons made each, ?_⟩
      rw [Interface.parameterTotal_cons]
      omega
    · rename_i fresh
      obtain ⟨more, hmore, same⟩ := Traced.outcome_bind_eq_ok_iff.mp returned
      obtain rfl := Except.ok.inj same
      obtain ⟨interfaceBalance, every, each, parameterBalance⟩ := ih hmore
      simp only [if_neg fresh, Traced.omitted_bind hmore, Traced.omitted_pure, List.length_cons]
      refine ⟨by omega, first :: every, .cons made each, ?_⟩
      rw [Interface.parameterTotal_cons]
      omega

section
variable (policy : TagPolicy) (operations : List RawOperation) (byId : Bool) (origin : String)

/-- The interfaces of all operations of a tag, before the first one of each name is kept. -/
def TagPolicy.Normalizes (tag : Value) (every : List Interface) : Prop :=
  ∃ lead, RawOperation.commonLead (policy.operationsOf operations tag) = .ok lead ∧
    List.Forall₂ (fun raw i => (Interface.ofOperation raw byId lead origin).outcome = .ok i)
      (policy.operationsOf operations tag) every

/-- The tags, the operations of the informative ones and the parameters of these operations are all
accounted for by modules, by interfaces and by how often each kind of them was left out. -/
structure TagPolicy.Balances (members : List Value) (modules : List ApiModule)
    (count : Omission → Nat) : Prop where
  tags : members.length = modules.length + count .placeholderTag + count .emptyModule
  interfaces : ((members.filter policy.isInformative).map fun tag =>
      (policy.operationsOf operations tag).length).sum =
    (modules.map fun m => m.interfaces.length).sum + count .duplicateInterface
  parameters : ∃ normalized, List.Forall₂ (policy.Normalizes operations byId origin)
      (members.filter policy.isInformative) normalized ∧
    ((members.filter policy.isInformative).map fun tag =>
        ((policy.operationsOf operations tag).map RawOperation.parameterCount).sum).sum =
      (normalized.map Interface.parameterTotal).sum + count .placelessParameter +
        count .duplicateParameter

end

section
variable {policy : TagPolicy} {operations : List RawOperation} {byId : Bool} {origin : String}

theorem TagPolicy.Balances.append {members others : List Value} {modules more : List ApiModule}
    {count counted : Omission → Nat}
    (first : policy.Balances operations byId origin members modules count)
    (rest : policy.Balances operations byId origin others more counted) :
    policy.Balances operations byId origin (members ++ others) (modules ++ more)
      fun omission => count omission + counted omission := by
  obtain ⟨normalized, each, firstParameters⟩ := first.parameters
  obtain ⟨further, every, restParameters⟩ := rest.parameters
  refine ⟨?_, ?_, normalized ++ further, ?_, ?_⟩
  · have firstTags := first.tags
    have restTags := rest.tags
    simp only [List.length_append]
    omega
  · have firstInterfaces := first.interfaces
    have restInterfaces := rest.interfaces
    simp only [List.filter_append, List.map_append, List.sum_append]
    omega
  · rw [List.filter_append]
    exact List.rel_append each every
  · simp only [List.filter_append, List.map_append, List.sum_append]
    omega

theorem TagPolicy.Balances.of_gathers {tag : Value} {lead : String} {interfaces : List Interface}
    {modules : List ApiModule} {count : Omission → Nat}
    (gathers : policy.Gathers operations byId origin tag lead interfaces)
    (tags : 1 = modules.length + count .placeholderTag + count .emptyModule)
    (kept : interfaces.length = (modules.map fun m => m.interfaces.length).sum)
    (counted : ∀ omission ∈ [.duplicateInterface, .placelessParameter, .duplicateParameter],
      count omission = (Interface.ofOperations byId lead origin []
        (policy.operationsOf operations tag)).omitted omission) :
    policy.Balances operations byId origin [tag] modules count := by
  obtain ⟨interfaceBalance, every, each, parameterBalance⟩ :=
    Interface.length_of_ofOperations gathers.made
  have informative : [tag].filter policy.isInformative = [tag] := by
    simp [TagPolicy.isInformative, gathers.informative, Except.toOption]
  rw [← counted _ (by decide)] at interfaceBalance
  rw [← counted _ (by decide), ← counted _ (by decide)] at parameterBalance
  refine ⟨tags, ?_, [every], ?_, ?_⟩
  · rw [informative, List.map_singleton, List.sum_singleton, interfaceBalance, kept]
  · rw [informative]
    exact .cons ⟨lead, gathers.shared, each⟩ .nil
  · rw [informative, List.map_singleton, List.sum_singleton, parameterBalance,
      List.map_singleton, List.sum_singleton]

theorem TagPolicy.balances_of_ofTag {tag : Value} {kept : Option ApiModule}
    (returned : (ApiModule.ofTag operations byId origin policy tag).outcome = .ok kept) :
    policy.Balances operations byId origin [tag] kept.toList
      ((ApiModule.ofTag operations byId origin policy tag).omitted ·) := by
  have yields := TagPolicy.yields_of_ofTag returned
  have quiet (lead : String) {omission : Omission}
      (other : omission ∉ [.duplicateInterface, .placelessParameter, .duplicateParameter]) :
      (Interface.ofOperations byId lead origin []
        (policy.operationsOf operations tag)).omitted omission = 0 :=
    (Interface.omitsOnly_ofOperations byId lead origin [] _).omitted_eq_zero other
  unfold Traced.omitted at quiet ⊢
  generalize (ApiModule.ofTag operations byId origin policy tag).remarks = remarks at yields
  cases yields with
  | placeholder repeats =>
    have nothing : [tag].filter policy.isInformative = [] := by
      simp [TagPolicy.isInformative, repeats, Except.toOption]
    refine ⟨?_, ?_, [], ?_, ?_⟩
    · simp only [Remark.countP_reports_singleton, Remark.omission?]
      rfl
    · simp only [nothing, Remark.countP_reports_singleton, Remark.omission?]
      rfl
    · rw [nothing]
      exact .nil
    · simp only [nothing, Remark.countP_reports_singleton, Remark.omission?]
      rfl
  | @empty lead name description gathers identified =>
    refine .of_gathers gathers ?_ rfl fun omission listed => ?_
    · simp only [List.countP_append, Remark.countP_reports_singleton, Remark.omission?]
      rw [quiet lead (by decide), quiet lead (by decide)]
      rfl
    · rw [List.countP_append, Remark.countP_reports_singleton, if_neg, Nat.add_zero]
      · rfl
      · intro own
        obtain rfl := Option.some.inj own
        exact absurd listed (by decide)
  | @filled lead name description text interfaces gathers =>
    refine .of_gathers gathers ?_ (Nat.add_zero _).symm (fun _ _ => rfl)
    rw [quiet lead (by decide), quiet lead (by decide)]
    rfl

theorem TagPolicy.balances_of_collect {members : List Value} {modules : List ApiModule}
    (returned : (Traced.collect (ApiModule.ofTag operations byId origin policy) members).outcome =
      .ok modules) :
    policy.Balances operations byId origin members modules
      ((Traced.collect (ApiModule.ofTag operations byId origin policy) members).omitted ·) := by
  induction members generalizing modules with
  | nil =>
    obtain rfl := Except.ok.inj returned
    exact ⟨rfl, rfl, [], .nil, rfl⟩
  | cons tag rest ih =>
    rw [Traced.collect] at returned ⊢
    obtain ⟨kept, first, returned⟩ := Traced.outcome_bind_eq_ok_iff.mp returned
    obtain ⟨more, others, same⟩ := Traced.outcome_bind_eq_ok_iff.mp returned
    obtain rfl := Except.ok.inj same
    simp only [Traced.omitted_bind first, Traced.omitted_bind others, Traced.omitted_pure,
      Nat.add_zero]
    exact (TagPolicy.balances_of_ofTag first).append (ih others)

end

theorem BaseClass.omitsOnly_ofDefinition (origin : String) (entry : Value × Value) :
    (BaseClass.ofDefinition origin entry).OmitsOnly [] := by
  have ofEntry (self : String) (required : Value) (entry : Value × Value) :
      (Property.ofEntry self origin required entry).OmitsOnly [] := by
    unfold Property.ofEntry
    refine (Traced.omitsOnly_lift _).bind fun found => ?_
    refine (Traced.omitsOnly_lift _).bind fun flag => ?_
    exact (DataType.omitsOnly_ofSchema _ _ _ _).bind fun _ => Traced.omitsOnly_lift _
  unfold BaseClass.ofDefinition
  refine (Traced.omitsOnly_lift _).bind fun name => ?_
  refine (Traced.omitsOnly_lift _).bind fun required => ?_
  refine (Traced.omitsOnly_lift _).bind fun found => ?_
  refine (Traced.omitsOnly_lift _).bind fun entries => ?_
  refine (Traced.omitsOnly_mapM (ofEntry _ _) _).bind fun properties => ?_
  exact (Traced.omitsOnly_lift _).bind fun _ => Traced.omitsOnly_lift _

theorem BaseClass.length_of_firsts {seen : List String} {classes firsts : List BaseClass}
    (returned : (BaseClass.firsts seen classes).outcome = .ok firsts) :
    classes.length = firsts.length + (BaseClass.firsts seen classes).omitted .duplicateClass := by
  induction classes generalizing seen firsts with
  | nil =>
    obtain rfl := Except.ok.inj returned
    rfl
  | cons base rest ih =>
    rw [BaseClass.firsts] at returned ⊢
    split at returned
    · rename_i already
      obtain ⟨_, remarked, returned⟩ := Traced.outcome_bind_eq_ok_iff.mp returned
      have balance := ih returned
      rw [if_pos already, Traced.omitted_bind remarked, Traced.omitted_remark rfl, List.length_cons]
      omega
    · rename_i fresh
      obtain ⟨more, hmore, same⟩ := Traced.outcome_bind_eq_ok_iff.mp returned
      obtain rfl := Except.ok.inj same
      have balance := ih hmore
      rw [if_neg fresh, Traced.omitted_bind hmore, Traced.omitted_pure, List.length_cons,
        List.length_cons]
      omega

theorem BaseClass.length_of_ofDefinitions {definitions : Value} {origin : String}
    {classes : List BaseClass}
    (returned : (BaseClass.ofDefinitions definitions origin).outcome = .ok classes) :
    ∃ entries, (definitions.orElse .emptyMap).entries = .ok entries ∧
      entries.length = classes.length +
        (BaseClass.ofDefinitions definitions origin).omitted .duplicateClass := by
  obtain ⟨entries, hentries, returned⟩ := Traced.outcome_bind_eq_ok_iff.mp returned
  rw [Traced.outcome_lift] at hentries
  obtain ⟨every, made, sorted⟩ := Traced.outcome_bind_eq_ok_iff.mp returned
  have quiet : (entries.mapM (BaseClass.ofDefinition origin)).omitted .duplicateClass = 0 :=
    (Traced.omitsOnly_mapM (BaseClass.omitsOnly_ofDefinition origin) entries).omitted_eq_zero
      List.not_mem_nil
  have balance := BaseClass.length_of_firsts sorted
  have same := (Traced.outcome_mapM_eq_ok_iff.mp made).length_eq
  refine ⟨entries, hentries, ?_⟩
  refine .trans ?_ (congrArg _ (Traced.omitted_ok_bind hentries).symm)
  rw [Traced.omitted_bind made, quiet, Nat.zero_add, BaseClass.sortUnique, same, ← balance,
    List.length_mergeSort]

theorem Property.length_of_resolvable {origin : String} {known : List String}
    {parameters resolved : List Property}
    (returned : (Property.resolvable origin known parameters).outcome = .ok resolved) :
    parameters.length = resolved.length +
      (Property.resolvable origin known parameters).omitted .danglingBody := by
  obtain rfl := Except.ok.inj returned
  have reported : ∀ r ∈ (Property.resolvable origin known parameters).remarks,
      Remark.reports .danglingBody r = true := by
    intro r member
    obtain ⟨p, -, rfl⟩ := List.mem_map.mp member
    rw [Remark.reports_iff, Remark.omission?]
  rw [Traced.omitted, List.countP_eq_length.mpr reported, Property.resolvable, List.length_map,
    List.length_eq_length_filter_add (·.isResolvable origin known)]

theorem Interface.length_of_resolve {origin : String} {known : List String} {i resolved : Interface}
    (returned : (i.resolve origin known).outcome = .ok resolved) :
    i.parameters.length = resolved.parameters.length +
      (i.resolve origin known).omitted .danglingBody := by
  obtain ⟨parameters, made, same⟩ := Traced.outcome_bind_eq_ok_iff.mp returned
  obtain rfl := Except.ok.inj same
  rw [Interface.resolve, Traced.omitted_bind made, Traced.omitted_pure, Nat.add_zero]
  exact Property.length_of_resolvable made

theorem ApiModule.parameterTotal_of_resolve {origin : String} {known : List String}
    {m resolved : ApiModule} (returned : (m.resolve origin known).outcome = .ok resolved) :
    Interface.parameterTotal m.interfaces = Interface.parameterTotal resolved.interfaces +
      (m.resolve origin known).omitted .danglingBody := by
  obtain ⟨interfaces, made, same⟩ := Traced.outcome_bind_eq_ok_iff.mp returned
  obtain rfl := Except.ok.inj same
  rw [ApiModule.resolve, Traced.omitted_bind made, Traced.omitted_pure, Nat.add_zero]
  exact Traced.sum_of_mapM made fun _ _ => Interface.length_of_resolve

def ApiModule.parameterTotal (modules : List ApiModule) : Nat :=
  (modules.map fun m => Interface.parameterTotal m.interfaces).sum

theorem ApiModule.parameterTotal_of_resolveAll {modules resolved : List ApiModule}
    {classes : List BaseClass} {origin : String}
    (returned : (ApiModule.resolveAll modules classes origin).outcome = .ok resolved) :
    ApiModule.parameterTotal modules = ApiModule.parameterTotal resolved +
      (ApiModule.resolveAll modules classes origin).omitted .danglingBody :=
  Traced.sum_of_mapM returned fun _ _ => ApiModule.parameterTotal_of_resolve

/-- Whatever a stage gets and does not give on, it has remarked on once: tags, operations and their
parameters as modules are grouped, definitions as classes are selected, and parameters as bodies are
resolved. -/
theorem length_eq_kept_add_omitted {policy : TagPolicy} {operations : List RawOperation}
    {tags definitions : Value} {byId : Bool} {origin home : String} {modules : List ApiModule}
    {classes : List BaseClass}
    (grouped : (ApiModule.ofTags operations tags byId origin policy).outcome = .ok modules)
    (declared : (BaseClass.ofDefinitions definitions home).outcome = .ok classes) :
    (∃ members, (tags.orElse .emptyList).members = .ok members ∧
      policy.Balances operations byId origin members modules
        ((ApiModule.ofTags operations tags byId origin policy).omitted ·)) ∧
    (∃ entries, (definitions.orElse .emptyMap).entries = .ok entries ∧
      entries.length = classes.length +
        (BaseClass.ofDefinitions definitions home).omitted .duplicateClass) ∧
    ∀ (before : List ApiModule) (known : List BaseClass) (lead : String),
      ∃ after, (ApiModule.resolveAll before known lead).outcome = .ok after ∧
        ApiModule.parameterTotal before = ApiModule.parameterTotal after +
          (ApiModule.resolveAll before known lead).omitted .danglingBody := by
  refine ⟨?_, BaseClass.length_of_ofDefinitions declared, fun before known lead => ?_⟩
  · obtain ⟨members, hmembers, collected⟩ := Traced.outcome_bind_eq_ok_iff.mp grouped
    rw [Traced.outcome_lift] at hmembers
    have whole (omission : Omission) :
        (ApiModule.ofTags operations tags byId origin policy).omitted omission =
          (Traced.collect (ApiModule.ofTag operations byId origin policy) members).omitted
            omission :=
      Traced.omitted_ok_bind hmembers
    exact ⟨members, hmembers, by simpa only [whole] using TagPolicy.balances_of_collect collected⟩
  · have returned := ApiModule.outcome_resolveAll before known lead
    exact ⟨_, returned, ApiModule.parameterTotal_of_resolveAll returned⟩

def findOrders : RawOperation :=
  ⟨.text "/orders", .text "get", .map [(.text "tags", .list [.text "shop"]),
    (.text "operationId", .text "find"), (.text "parameters", .list [
      .map [(.text "name", .text "id"), (.text "in", .text "query")],
      .map [(.text "name", .text "id"), (.text "in", .text "header")],
      .map [(.text "name", .text "token"), (.text "in", .text "cookie")]])]⟩

def findOldOrders : RawOperation :=
  ⟨.text "/orders/old", .text "get", .map [(.text "tags", .list [.text "shop"]),
    (.text "operationId", .text "find"), (.text "parameters", .list [
      .map [(.text "name", .text "id"), (.text "in", .text "cookie")]])]⟩

def shopTags : List Value :=
  [.map [(.text "name", .text "shop"), (.text "description", .text "Store")],
    .map [(.text "name", .text "store"), (.text "description", .text "Store")],
    .map [(.text "name", .text "admin"), (.text "description", .text "Staff")]]

def pageDefinitions : Value :=
  .map [(.text "Page«User»", .map []), (.text "Page«Pet»", .map [])]

theorem omitted_of_shop :
    ∃ modules classes, (ApiModule.ofTags [findOrders, findOldOrders] (.list shopTags) true ""
        .standard).outcome = .ok modules ∧
      (BaseClass.ofDefinitions pageDefinitions "").outcome = .ok classes ∧
      TagPolicy.standard.Balances [findOrders, findOldOrders] true "" shopTags modules
        ((ApiModule.ofTags [findOrders, findOldOrders] (.list shopTags) true "" .standard).omitted
          ·) ∧
      2 = 1 + (BaseClass.ofDefinitions pageDefinitions "").omitted .duplicateClass := by
  have grouped : (ApiModule.ofTags [findOrders, findOldOrders] (.list shopTags) true ""
      .standard).outcome = .ok [⟨"shop", "Store", [⟨"find", "", "get", "/orders", [],
        ⟨false, .empty, "", none⟩,
        [⟨"id", "", false, ⟨false, .empty, "", none⟩, some .query⟩]⟩]⟩] :=
    Outcome.eq_ok_of_toOption (by decide +kernel)
  have both : ([(.text "Page«User»", .map []), (.text "Page«Pet»", .map [])].mapM
      (BaseClass.ofDefinition "")).outcome = .ok [⟨"Page<T0>", "", []⟩, ⟨"Page<T0>", "", []⟩] :=
    Outcome.eq_ok_of_toOption (by decide +kernel)
  have sorted : [⟨"Page<T0>", "", []⟩, ⟨"Page<T0>", "", []⟩].mergeSort BaseClass.goesBefore =
      [⟨"Page<T0>", "", []⟩, ⟨"Page<T0>", "", []⟩] :=
    List.mergeSort_of_pairwise (by simp [BaseClass.goesBefore])
  have declared : (BaseClass.ofDefinitions pageDefinitions "").outcome =
      .ok [⟨"Page<T0>", "", []⟩] := by
    refine Traced.outcome_bind_eq_ok_iff.mpr ⟨_, rfl, Traced.outcome_bind_eq_ok_iff.mpr
      ⟨_, both, ?_⟩⟩
    rw [BaseClass.outcome_sortUnique, sorted]
    rfl
  obtain ⟨⟨members, hmembers, balances⟩, ⟨entries, hentries, counted⟩, -⟩ :=
    length_eq_kept_add_omitted grouped declared
  obtain rfl := Except.ok.inj hmembers
  obtain rfl := Except.ok.inj hentries
  exact ⟨_, _, grouped, declared, balances, counted⟩

end ApiCatalog
