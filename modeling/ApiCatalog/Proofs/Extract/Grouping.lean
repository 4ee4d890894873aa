import ApiCatalog.Extract.Module
import ApiCatalog.Proofs.Extract.Parameter
import ApiCatalog.Proofs.Extract.SchemaType
import ApiCatalog.Proofs.Extract.TagSelection

/-!
Modules as they are grouped, before bodies are resolved. Each has some interfaces, each from an
operation of the document, and keeps the first interface of each name.
-/

namespace ApiCatalog

def RawOperation.listed (raw : RawOperation) : Except Fault (List Value) := do
  ((← raw.operation.field "parameters").orElse .emptyList).members

structure Interface.MadeFrom (raw : RawOperation) (byId : Bool) (lead origin : String)
    (schema : Value) (listed : List Value) (i : Interface) : Prop where
  named : raw.interfaceName byId lead = .ok i.name
  answered : responseSchema raw.operation = .ok schema
  response : (DataType.ofSchema schema "" origin true).outcome = .ok i.response
  given : raw.listed = .ok listed
  parameters : (Property.ofParameters origin [] listed).outcome = .ok i.parameters
  remarks : (Interface.ofOperation raw byId lead origin).remarks =
    (DataType.ofSchema schema "" origin true).remarks ++
      (Property.ofParameters origin [] listed).remarks

theorem Interface.madeFrom_of_ofOperation {raw : RawOperation} {byId : Bool} {lead origin : String}
    {i : Interface} (returned : (Interface.ofOperation raw byId lead origin).outcome = .ok i) :
    ∃ schema listed, Interface.MadeFrom raw byId lead origin schema listed i := by
  unfold Interface.ofOperation at returned
  simp only [Traced.outcome_bind_eq_ok_iff, Traced.outcome_lift] at returned
  obtain ⟨name, hname, schema, hschema, response, hresponse, summary, hsummary, consumes, hconsumes,
    found, hfound, listed, hlisted, parameters, hparameters, checked⟩ := returned
  simp only [Checked.orFault_eq_ok_iff, Checked.seq_eq_valid_iff, Checked.map_eq_valid_iff,
    Checked.under_eq_valid_iff] at checked
  obtain ⟨_, _, ⟨_, _, ⟨_, _, ⟨_, _, ⟨_, _, ⟨_, _, ⟨_, named, rfl⟩, -, rfl⟩, -, rfl⟩, -, rfl⟩, -,
    rfl⟩, sameResponse, rfl⟩, sameParameters, rfl⟩ := checked
  cases named
  cases sameResponse
  cases sameParameters
  have given : raw.listed = .ok listed := Outcome.bind_eq_ok_iff.mpr ⟨found, hfound, hlisted⟩
  refine ⟨schema, listed, hname, hschema, hresponse, given, hparameters, ?_⟩
  unfold Interface.ofOperation
  rw [hname, Traced.ok_bind, hschema, Traced.ok_bind, Traced.remarks_bind hresponse, hsummary,
    Traced.ok_bind, hconsumes, Traced.ok_bind, hfound, Traced.ok_bind]
  dsimp only
  rw [hlisted, Traced.ok_bind, Traced.remarks_bind hparameters]
  exact congrArg _ (List.append_nil _)

theorem Interface.of_ofOperation {raw : RawOperation} {byId : Bool} {lead origin : String}
    {i : Interface} (returned : (Interface.ofOperation raw byId lead origin).outcome = .ok i) :
    ∃ schema listed, responseSchema raw.operation = .ok schema ∧
      (DataType.ofSchema schema "" origin true).outcome = .ok i.response ∧
      raw.listed = .ok listed ∧
      List.Forall₂ (Property.MadeFrom origin) (firstParameters [] listed) i.parameters := by
  obtain ⟨schema, listed, made⟩ := Interface.madeFrom_of_ofOperation returned
  exact ⟨schema, listed, made.answered, made.response, made.given,
    Property.of_ofParameters made.parameters⟩

theorem Interface.of_ofOperations {byId : Bool} {lead origin : String} {seen : List String}
    {operations : List RawOperation} {interfaces : List Interface}
    (returned : (Interface.ofOperations byId lead origin seen operations).outcome =
      .ok interfaces) :
    ∃ every, List.Forall₂
        (fun raw i => (Interface.ofOperation raw byId lead origin).outcome = .ok i)
        operations every ∧
      interfaces = keepFirst (· == ·) Interface.name seen every := by
  induction operations generalizing seen interfaces with
  | nil =>
    obtain rfl := Except.ok.inj returned
    exact ⟨[], .nil, rfl⟩
  | cons raw rest ih =>
    rw [Interface.ofOperations] at returned
    obtain ⟨first, hfirst, returned⟩ := Traced.outcome_bind_eq_ok_iff.mp returned
    split at returned
    · rename_i already
      obtain ⟨_, -, returned⟩ := Traced.outcome_bind_eq_ok_iff.mp returned
      obtain ⟨every, each, rfl⟩ := ih returned
      exact ⟨first :: every, .cons hfirst each, by simp [keepFirst, already]⟩
    · rename_i fresh
      obtain ⟨more, hmore, same⟩ := Traced.outcome_bind_eq_ok_iff.mp returned
      obtain rfl := Except.ok.inj same
      obtain ⟨every, each, rfl⟩ := ih hmore
      exact ⟨first :: every, .cons hfirst each, by simp [keepFirst, fresh]⟩

structure ApiModule.IsGrouped (operations : List RawOperation) (byId : Bool) (origin : String)
    (m : ApiModule) : Prop where
  nonempty : m.interfaces ≠ []
  nodup_names : (m.interfaces.map Interface.name).Nodup
  from_operations : ∃ lead, ∀ i ∈ m.interfaces, ∃ raw ∈ operations,
    (Interface.ofOperation raw byId lead origin).outcome = .ok i

theorem ApiModule.isGrouped_of_ofTag {operations : List RawOperation} {byId : Bool}
    {origin : String} {policy : TagPolicy} {tag : Value} {m : ApiModule}
    (returned : (ApiModule.ofTag operations byId origin policy tag).outcome = .ok (some m)) :
    m.IsGrouped operations byId origin := by
  have yields := TagPolicy.yields_of_ofTag returned
  generalize (ApiModule.ofTag operations byId origin policy tag).remarks = remarks at yields
  cases yields with
  | @filled lead _ _ _ _ gathers nonempty =>
    obtain ⟨every, each, kept⟩ := Interface.of_ofOperations gathers.made
    refine ⟨nonempty, kept ▸ nodup_keepFirst [] every, lead, fun i member => ?_⟩
    have inEvery : i ∈ every := (keepFirst_sublist _ _).subset (kept ▸ member)
    obtain ⟨raw, inside, made⟩ := forall₂_exists_left each inEvery
    exact ⟨raw, (List.mem_filter.mp inside).1, made⟩

theorem ApiModule.isGrouped_of_ofTags {operations : List RawOperation} {tags : Value} {byId : Bool}
    {origin : String} {policy : TagPolicy} {modules : List ApiModule}
    (returned : (ApiModule.ofTags operations tags byId origin policy).outcome = .ok modules) :
    ∀ m ∈ modules, m.IsGrouped operations byId origin := by
  obtain ⟨members, -, collected⟩ := Traced.outcome_bind_eq_ok_iff.mp returned
  obtain ⟨found, each, rfl⟩ := Traced.outcome_collect_eq_ok_iff.mp collected
  intro m member
  obtain ⟨kept, inside, isKept⟩ := List.mem_flatMap.mp member
  obtain ⟨tag, -, ofTag⟩ := forall₂_exists_left each inside
  obtain rfl := Option.mem_toList.mp isKept
  exact ApiModule.isGrouped_of_ofTag ofTag

end ApiCatalog
