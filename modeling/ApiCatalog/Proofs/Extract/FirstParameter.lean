import ApiCatalog.Proofs.Extract.BodyType

/-!
Which parameters count. The properties are those of the parameters with a known location, the first
one of each name. All others are passed over: one more or one less of them, wherever it stands,
changes nothing, even if it shares its name with a later one.
-/

namespace ApiCatalog

/-- A parameter behind others is passed over: it has no known location, or the name of an earlier
one that has. -/
def Value.IsPassedOverBehind (parameter : Value) (front : List Value) : Prop :=
  parameter.givenPlace = none ∨ ∃ earlier ∈ front, earlier.givenPlace.isSome = true ∧
    Value.same parameter.givenName earlier.givenName = true

theorem Value.eq_of_same_of_text {a b : Value} {s : String} (read : Check.text b = .valid s)
    (equal : Value.same a b = true) : a = b := by
  cases b with
  | text t => cases a <;> simp_all [Value.same]
  | bytes content => cases a <;> simp_all [Value.same]
  | _ => simp [Check.text, Checked.flaw] at read

theorem Value.isKey_of_text {value : Value} {s : String} (read : Check.text value = .valid s) :
    value.isKey = true := by
  cases value with
  | text t => rfl
  | bytes content => rfl
  | _ => simp [Check.text, Checked.flaw] at read

section
variable {origin : String} {seen rest : List Value} {parameter : Value}

theorem Property.outcome_ofParameters_cons (mapping : parameter.isMap = true) :
    (Property.ofParameters origin seen (parameter :: rest)).outcome =
      match parameter.givenPlace with
      | none => (Property.ofParameters origin seen rest).outcome
      | some location =>
        if !parameter.givenName.isKey then .error .wrongKind
        else if seen.any (Value.same parameter.givenName) then
          (Property.ofParameters origin seen rest).outcome
        else do
          let property ←
            (Property.ofParameter origin parameter.givenName location parameter).outcome
          let more ← (Property.ofParameters origin (parameter.givenName :: seen) rest).outcome
          return property :: more := by
  obtain ⟨place, step⟩ := @Property.ofParameters_cons origin seen rest parameter mapping
  rw [step]
  cases parameter.givenPlace with
  | none => exact Traced.outcome_bind _ _
  | some location =>
    dsimp only
    split
    · rfl
    · split
      · exact Traced.outcome_bind _ _
      · simp only [Traced.outcome_bind]
        rfl

theorem Property.forall_isMap_of_ofParameters {listed : List Value} {parameters : List Property}
    (returned : (Property.ofParameters origin seen listed).outcome = .ok parameters) :
    ∀ parameter ∈ listed, parameter.isMap = true := by
  induction listed generalizing seen parameters with
  | nil => exact fun parameter member => absurd member List.not_mem_nil
  | cons first rest ih =>
    have mapped := Property.isMap_of_ofParameters_cons returned
    refine List.forall_mem_cons.mpr ⟨mapped, ?_⟩
    rw [Property.outcome_ofParameters_cons mapped] at returned
    split at returned
    · exact ih returned
    · split at returned
      · cases returned
      · split at returned
        · exact ih returned
        · obtain ⟨_, -, returned⟩ := Outcome.bind_eq_ok_iff.mp returned
          obtain ⟨_, returned, -⟩ := Outcome.bind_eq_ok_iff.mp returned
          exact ih returned

section
variable (readable : ∀ name ∈ seen, ∃ s, Check.text name = .valid s)
include readable

theorem Value.any_same_of_same {a b : Value} (already : seen.any (Value.same b) = true)
    (equal : Value.same a b = true) : seen.any (Value.same a) = true := by
  obtain ⟨name, member, same⟩ := List.any_eq_true.mp already
  obtain ⟨s, read⟩ := readable name member
  rw [Value.eq_of_same_of_text read same] at equal
  exact List.any_eq_true.mpr ⟨name, member, equal⟩

theorem Property.outcome_ofParameters_cons_of_passed (mapping : parameter.isMap = true)
    (passed : parameter.givenPlace = none ∨ seen.any (Value.same parameter.givenName) = true) :
    (Property.ofParameters origin seen (parameter :: rest)).outcome =
      (Property.ofParameters origin seen rest).outcome := by
  rw [Property.outcome_ofParameters_cons mapping]
  cases known : parameter.givenPlace with
  | none => rfl
  | some location =>
    have already := passed.resolve_left (known ▸ Option.some_ne_none location)
    obtain ⟨name, member, equal⟩ := List.any_eq_true.mp already
    obtain ⟨s, read⟩ := readable name member
    have isKey : parameter.givenName.isKey = true :=
      Value.eq_of_same_of_text read equal ▸ Value.isKey_of_text read
    simp [isKey, already]

end

theorem Value.seen_or_isPassedOverBehind_of_cons {extra first : Value} {known front : List Value}
    (passed : seen.any (Value.same extra.givenName) = true ∨
      extra.IsPassedOverBehind (first :: front)) (grows : seen ⊆ known)
    (kept : first.givenPlace.isSome = true → Value.same extra.givenName first.givenName = true →
      known.any (Value.same extra.givenName) = true) :
    known.any (Value.same extra.givenName) = true ∨ extra.IsPassedOverBehind front := by
  rcases passed with already | unknown | ⟨earlier, member, placed, equal⟩
  · obtain ⟨name, inside, equal⟩ := List.any_eq_true.mp already
    exact Or.inl (List.any_eq_true.mpr ⟨name, grows inside, equal⟩)
  · exact Or.inr (Or.inl unknown)
  · rcases List.mem_cons.mp member with rfl | later
    · exact Or.inl (kept placed equal)
    · exact Or.inr (Or.inr ⟨earlier, later, placed, equal⟩)

/-- A parameter that is passed over makes no difference. The induction is on what stands before it;
names seen are readable as texts, since a property was made with each. -/
theorem Property.outcome_ofParameters_append_cons {extra : Value} (mapping : extra.isMap = true)
    {front back : List Value} (readable : ∀ name ∈ seen, ∃ s, Check.text name = .valid s)
    (passed : seen.any (Value.same extra.givenName) = true ∨ extra.IsPassedOverBehind front) :
    (Property.ofParameters origin seen (front ++ extra :: back)).outcome =
      (Property.ofParameters origin seen (front ++ back)).outcome := by
  induction front generalizing seen with
  | nil =>
    refine Property.outcome_ofParameters_cons_of_passed readable mapping ?_
    rcases passed with already | unknown | ⟨earlier, member, -⟩
    · exact Or.inr already
    · exact Or.inl unknown
    · exact absurd member List.not_mem_nil
  | cons first front ih =>
    rw [List.cons_append, List.cons_append]
    by_cases mapped : first.isMap = true
    · rw [Property.outcome_ofParameters_cons mapped, Property.outcome_ofParameters_cons mapped]
      cases known : first.givenPlace with
      | none =>
        refine ih readable (Value.seen_or_isPassedOverBehind_of_cons passed
          (List.Subset.refl seen) fun placed _ => ?_)
        simp [known] at placed
      | some location =>
        dsimp only
        split
        · rfl
        · split
          · rename_i already
            exact ih readable (Value.seen_or_isPassedOverBehind_of_cons passed
              (List.Subset.refl seen) fun _ equal =>
                Value.any_same_of_same readable already equal)
          · cases made : (Property.ofParameter origin first.givenName location first).outcome with
            | error fault => rfl
            | ok property =>
              obtain ⟨-, -, -, named, -⟩ := Property.MadeFrom.spec ⟨location, known, made⟩
              have readableToo :
                  ∀ name ∈ first.givenName :: seen, ∃ s, Check.text name = .valid s :=
                List.forall_mem_cons.mpr ⟨⟨_, named⟩, readable⟩
              rw [ih readableToo (Value.seen_or_isPassedOverBehind_of_cons passed
                (List.subset_cons_self _ seen) fun _ equal => by simp [equal])]
    · rw [Property.outcome_ofParameters_cons_of_not_isMap mapped,
        Property.outcome_ofParameters_cons_of_not_isMap mapped]

end

def firstNamed (listed : List Value) : List Value :=
  firstBy Value.same Value.givenName (listed.filter fun p => p.givenPlace.isSome)

theorem firstParameters_eq_firstNamed {origin : String} {listed : List Value}
    {parameters : List Property}
    (made : List.Forall₂ (Property.MadeFrom origin) (firstParameters [] listed) parameters) :
    firstParameters [] listed = firstNamed listed := by
  refine keepFirst_eq_firstBy fun kept member name equal => ?_
  obtain ⟨p, -, madeKept⟩ := forall₂_exists_right made member
  obtain ⟨-, -, -, named, -⟩ := madeKept.spec
  exact Value.eq_of_same_of_text named equal

/-- A property has the name and the location of a parameter. Where the parameter is a body and
leaves its type to its schema, the type is that of any response with the same schema. -/
structure Property.IsTakenFrom (origin : String) (parameter : Value) (p : Property) : Prop where
  named : Check.text parameter.givenName = .valid p.name
  placed : p.location = parameter.givenPlace
  body : p.location = some .body → parameter.LeavesTypeToSchema →
    ∀ (raw : RawOperation) response, raw.operation.Succeeds response →
      response.field "schema" = parameter.field "schema" → raw.AnswersWith origin p.dataType

theorem Property.MadeFrom.isTakenFrom {origin : String} {parameter : Value} {p : Property}
    (made : Property.MadeFrom origin parameter p) : Property.IsTakenFrom origin parameter p := by
  obtain ⟨-, -, placed, named, -⟩ := made.spec
  exact ⟨named, placed, fun body leaves _ _ succeeds sameSchema =>
    made.answersWith body leaves succeeds sameSchema⟩

/-- The properties are taken from the parameters with a known location, the first one of each name.
One that is passed over may be put in or taken out anywhere. -/
theorem Property.isTakenFrom_of_ofParameters {origin : String} {listed : List Value}
    {parameters : List Property}
    (returned : (Property.ofParameters origin [] listed).outcome = .ok parameters) :
    List.Forall₂ (Property.IsTakenFrom origin) (firstNamed listed) parameters ∧
      (∀ front extra back, listed = front ++ back → extra.isMap = true →
        extra.IsPassedOverBehind front →
          (Property.ofParameters origin [] (front ++ extra :: back)).outcome = .ok parameters) ∧
      ∀ front extra back, listed = front ++ extra :: back → extra.IsPassedOverBehind front →
        (Property.ofParameters origin [] (front ++ back)).outcome = .ok parameters := by
  have unread : ∀ name ∈ ([] : List Value), ∃ s, Check.text name = .valid s :=
    fun name member => absurd member List.not_mem_nil
  refine ⟨?_, ?_, ?_⟩
  · have made := Property.of_ofParameters returned
    rw [← firstParameters_eq_firstNamed made]
    exact made.imp fun _ _ one => one.isTakenFrom
  · rintro front extra back rfl mapping passed
    rw [Property.outcome_ofParameters_append_cons mapping unread (Or.inr passed), returned]
  · rintro front extra back rfl passed
    have mapping := Property.forall_isMap_of_ofParameters returned extra
      (List.mem_append_right front List.mem_cons_self)
    rw [← Property.outcome_ofParameters_append_cons mapping unread (Or.inr passed), returned]

def idCookie : Value :=
  .map [(.text "name", .text "id"), (.text "in", .text "cookie")]

def idQuery : Value :=
  .map [(.text "name", .text "id")]

def idHeader : Value :=
  .map [(.text "name", .text "id"), (.text "in", .text "header")]

def petSchema : Value :=
  .map [(.text "type", .text "array"),
    (.text "items", .map [(.text "$ref", .text "#/definitions/Pet")])]

def petBody : Value :=
  .map [(.text "name", .text "pet"), (.text "in", .text "body"), (.text "type", .text ""),
    (.text "schema", petSchema)]

def findPets : RawOperation :=
  ⟨.text "/pets", .text "get", .map [(.text "responses", .map [(.int 200,
    .map [(.text "schema", petSchema)])])]⟩

theorem parameters_of_idCookie_petBody :
    ∃ body query, (Property.ofParameters "" [] [idCookie, petBody, idQuery, idHeader]).outcome =
        .ok [body, query] ∧
      Property.IsTakenFrom "" petBody body ∧ Property.IsTakenFrom "" idQuery query ∧
      findPets.AnswersWith "" body.dataType ∧
      (Property.ofParameters "" [] [idCookie, idCookie, petBody, idQuery, idHeader]).outcome =
        .ok [body, query] ∧
      (Property.ofParameters "" [] [idCookie, petBody, idQuery]).outcome = .ok [body, query] := by
  have returned : (Property.ofParameters "" [] [idCookie, petBody, idQuery, idHeader]).outcome =
      .ok [⟨"pet", "", false, ⟨true, .empty, "defs.Pet", none⟩, some .body⟩,
        ⟨"id", "", false, ⟨false, .empty, "", none⟩, some .query⟩] :=
    Outcome.eq_ok_of_toOption (by decide +kernel)
  obtain ⟨taken, putIn, takenOut⟩ := Property.isTakenFrom_of_ofParameters returned
  have named : firstNamed [idCookie, petBody, idQuery, idHeader] = [petBody, idQuery] := rfl
  rw [named] at taken
  obtain ⟨body, others⟩ := List.forall₂_cons.mp taken
  obtain ⟨query, -⟩ := List.forall₂_cons.mp others
  have leaves : petBody.LeavesTypeToSchema := by
    intro name member
    simp only [List.mem_cons, List.not_mem_nil, or_false] at member
    rcases member with rfl | rfl | rfl <;> exact ⟨_, rfl, rfl⟩
  have succeeds : findPets.operation.Succeeds (.map [(.text "schema", petSchema)]) :=
    .byNumber rfl rfl rfl rfl rfl
  refine ⟨_, _, returned, body, query, body.body rfl leaves findPets _ succeeds rfl, ?_, ?_⟩
  · exact putIn [] idCookie _ rfl rfl (Or.inl rfl)
  · exact takenOut [idCookie, petBody, idQuery] idHeader [] rfl
      (Or.inr ⟨idQuery, by simp, rfl, rfl⟩)

end ApiCatalog
