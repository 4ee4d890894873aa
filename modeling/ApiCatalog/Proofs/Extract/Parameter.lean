import ApiCatalog.Proofs.Extract.Declaration
import ApiCatalog.Proofs.Extract.SchemaType
import ApiCatalog.Proofs.Extract.Selection

/-!
Parameters of an operation. Those with a known location are kept, the first one of each name.
Names are compared as the document has them, before bytes are read as text, so two kept parameters
have one name exactly if the one is named by a text and the other by the bytes of that text.
-/

namespace ApiCatalog

def Value.givenName (parameter : Value) : Value :=
  (parameter.fieldOr "name" .emptyText).toOption.getD .null

def Value.givenPlace (parameter : Value) : Option Location :=
  (parameter.fieldOr "in" (.text "query")).toOption.bind Location.ofValue?

theorem Value.givenName_eq {parameter name : Value}
    (read : parameter.fieldOr "name" .emptyText = .ok name) : parameter.givenName = name := by
  rw [Value.givenName, read]
  rfl

theorem Value.givenPlace_eq {parameter place : Value}
    (read : parameter.fieldOr "in" (.text "query") = .ok place) :
    parameter.givenPlace = Location.ofValue? place := by
  rw [Value.givenPlace, read]
  rfl

section
variable {origin : String} {seen rest : List Value} {parameter : Value}

theorem Property.ofParameters_cons (mapping : parameter.isMap = true) :
    ∃ place, Property.ofParameters origin seen (parameter :: rest) =
      match parameter.givenPlace with
      | none => do
        Traced.remark (.skippedParameter parameter.givenName place)
        Property.ofParameters origin seen rest
      | some location =>
        if !parameter.givenName.isKey then Traced.fail .wrongKind
        else if seen.any (Value.same parameter.givenName) then do
          Traced.remark (.duplicateParameter parameter.givenName)
          Property.ofParameters origin seen rest
        else do
          let property ← Property.ofParameter origin parameter.givenName location parameter
          let more ← Property.ofParameters origin (parameter.givenName :: seen) rest
          return property :: more := by
  obtain ⟨name, hname⟩ := Value.exists_fieldOr_of_isMap mapping "name" .emptyText
  obtain ⟨place, hplace⟩ := Value.exists_fieldOr_of_isMap mapping "in" (.text "query")
  refine ⟨place, ?_⟩
  rewrite [Property.ofParameters, hname, Traced.ok_bind, hplace, Traced.ok_bind,
    Value.givenName_eq hname, Value.givenPlace_eq hplace]
  rfl

theorem Property.outcome_ofParameters_cons_of_not_isMap (other : ¬ parameter.isMap = true) :
    (Property.ofParameters origin seen (parameter :: rest)).outcome = .error .noOperation := by
  rw [Property.ofParameters, Traced.outcome_bind, Traced.outcome_lift,
    Value.fieldOr_of_not_isMap other]
  rfl

theorem Property.isMap_of_ofParameters_cons {parameters : List Property}
    (returned : (Property.ofParameters origin seen (parameter :: rest)).outcome =
      .ok parameters) : parameter.isMap = true := by
  by_cases mapping : parameter.isMap = true
  · exact mapping
  · rw [Property.outcome_ofParameters_cons_of_not_isMap mapping] at returned
    cases returned

end

def firstParameters (seen listed : List Value) : List Value :=
  keepFirst Value.same Value.givenName seen (listed.filter fun p => p.givenPlace.isSome)

def Property.MadeFrom (origin : String) (parameter : Value) (p : Property) : Prop :=
  ∃ location, parameter.givenPlace = some location ∧
    (Property.ofParameter origin parameter.givenName location parameter).outcome = .ok p

theorem firstParameters_cons_of_none {seen rest : List Value} {parameter : Value}
    (unknown : parameter.givenPlace = none) :
    firstParameters seen (parameter :: rest) = firstParameters seen rest := by
  simp [firstParameters, unknown]

theorem firstParameters_cons_of_some {seen rest : List Value} {parameter : Value}
    {location : Location} (known : parameter.givenPlace = some location) :
    firstParameters seen (parameter :: rest) =
      if seen.any (Value.same parameter.givenName) then firstParameters seen rest
      else parameter :: firstParameters (parameter.givenName :: seen) rest := by
  simp [firstParameters, known, keepFirst]

/-- How a row of parameters becomes properties: those without a known location are passed over with
a remark, and so are those whose name was seen before. -/
inductive Property.Walks (origin : String) :
    List Value → List Value → List Property → List Remark → Prop
  | nil {seen : List Value} : Walks origin seen [] [] []
  | placeless {seen rest : List Value} {parameter place : Value} {parameters : List Property}
      {remarks : List Remark} (unknown : parameter.givenPlace = none)
      (walks : Walks origin seen rest parameters remarks) :
      Walks origin seen (parameter :: rest) parameters
        (.skippedParameter parameter.givenName place :: remarks)
  | duplicate {seen rest : List Value} {parameter : Value} {location : Location}
      {parameters : List Property} {remarks : List Remark}
      (known : parameter.givenPlace = some location)
      (already : seen.any (Value.same parameter.givenName) = true)
      (walks : Walks origin seen rest parameters remarks) :
      Walks origin seen (parameter :: rest) parameters
        (.duplicateParameter parameter.givenName :: remarks)
  | kept {seen rest : List Value} {parameter : Value} {location : Location} {p : Property}
      {parameters : List Property} {remarks : List Remark}
      (known : parameter.givenPlace = some location)
      (fresh : ¬ seen.any (Value.same parameter.givenName) = true)
      (made : (Property.ofParameter origin parameter.givenName location parameter).outcome = .ok p)
      (walks : Walks origin (parameter.givenName :: seen) rest parameters remarks) :
      Walks origin seen (parameter :: rest) (p :: parameters)
        ((Property.ofParameter origin parameter.givenName location parameter).remarks ++ remarks)

theorem Property.walks_of_ofParameters {origin : String} {seen listed : List Value}
    {parameters : List Property}
    (returned : (Property.ofParameters origin seen listed).outcome = .ok parameters) :
    Property.Walks origin seen listed parameters
      (Property.ofParameters origin seen listed).remarks := by
  induction listed generalizing seen parameters with
  | nil =>
    obtain rfl := Except.ok.inj returned
    exact .nil
  | cons parameter rest ih =>
    obtain ⟨place, step⟩ := @Property.ofParameters_cons origin seen rest parameter
      (Property.isMap_of_ofParameters_cons returned)
    rw [step] at returned ⊢
    cases known : parameter.givenPlace with
    | none =>
      simp only [known] at returned ⊢
      obtain ⟨_, remarked, returned⟩ := Traced.outcome_bind_eq_ok_iff.mp returned
      rw [Traced.remarks_bind remarked]
      exact .placeless known (ih returned)
    | some location =>
      simp only [known] at returned ⊢
      split at returned
      · simp [Traced.fail] at returned
      · rename_i isKey
        rw [if_neg isKey]
        split at returned
        · rename_i already
          obtain ⟨_, remarked, returned⟩ := Traced.outcome_bind_eq_ok_iff.mp returned
          rw [if_pos already, Traced.remarks_bind remarked]
          exact .duplicate known already (ih returned)
        · rename_i fresh
          obtain ⟨property, made, returned⟩ := Traced.outcome_bind_eq_ok_iff.mp returned
          obtain ⟨more, hmore, same⟩ := Traced.outcome_bind_eq_ok_iff.mp returned
          obtain rfl := Except.ok.inj same
          rw [if_neg fresh, Traced.remarks_bind made, Traced.remarks_bind hmore,
            Traced.remarks_pure, List.append_nil]
          exact .kept known fresh made (ih hmore)

theorem Property.Walks.madeFrom {origin : String} {seen listed : List Value}
    {parameters : List Property} {remarks : List Remark}
    (walks : Property.Walks origin seen listed parameters remarks) :
    List.Forall₂ (Property.MadeFrom origin) (firstParameters seen listed) parameters := by
  induction walks with
  | nil => exact .nil
  | placeless unknown _ ih =>
    rw [firstParameters_cons_of_none unknown]
    exact ih
  | duplicate known already _ ih =>
    rw [firstParameters_cons_of_some known, if_pos already]
    exact ih
  | kept known fresh made _ ih =>
    rw [firstParameters_cons_of_some known, if_neg fresh]
    exact .cons ⟨_, known, made⟩ ih

theorem Property.of_ofParameters {origin : String} {seen listed : List Value}
    {parameters : List Property}
    (returned : (Property.ofParameters origin seen listed).outcome = .ok parameters) :
    List.Forall₂ (Property.MadeFrom origin) (firstParameters seen listed) parameters :=
  (Property.walks_of_ofParameters returned).madeFrom

theorem Property.MadeFrom.spec {origin : String} {parameter : Value} {p : Property}
    (made : Property.MadeFrom origin parameter p) :
    ∃ schema, parameterSchema parameter = .ok schema ∧ p.location = parameter.givenPlace ∧
      Check.text parameter.givenName = .valid p.name ∧
      (DataType.ofSchema schema "" origin (p.location == some .body)).outcome = .ok p.dataType := by
  obtain ⟨location, placed, returned⟩ := made
  unfold Property.ofParameter at returned
  simp only [Traced.outcome_bind_eq_ok_iff, Traced.outcome_lift] at returned
  obtain ⟨schema, hschema, _, -, _, -, dataType, typed, checked⟩ := returned
  obtain ⟨named, rfl, located⟩ := Property.of_checked checked
  refine ⟨schema, hschema, located.trans placed.symm, named, ?_⟩
  rw [located]
  exact typed

/-- One value is a text and the other the bytes of that text. -/
def Value.SpellsAlike (a b : Value) : Prop :=
  ∃ s content, a = .text s ∧ b = .bytes content ∧ Text.ofUtf8? content = some s

theorem toByteArray_of_ofUtf8? {content : List UInt8} {s : String}
    (read : Text.ofUtf8? content = some s) : s.toByteArray = ⟨content.toArray⟩ := by
  unfold Text.ofUtf8? String.fromUTF8? at read
  split at read
  · obtain rfl := Option.some.inj read
    rfl
  · simp at read

theorem same_or_spellsAlike {a b : Value} {s : String} (first : Check.text a = .valid s)
    (second : Check.text b = .valid s) :
    Value.same b a = true ∨ a.SpellsAlike b ∨ b.SpellsAlike a := by
  have textOrBytes {value : Value} (read : Check.text value = .valid s) :
      value = .text s ∨ ∃ content, value = .bytes content ∧ Text.ofUtf8? content = some s := by
    unfold Check.text at read
    split at read
    · cases read
      exact Or.inl rfl
    · rename_i content
      split at read
      · rename_i decoded
        cases read
        exact Or.inr ⟨content, rfl, decoded⟩
      · simp [Checked.flaw] at read
    · simp [Checked.flaw] at read
  rcases textOrBytes first with rfl | ⟨content, rfl, decoded⟩
  · rcases textOrBytes second with rfl | ⟨other, rfl, read⟩
    · exact Or.inl (by simp [Value.same])
    · exact Or.inr (Or.inl ⟨s, other, rfl, rfl, read⟩)
  · rcases textOrBytes second with rfl | ⟨other, rfl, read⟩
    · exact Or.inr (Or.inr ⟨s, content, rfl, rfl, decoded⟩)
    · have equal := (toByteArray_of_ofUtf8? decoded).symm.trans (toByteArray_of_ofUtf8? read)
      obtain rfl : content = other := by simpa using equal
      exact Or.inl (by simp [Value.same])

theorem Value.SpellsAlike.read {a b : Value} {s t : String} (alike : a.SpellsAlike b)
    (first : Check.text a = .valid s) (second : Check.text b = .valid t) : s = t := by
  obtain ⟨text, content, rfl, rfl, decoded⟩ := alike
  simp only [Check.text, decoded, Checked.valid.injEq] at first second
  exact first.symm.trans second

theorem Value.SpellsAlike.irrefl {a : Value} : ¬ a.SpellsAlike a := by
  rintro ⟨s, content, rfl, same, -⟩
  exact Value.noConfusion same

theorem Property.MadeFrom.name_eq_iff {origin : String} {a b : Value} {p q : Property}
    (first : Property.MadeFrom origin a p) (second : Property.MadeFrom origin b q)
    (apart : Value.same b.givenName a.givenName = false) :
    p.name = q.name ↔ a.givenName.SpellsAlike b.givenName ∨ b.givenName.SpellsAlike a.givenName := by
  obtain ⟨-, -, -, named, -⟩ := first.spec
  obtain ⟨-, -, -, namedToo, -⟩ := second.spec
  constructor
  · intro same
    refine (same_or_spellsAlike named (same ▸ namedToo)).resolve_left fun equal => ?_
    exact Bool.noConfusion (apart.symm.trans equal)
  · rintro (alike | alike)
    · exact alike.read named namedToo
    · exact (alike.read namedToo named).symm

theorem nodup_names_iff {origin : String} {sources : List Value} {parameters : List Property}
    (made : List.Forall₂ (Property.MadeFrom origin) sources parameters)
    (distinct : sources.Pairwise fun a b => Value.same b.givenName a.givenName = false) :
    (parameters.map Property.name).Nodup ↔
      ∀ a ∈ sources, ∀ b ∈ sources, ¬ a.givenName.SpellsAlike b.givenName := by
  induction made with
  | nil => simp
  | @cons x p xs ps first others ih =>
    obtain ⟨apart, distinct⟩ := List.pairwise_cons.mp distinct
    rw [List.map_cons, List.nodup_cons, ih distinct]
    constructor
    · rintro ⟨absent, inner⟩
      have outer : ∀ b ∈ xs, ¬ (x.givenName.SpellsAlike b.givenName ∨
          b.givenName.SpellsAlike x.givenName) := by
        intro b member alike
        obtain ⟨q, inside, madeQ⟩ := forall₂_exists_right others member
        have same := (first.name_eq_iff madeQ (apart b member)).mpr alike
        exact absent (same ▸ List.mem_map_of_mem inside)
      intro a memberA b memberB
      rcases List.mem_cons.mp memberA with rfl | laterA
      · rcases List.mem_cons.mp memberB with rfl | laterB
        · exact Value.SpellsAlike.irrefl
        · exact fun alike => outer b laterB (.inl alike)
      · rcases List.mem_cons.mp memberB with rfl | laterB
        · exact fun alike => outer a laterA (.inr alike)
        · exact inner a laterA b laterB
    · intro unlike
      refine ⟨fun member => ?_, fun a memberA b memberB =>
        unlike a (List.mem_cons_of_mem _ memberA) b (List.mem_cons_of_mem _ memberB)⟩
      obtain ⟨q, inside, same⟩ := List.mem_map.mp member
      obtain ⟨b, memberB, madeQ⟩ := forall₂_exists_left others inside
      have later := List.mem_cons_of_mem x memberB
      rcases (first.name_eq_iff madeQ (apart b memberB)).mp same.symm with alike | alike
      · exact unlike x List.mem_cons_self b later alike
      · exact unlike b later x List.mem_cons_self alike

end ApiCatalog
