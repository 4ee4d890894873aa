import ApiCatalog.Extract.DataType
import ApiCatalog.Proofs.Document.Access

/-!
Data types of schemas. A reference leaves no primitive shape, and the members of an enumeration are
fit for identifiers.
-/

namespace ApiCatalog

/-- A text of ASCII letters, digits, low lines, dashes and dollar signs, at least one of them. -/
def IsIdentifierSafe (label : List Char) : Prop :=
  label ≠ [] ∧ ∀ c ∈ label, ('a' ≤ c ∧ c ≤ 'z') ∨ ('A' ≤ c ∧ c ≤ 'Z') ∨ ('0' ≤ c ∧ c ≤ '9') ∨
    c = '_' ∨ c = '-' ∨ c = '$'

structure DataType.IsSound (t : DataType) : Prop where
  primitive_empty : t.reference ≠ "" → t.primitive = .empty
  members_safe : ∀ members, t.enumeration = some members →
    ∀ member ∈ members, IsIdentifierSafe member.label

/-- The text that a schema refers by: its own reference, else that of its items, else nothing. -/
def Value.RefersBy (schema : Value) (raw : String) : Prop :=
  ∃ found direct ofItems, schema.field "items" = .ok found ∧ schema.field "$ref" = .ok direct ∧
    (if found.isMap = true then found else Value.emptyMap).field "$ref" = .ok ofItems ∧
    ((direct.orElse ofItems).orElse .emptyText).asText = .ok raw

/-- A schema refers to a target by itself, or through its items if it has no reference itself. -/
inductive Value.PointsTo (schema : Value) (target : String) : Prop
  | direct (own : schema.field "$ref" = .ok (.text target))
  | items {absent items : Value} (own : schema.field "$ref" = .ok absent)
      (nothing : absent.truthy = false) (found : schema.field "items" = .ok items)
      (mapping : items.isMap = true) (inner : items.field "$ref" = .ok (.text target))

theorem exists_schemaType {schema : Value} (mapping : schema.isMap = true) :
    ∃ name, schemaType schema = .ok name := by
  obtain ⟨found, hfound⟩ := Value.exists_field_of_isMap mapping "type"
  rw [schemaType, hfound]
  cases found <;> exact ⟨_, rfl⟩

theorem Value.PointsTo.eq_of_refersBy {schema : Value} {target raw : String}
    (points : schema.PointsTo target) (nonempty : target ≠ "") (refers : schema.RefersBy raw) :
    raw = target := by
  obtain ⟨found, direct, ofItems, hfound, hdirect, hitems, hraw⟩ := refers
  cases points with
  | direct own =>
    obtain rfl := Except.ok.inj (own.symm.trans hdirect)
    simpa [Value.orElse_text nonempty, Value.asText, eq_comm] using hraw
  | items own nothing hitem mapping inner =>
    obtain rfl := Except.ok.inj (own.symm.trans hdirect)
    obtain rfl := Except.ok.inj (hitem.symm.trans hfound)
    rw [if_pos mapping] at hitems
    obtain rfl := Except.ok.inj (inner.symm.trans hitems)
    simpa [Value.orElse_of_not_truthy nothing, Value.orElse_text nonempty, Value.asText,
      eq_comm] using hraw

theorem Value.PointsTo.isMap {schema : Value} {target : String}
    (points : schema.PointsTo target) : schema.isMap = true := by
  cases points with
  | direct own => exact Value.isMap_of_field own
  | items own => exact Value.isMap_of_field own

theorem Value.PointsTo.refersBy {schema : Value} {target : String}
    (points : schema.PointsTo target) (nonempty : target ≠ "") : schema.RefersBy target := by
  obtain ⟨found, hfound⟩ := Value.exists_field_of_isMap points.isMap "items"
  have items : (if found.isMap = true then found else Value.emptyMap).isMap = true := by
    split
    · assumption
    · rfl
  obtain ⟨ofItems, hitems⟩ := Value.exists_field_of_isMap items "$ref"
  cases points with
  | direct own =>
    refine ⟨found, .text target, ofItems, hfound, own, hitems, ?_⟩
    rw [Value.orElse_text nonempty, Value.orElse_text nonempty, Value.asText]
  | @items absent inside own nothing hinside mapping inner =>
    obtain rfl := Except.ok.inj (hinside.symm.trans hfound)
    rw [if_pos mapping, inner] at hitems
    obtain rfl := Except.ok.inj hitems
    refine ⟨inside, absent, .text target, hfound, own, by rw [if_pos mapping, inner], ?_⟩
    rw [Value.orElse_of_not_truthy nothing, Value.orElse_text nonempty, Value.asText]

theorem EnumMember.isIdentifierSafe {member : EnumMember} (safe : member.isSafe = true) :
    IsIdentifierSafe member.label := by
  simp only [EnumMember.isSafe, Bool.and_eq_true, Bool.not_eq_true', List.isEmpty_eq_false_iff,
    List.all_eq_true] at safe
  refine ⟨safe.1, fun c inside => ?_⟩
  have labelChar := safe.2 c inside
  simp only [EnumMember.isLabelChar, Bool.or_eq_true, Bool.and_eq_true, decide_eq_true_eq,
    beq_iff_eq] at labelChar
  rcases labelChar with ((((digit | small) | capital) | low) | dash) | dollar
  · exact Or.inr (Or.inr (Or.inl digit))
  · exact Or.inl small
  · exact Or.inr (Or.inl capital)
  · exact Or.inr (Or.inr (Or.inr (Or.inl low)))
  · exact Or.inr (Or.inr (Or.inr (Or.inr (Or.inl dash))))
  · exact Or.inr (Or.inr (Or.inr (Or.inr (Or.inr dollar))))

theorem EnumMember.sanitize_safe {members result : List EnumMember}
    (returned : EnumMember.sanitize members = .ok result) :
    ∀ member ∈ result, IsIdentifierSafe member.label := by
  obtain ⟨combined, -, kept⟩ := Outcome.bind_eq_ok_iff.mp returned
  obtain rfl := Outcome.pure_eq_ok_iff.mp kept
  intro member inside
  exact EnumMember.isIdentifierSafe (List.mem_filter.mp inside).2

theorem EnumMember.ofListed_safe {listed : Value} {members : List EnumMember}
    (returned : EnumMember.ofListed listed = .ok (some members)) :
    ∀ member ∈ members, IsIdentifierSafe member.label := by
  unfold EnumMember.ofListed at returned
  split at returned
  · simp at returned
  · obtain ⟨items, -, sanitized⟩ := Outcome.bind_eq_ok_iff.mp returned
    obtain ⟨result, hresult, same⟩ := Outcome.map_eq_ok_iff.mp sanitized
    obtain rfl := Option.some.inj same
    exact EnumMember.sanitize_safe hresult

theorem DataType.of_ofSchema {schema : Value} {self origin : String} {always : Bool} {t : DataType}
    (returned : (DataType.ofSchema schema self origin always).outcome = .ok t) :
    (∃ raw, schema.RefersBy raw ∧
      t.reference = String.ofList (resolveReference self.toList origin.toList always raw.toList)) ∧
      t.IsSound := by
  unfold DataType.ofSchema at returned
  simp only [Traced.outcome_bind_eq_ok_iff, Traced.outcome_lift] at returned
  obtain ⟨outer, -, found, hfound, inner, -, direct, hdirect, ofItems, hitems, raw, hraw, rest⟩ :=
    returned
  have refers : schema.RefersBy raw := ⟨found, direct, ofItems, hfound, hdirect, hitems, hraw⟩
  split at rest
  · rename_i unreferenced
    simp only [Traced.outcome_bind_eq_ok_iff, Traced.outcome_lift] at rest
    obtain ⟨primitive, -, listed, -, members, hmembers, same⟩ := rest
    obtain rfl := Except.ok.inj same
    refine ⟨⟨raw, refers, rfl⟩, fun referenced => absurd unreferenced referenced, ?_⟩
    rintro known rfl
    exact EnumMember.ofListed_safe hmembers
  · simp only [Traced.outcome_bind_eq_ok_iff, Traced.outcome_lift] at rest
    obtain ⟨primitive, empty, listed, -, members, hmembers, same⟩ := rest
    obtain rfl := Except.ok.inj same
    obtain rfl := Except.ok.inj empty
    refine ⟨⟨raw, refers, rfl⟩, fun _ => rfl, ?_⟩
    rintro known rfl
    exact EnumMember.ofListed_safe hmembers

theorem DataType.outcome_ofSchema_of_pointsTo {schema : Value} {target self origin : String}
    {always : Bool} (points : schema.PointsTo target) (nonempty : target ≠ "")
    (filled : resolveReference self.toList origin.toList always target.toList ≠ []) :
    ∃ typeName listed, schemaType schema = .ok typeName ∧ schema.field "enum" = .ok listed ∧
      (DataType.ofSchema schema self origin always).outcome =
        (fun members => ⟨typeName == "array", .empty,
          String.ofList (resolveReference self.toList origin.toList always target.toList),
            members⟩) <$> EnumMember.ofListed listed := by
  obtain ⟨typeName, htype⟩ := exists_schemaType points.isMap
  obtain ⟨listed, hlisted⟩ := Value.exists_field_of_isMap points.isMap "enum"
  obtain ⟨found, direct, ofItems, hfound, hdirect, hitems, hraw⟩ := points.refersBy nonempty
  obtain ⟨inner, hinner⟩ := exists_schemaType (Value.isMap_of_field hitems)
  have given :
      String.ofList (resolveReference self.toList origin.toList always target.toList) ≠ "" := by
    simpa [String.ofList_eq_empty_iff] using filled
  refine ⟨typeName, listed, htype, hlisted, ?_⟩
  unfold DataType.ofSchema
  rw [htype, Traced.ok_bind, hfound, Traced.ok_bind]
  dsimp only
  rw [hinner, Traced.ok_bind, hdirect, Traced.ok_bind, hitems, Traced.ok_bind, hraw,
    Traced.ok_bind, if_neg given]
  change (liftM (schema.field "enum") >>= _ : Traced DataType).outcome = _
  rw [hlisted, Traced.ok_bind]
  cases EnumMember.ofListed listed <;> rfl

end ApiCatalog
