import ApiCatalog.Document.Access
import ApiCatalog.Proofs.Extract.Outcome

/-!
What documents give under a key. Mappings, and nothing else, can be asked for a key; an alternative
steps in for a value that counts as false.
-/

namespace ApiCatalog.Value

section
variable {value key : Value} {name : String}

theorem isMap_of_lookup? {found : Option Value} (looked : value.lookup? key = .ok found) :
    value.isMap = true := by
  unfold lookup? at looked
  unfold isMap
  split at looked
  · rfl
  · cases looked

theorem isMap_of_field {found : Value} (read : value.field name = .ok found) :
    value.isMap = true := by
  obtain ⟨entry, looked, -⟩ := Outcome.map_eq_ok_iff.mp read
  exact isMap_of_lookup? looked

theorem exists_lookup?_of_isMap (mapping : value.isMap = true) (key : Value) :
    ∃ found, value.lookup? key = .ok found := by
  unfold isMap at mapping
  unfold lookup?
  split at mapping
  · exact ⟨_, rfl⟩
  · exact absurd mapping Bool.false_ne_true

theorem exists_fieldOr_of_isMap (mapping : value.isMap = true) (name : String) (absent : Value) :
    ∃ found, value.fieldOr name absent = .ok found := by
  obtain ⟨found, looked⟩ := exists_lookup?_of_isMap mapping (.text name)
  exact ⟨_, Outcome.map_eq_ok_iff.mpr ⟨found, looked, rfl⟩⟩

theorem exists_field_of_isMap (mapping : value.isMap = true) (name : String) :
    ∃ found, value.field name = .ok found :=
  exists_fieldOr_of_isMap mapping name .null

theorem fieldOr_of_not_isMap (other : ¬ value.isMap = true) (name : String) (absent : Value) :
    value.fieldOr name absent = .error .noOperation := by
  unfold isMap at other
  unfold fieldOr lookup?
  split at other
  · exact absurd rfl other
  · rfl

end

section
variable {value : Value}

theorem orElse_text {target : String} (nonempty : target ≠ "") (other : Value) :
    (Value.text target).orElse other = .text target := by
  simp [orElse, truthy, nonempty]

theorem orElse_of_truthy (filled : value.truthy = true) (other : Value) :
    value.orElse other = value := by
  simp [orElse, filled]

theorem orElse_of_not_truthy (nothing : value.truthy = false) (other : Value) :
    value.orElse other = other := by
  simp [orElse, nothing]

theorem eq_emptyMap_of_not_truthy (nothing : value.truthy = false) (mapping : value.isMap = true) :
    value = .emptyMap := by
  cases value with
  | map entries =>
    obtain rfl : entries = [] := by simpa [truthy] using nothing
    rfl
  | knot label body => cases nothing
  | _ => cases mapping

theorem orElse_emptyMap_of_isMap (mapping : value.isMap = true) :
    value.orElse .emptyMap = value := by
  cases counts : value.truthy with
  | true => exact orElse_of_truthy counts .emptyMap
  | false => rw [orElse_of_not_truthy counts, eq_emptyMap_of_not_truthy counts mapping]

end
end ApiCatalog.Value
