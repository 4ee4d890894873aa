import ApiCatalog.Model.Check

/-!
Checks on values that were written as JSON. A record of such a value is checked by its members, and
a list of them item by item.
-/

namespace ApiCatalog

theorem Value.ofItems_eq_map (items : List Json) :
    Value.ofJson.ofItems items = items.map Value.ofJson := by
  induction items with
  | nil => rfl
  | cons item items inner => rw [Value.ofJson.ofItems, inner, List.map_cons]

namespace Checked

@[simp] theorem under_valid {α : Type} (step : Step) (x : α) :
    (Checked.valid x).under step = .valid x := rfl

theorem eachFrom_map {α β γ : Type} {check : β → Checked γ} {f : α → β} {g : α → γ} {xs : List α}
    (back : ∀ x ∈ xs, check (f x) = .valid (g x)) (place : Nat) :
    eachFrom check place (xs.map f) = .valid (xs.map g) := by
  induction xs generalizing place with
  | nil => rfl
  | cons x xs inner =>
    have first := back x List.mem_cons_self
    have others := inner (fun y member => back y (List.mem_cons_of_mem _ member)) (place + 1)
    rw [List.map_cons, eachFrom, first, others]
    rfl

end Checked

namespace Check

theorem findEntry_ofMembers (name : String) (members : List (String × Json)) :
    findEntry (Value.same (.text name)) (Value.ofJson.ofMembers members) =
      (findEntry (name == ·) members).map Value.ofJson := by
  induction members with
  | nil => rfl
  | cons member members inner =>
    obtain ⟨key, value⟩ := member
    unfold findEntry at inner ⊢
    rw [Value.ofJson.ofMembers, List.find?_cons, List.find?_cons]
    by_cases same : (name == key) = true
    · simp [Value.same, same]
    · simpa [Value.same, same] using inner

section Fields

variable {α : Type} {members : List (String × Json)} {name : String} {form : Json}
  {check : Value → Checked α} {x : α}

theorem field_toJson (found : findEntry (name == ·) members = some form) (absent : α)
    (back : check (Value.ofJson form) = .valid x) :
    field (Value.ofJson.ofMembers members) name absent check = .valid x := by
  simp [field, findEntry_ofMembers, found, back]

theorem requiredField_toJson (found : findEntry (name == ·) members = some form)
    (back : check (Value.ofJson form) = .valid x) :
    requiredField (Value.ofJson.ofMembers members) name check = .valid x := by
  simp [requiredField, findEntry_ofMembers, found, back]

end Fields

theorem list_toJson {α : Type} {check : Value → Checked α} {form : α → Json} {xs : List α}
    (back : ∀ x ∈ xs, check (Value.ofJson (form x)) = .valid x) :
    list check (Value.ofJson (.list (xs.map form))) = .valid xs := by
  have each := @Checked.eachFrom_map _ _ _ check (fun x => Value.ofJson (form x)) id xs back 0
  rw [List.map_id] at each
  rw [Value.ofJson, Value.ofItems_eq_map, List.map_map]
  exact each

theorem record_toJson {α : Type} (read : List (Value × Value) → Checked α)
    (members : List (String × Json)) :
    record read (Value.ofJson (.object members)) = read (Value.ofJson.ofMembers members) := rfl

theorem text_toJson (s : String) : text (Value.ofJson (.string s)) = .valid s := rfl

theorem bool_toJson (b : Bool) : bool (Value.ofJson (.bool b)) = .valid b := rfl

end Check
end ApiCatalog
