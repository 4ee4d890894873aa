import ApiCatalog.Proofs.Extract.SafeEnum
import ApiCatalog.Proofs.Number.ShownWhole

/-!
Enumerations that go through a second time. A listed double that is whole keeps the number equal to
it from becoming a twin, but is dropped itself, since its text is no identifier; the second time the
number is added. Nothing else changes, and a third time nothing does.
-/

namespace ApiCatalog.EnumMember

open Number

def toValue : EnumMember → Value
  | .text s => .text s
  | .bool b => .bool b
  | .int n => .int n
  | .float x => .float x

theorem filterMap_ofValue?_toValue (members : List EnumMember) :
    (members.map toValue).filterMap ofValue? = members := by
  induction members with
  | nil => rfl
  | cons member rest ih =>
    have back : ofValue? member.toValue = some member := by cases member <;> rfl
    rw [List.map_cons, List.filterMap_cons_some back, ih]

theorem isSafe_float_of_toInt? {x : Double} {n : Int} (whole : x.toInt? = some n) :
    (EnumMember.float x).isSafe ≠ true := by
  intro safe
  obtain ⟨-, each⟩ := (isSafe_iff _).mp safe
  have shown : '.' ∈ messageLayout.text x ∨ '+' ∈ messageLayout.text x :=
    DecimalLayout.mem_text_of_toInt? (by decide) (by decide) whole
  rcases shown with point | plus
  · exact absurd (each '.' point) (by decide)
  · exact absurd (each '+' plus) (by decide)

/-- The double keeps back a number that a safe member denotes and that is not listed. -/
structure HoldsBack (members : List EnumMember) (x : Double) (n : Int) : Prop where
  denoted : ∃ member ∈ members, member.isSafe = true ∧ member.number? = .ok (some (.int n))
  listed : .float x ∈ members
  equal : x.toInt? = some n
  missing : .int n ∉ members

section Again

variable {members safe : List EnumMember} (returned : sanitize members = .ok safe)

include returned

theorem not_isBeyond_of_sanitize : ∀ member ∈ members, ¬ member.IsBeyond := by
  intro member inside beyond
  cases (sanitize_of_isBeyond ⟨member, inside, beyond⟩).symm.trans returned

theorem exists_sanitize_again : ∃ again, sanitize safe = .ok again := by
  obtain ⟨twins, -, holds, rfl⟩ := of_sanitize returned
  apply exists_sanitize
  intro member inside beyond
  rcases List.mem_append.mp inside with listed | twin
  · exact not_isBeyond_of_sanitize returned member (List.mem_of_mem_filter listed) beyond
  · obtain ⟨other, -, denotes⟩ := holds.denoted member (List.mem_of_mem_filter twin)
    cases (number?_of_isBeyond beyond).symm.trans (number?_of_number? denotes)

theorem of_sanitize_again {again : List EnumMember} (repeated : sanitize safe = .ok again) :
    ∃ twins, again = safe ++ twins.filter isSafe ∧ Twins safe safe twins := by
  obtain ⟨twins, -, holds, rfl⟩ := of_sanitize repeated
  obtain ⟨first, -, -, same⟩ := of_sanitize returned
  have kept : safe.filter isSafe = safe := by
    rw [same, ← List.filter_append, List.filter_filter]
    simp only [Bool.and_self]
  exact ⟨twins, by rw [kept], holds⟩

theorem toInt?_of_float_mem {x : Double} (inside : .float x ∈ safe) : x.toInt? = none := by
  obtain ⟨twins, -, -, rfl⟩ := of_sanitize returned
  rw [← List.filter_append] at inside
  by_contra whole
  obtain ⟨n, same⟩ := Option.ne_none_iff_exists'.mp whole
  exact isSafe_float_of_toInt? same (List.mem_filter.mp inside).2

theorem mem_of_number? (free : ∀ x n, ¬ HoldsBack members x n) {member number : EnumMember}
    (inside : member ∈ safe) (denotes : member.number? = .ok (some number))
    (fit : number.isSafe = true) : number ∈ safe := by
  obtain ⟨twins, -, holds, rfl⟩ := of_sanitize returned
  rw [← List.filter_append] at inside ⊢
  obtain ⟨position, safeMember⟩ := List.mem_filter.mp inside
  refine List.mem_filter.mpr ⟨?_, fit⟩
  rcases List.mem_append.mp position with listed | twin
  · have counts := isNumber_of_number? denotes
    cases number with
    | int n =>
      rcases int_mem_of_number? holds listed denotes with found | ⟨x, there, equal⟩
      · exact found
      · by_contra missing
        have absent := fun known => missing (List.mem_append_left twins known)
        exact free x n ⟨⟨member, listed, safeMember, denotes⟩, there, equal, absent⟩
    | float x =>
      obtain ⟨found, there, same⟩ := holds.complete member listed _ denotes
      cases found with
      | int n => cases counts.2.symm.trans (beq_iff_eq.mp same)
      | float y => exact eq_of_sameDouble counts.2 same counts.1 ▸ there
      | _ => cases same
    | _ => exact counts.elim
  · obtain ⟨other, -, denotesToo⟩ := holds.denoted member twin
    obtain rfl := Option.some.inj (Except.ok.inj
      ((number?_of_number? denotesToo).symm.trans denotes))
    exact position

theorem sanitize_eq_self_of_free (free : ∀ x n, ¬ HoldsBack members x n) :
    sanitize safe = .ok safe := by
  obtain ⟨again, repeated⟩ := exists_sanitize_again returned
  obtain ⟨twins, rfl, holds⟩ := of_sanitize_again returned repeated
  have nothing : twins.filter isSafe = [] := by
    rw [List.filter_eq_nil_iff]
    intro twin inside fit
    obtain ⟨member, position, denotes⟩ := holds.denoted twin inside
    have there := mem_of_number? returned free position denotes fit
    cases (holds.fresh twin inside twin there).symm.trans
      (sameNumber_self (isNumber_of_number? denotes))
  rw [repeated, nothing, List.append_nil]

theorem sanitize_ne_self_of_holdsBack {x : Double} {n : Int} (kept : HoldsBack members x n) :
    sanitize safe ≠ .ok safe := by
  intro same
  obtain ⟨twins, unchanged, holds⟩ := of_sanitize_again returned same
  obtain ⟨member, inside, fit, denotes⟩ := kept.denoted
  have position : member ∈ safe := by
    obtain ⟨first, -, -, rfl⟩ := of_sanitize returned
    exact List.mem_append_left _ (List.mem_filter.mpr ⟨inside, fit⟩)
  have nothing : twins.filter isSafe = [] := List.self_eq_append_right.mp unchanged
  have there : .int n ∈ safe := by
    rcases int_mem_of_number? holds position denotes with found | ⟨y, known, equal⟩
    · rcases List.mem_append.mp found with known | twin
      · exact known
      · exact absurd (List.mem_filter.mpr ⟨twin, isSafe_int n⟩) (nothing ▸ List.not_mem_nil)
    · cases (toInt?_of_float_mem returned known).symm.trans equal
  obtain ⟨first, -, holdsFirst, rfl⟩ := of_sanitize returned
  rcases List.mem_append.mp there with known | twin
  · exact kept.missing (List.mem_of_mem_filter known)
  · have apart := holdsFirst.fresh _ (List.mem_of_mem_filter twin) _ kept.listed
    rw [sameNumber, Double.isInt, kept.equal] at apart
    cases apart.symm.trans (beq_self_eq_true (some n))

theorem sanitize_eq_self_iff : sanitize safe = .ok safe ↔ ∀ x n, ¬ HoldsBack members x n :=
  ⟨fun same _ _ kept => sanitize_ne_self_of_holdsBack returned kept same,
    sanitize_eq_self_of_free returned⟩

theorem sanitize_again_eq_self {again : List EnumMember} (repeated : sanitize safe = .ok again) :
    sanitize again = .ok again := by
  apply sanitize_eq_self_of_free repeated
  intro x n kept
  cases (toInt?_of_float_mem returned kept.listed).symm.trans kept.equal

end Again

/-- An enumeration goes through unchanged a second time unless a listed double holds a number back,
and in any case a third time. -/
theorem ofListed_map_toValue {listed : Value} {items : List Value}
    (isList : listed.opened = .list items) {safe : List EnumMember}
    (returned : ofListed listed = .ok (some safe)) :
    (ofListed (.list (safe.map toValue)) = .ok (some safe) ↔
      ∀ member ∈ items.filterMap ofValue?, IsIdentifierSafe member.label →
        ∀ n, member.number? = .ok (some (.int n)) →
          ∀ x, .float x ∈ items → x.toInt? = some n → .int n ∈ items) ∧
      ∃ again, ofListed (.list (safe.map toValue)) = .ok (some again) ∧
        ofListed (.list (again.map toValue)) = .ok (some again) := by
  have passes (members result : List EnumMember) :
      ofListed (.list (members.map toValue)) = .ok (some result) ↔
        sanitize members = .ok result := by
    rw [ofListed_eq_sanitize rfl, filterMap_ofValue?_toValue, Outcome.map_eq_ok_iff]
    simp
  rw [ofListed_eq_sanitize (Value.members_of_opened isList)] at returned
  obtain ⟨result, sanitized, same⟩ := Outcome.map_eq_ok_iff.mp returned
  obtain rfl := Option.some.inj same
  simp only [passes]
  constructor
  · rw [sanitize_eq_self_iff sanitized]
    constructor
    · intro free member inside fit n denotes x known equal
      by_contra missing
      refine free x n ⟨⟨member, inside, (isSafe_iff member).mpr fit, denotes⟩, ?_, equal, ?_⟩
      · exact float_mem_scalars_iff.mpr known
      · exact mt int_mem_scalars_iff.mp missing
    · rintro closed x n ⟨⟨member, inside, fit, denotes⟩, known, equal, missing⟩
      exact missing (int_mem_scalars_iff.mpr (closed member inside ((isSafe_iff member).mp fit) n
        denotes x (float_mem_scalars_iff.mp known) equal))
  · obtain ⟨again, repeated⟩ := exists_sanitize_again sanitized
    exact ⟨again, repeated, sanitize_again_eq_self sanitized repeated⟩

theorem ofListed_changes_again_of_whole_double :
    ∃ safe, ofListed (.list [.float (Double.ofQuanta false unit 1), .text "1"]) = .ok (some safe) ∧
      ofListed (.list (safe.map toValue)) ≠ .ok (some safe) := by
  have returned : ofListed (.list [.float (Double.ofQuanta false unit 1), .text "1"]) =
      .ok (some [.text "1"]) := Outcome.eq_ok_of_toOption (by decide +kernel)
  refine ⟨[.text "1"], returned, fun same => ?_⟩
  have closed := (@ofListed_map_toValue (.list _) _ rfl _ returned).1.mp same (.text "1")
    (by decide +kernel) (by decide)
  have denotes : (EnumMember.text "1").number? = .ok (some (.int 1)) :=
    number?_text (by decide) (by decide +kernel)
  have listed := closed 1 denotes (Double.ofQuanta false unit 1) List.mem_cons_self
    (by decide +kernel)
  simp at listed

end ApiCatalog.EnumMember
