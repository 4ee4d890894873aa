import ApiCatalog.Proofs.Extract.Outcome
import Mathlib.Algebra.GroupWithZero.Nat

/-!
Remarks on what was left out. Each has wording of its own, by which it is known among the debug
records, and a computation has as many of them as its parts have.
-/

namespace ApiCatalog

inductive Omission
  | placeholderTag
  | emptyModule
  | duplicateInterface
  | placelessParameter
  | duplicateParameter
  | duplicateClass
  | danglingBody
deriving DecidableEq

def Omission.opening : Omission → String
  | .placeholderTag => "Skipping placeholder tag '"
  | .emptyModule => "Dropping module '"
  | .duplicateInterface => "Dropping duplicate interface '"
  | .placelessParameter => "Skipping parameter '"
  | .duplicateParameter => "Dropping duplicate parameter '"
  | .duplicateClass => "Dropping duplicate base class '"
  | .danglingBody => "Dropping body parameter '"

/-- Whether a remark is a debug record that opens with the words for an omission. -/
def Remark.reports (omission : Omission) (r : Remark) : Bool :=
  r.level == .debug && omission.opening.toList.isPrefixOf r.message.toList

def Remark.omission? : Remark → Option Omission
  | .placeholderTag _ => some .placeholderTag
  | .emptyModule _ => some .emptyModule
  | .duplicateInterface _ => some .duplicateInterface
  | .skippedParameter _ _ => some .placelessParameter
  | .duplicateParameter _ => some .duplicateParameter
  | .duplicateClass _ => some .duplicateClass
  | .danglingBody _ _ _ => some .danglingBody
  | .unknownType _ => none
  | .summary _ _ => none

theorem Omission.eq_of_opening_prefix {a b : Omission}
    (starts : a.opening.toList <+: b.opening.toList) : a = b := by
  revert starts
  cases a <;> cases b <;> decide

theorem Omission.opening_prefix_append {a b : Omission} {rest : List Char}
    (starts : a.opening.toList <+: b.opening.toList ++ rest) : a = b := by
  rcases List.prefix_or_prefix_of_prefix starts (List.prefix_append _ rest) with inside | inside
  · exact Omission.eq_of_opening_prefix inside
  · exact (Omission.eq_of_opening_prefix inside).symm

theorem Omission.not_opening_prefix_unknownType (omission : Omission) (rest : List Char) :
    ¬ omission.opening.toList <+: "Unknown schema type '".toList ++ rest := by
  intro starts
  rcases List.prefix_or_prefix_of_prefix starts (List.prefix_append _ rest) with inside | inside
  · revert inside
    cases omission <;> decide
  · revert inside
    cases omission <;> decide

theorem Remark.message_of_omission? {r : Remark} {omission : Omission}
    (known : r.omission? = some omission) :
    r.level = .debug ∧ ∃ rest, r.message = omission.opening ++ rest := by
  cases r with
  | unknownType _ => cases known
  | summary _ _ => cases known
  | placeholderTag name =>
    cases known
    exact ⟨rfl, name.shown ++ "'", String.append_assoc ..⟩
  | emptyModule name =>
    cases known
    exact ⟨rfl, name ++ "' without interfaces", String.append_assoc ..⟩
  | duplicateInterface name =>
    cases known
    exact ⟨rfl, name ++ "'", String.append_assoc ..⟩
  | duplicateParameter name =>
    cases known
    exact ⟨rfl, name.shown ++ "'", String.append_assoc ..⟩
  | duplicateClass name =>
    cases known
    exact ⟨rfl, name ++ "'", String.append_assoc ..⟩
  | skippedParameter name location =>
    cases known
    refine ⟨rfl, name.shown ++ ("' with unknown location '" ++ (location.shown ++ "'")), ?_⟩
    simp only [← String.append_assoc]
    rfl
  | danglingBody parameter reference model =>
    cases known
    refine ⟨rfl, parameter ++ ("' of '" ++ (reference ++ ("': model '" ++ (model ++
      "' is not declared")))), ?_⟩
    simp only [← String.append_assoc]
    rfl

theorem Remark.reports_iff {r : Remark} {omission : Omission} :
    r.reports omission = true ↔ r.omission? = some omission := by
  simp only [Remark.reports, Bool.and_eq_true, beq_iff_eq, List.isPrefixOf_iff_prefix]
  cases known : r.omission? with
  | some other =>
    obtain ⟨level, rest, whole⟩ := Remark.message_of_omission? known
    rw [whole, String.toList_append, Option.some.injEq]
    constructor
    · rintro ⟨-, starts⟩
      exact (Omission.opening_prefix_append starts).symm
    · rintro rfl
      exact ⟨level, List.prefix_append _ _⟩
  | none =>
    simp only [reduceCtorEq, iff_false, not_and]
    intro level starts
    cases r with
    | unknownType primitive =>
      have whole : (Remark.unknownType primitive).message.toList =
          "Unknown schema type '".toList ++ (primitive ++ "', resolving to 'any'").toList := by
        rw [← String.toList_append, ← String.append_assoc]
        rfl
      rw [whole] at starts
      exact omission.not_opening_prefix_unknownType _ starts
    | summary modules classes => simp [Remark.level] at level
    | _ => cases known

theorem Remark.countP_reports_cons (omission : Omission) (r : Remark) (rest : List Remark) :
    (r :: rest).countP (Remark.reports omission) =
      rest.countP (Remark.reports omission) + if r.omission? = some omission then 1 else 0 := by
  rw [List.countP_cons]
  simp only [Remark.reports_iff]

theorem Remark.countP_reports_singleton (omission : Omission) (r : Remark) :
    [r].countP (Remark.reports omission) = if r.omission? = some omission then 1 else 0 := by
  rw [Remark.countP_reports_cons, List.countP_nil, Nat.zero_add]

namespace Traced

def omitted {α : Type} (omission : Omission) (x : Traced α) : Nat :=
  x.remarks.countP (Remark.reports omission)

section
variable {α β : Type} {omission : Omission}

theorem omitted_pure (value : α) : (Pure.pure value : Traced α).omitted omission = 0 :=
  rfl

theorem omitted_remark {r : Remark} (known : r.omission? = some omission) :
    (remark r).omitted omission = 1 := by
  rw [omitted, remark, Remark.countP_reports_singleton, if_pos known]

theorem omitted_remark_eq_zero {r : Remark} (other : r.omission? ≠ some omission) :
    (remark r).omitted omission = 0 := by
  rw [omitted, remark, Remark.countP_reports_singleton, if_neg other]

theorem omitted_bind {x : Traced α} {next : α → Traced β} {value : α}
    (returned : x.outcome = .ok value) :
    (x >>= next).omitted omission = x.omitted omission + (next value).omitted omission := by
  rw [omitted, remarks_bind returned, List.countP_append]
  rfl

theorem omitted_ok_bind {x : Except Fault α} {next : α → Traced β} {value : α}
    (returned : x = .ok value) :
    ((liftM x : Traced α) >>= next).omitted omission = (next value).omitted omission := by
  rw [returned, ok_bind]

theorem sum_of_mapM {step : α → Traced β} {before : α → Nat} {after : β → Nat} {xs : List α}
    {ys : List β} (returned : (xs.mapM step).outcome = .ok ys)
    (each : ∀ x y, (step x).outcome = .ok y → before x = after y + (step x).omitted omission) :
    (xs.map before).sum = (ys.map after).sum + (xs.mapM step).omitted omission := by
  have related := outcome_mapM_eq_ok_iff.mp returned
  clear returned
  induction related with
  | nil => rfl
  | @cons x y xs ys first others ih =>
    rw [List.mapM_cons, omitted_bind first, omitted_bind (outcome_mapM_eq_ok_iff.mpr others),
      omitted_pure, List.map_cons, List.sum_cons, List.map_cons, List.sum_cons, each x y first, ih]
    omega

end

def OmitsOnly {α : Type} (kinds : List Omission) (x : Traced α) : Prop :=
  ∀ r ∈ x.remarks, ∀ omission, r.omission? = some omission → omission ∈ kinds

section
variable {α β : Type} {kinds : List Omission}

theorem OmitsOnly.omitted_eq_zero {x : Traced α} (only : x.OmitsOnly kinds) {omission : Omission}
    (other : omission ∉ kinds) : x.omitted omission = 0 := by
  rw [omitted, List.countP_eq_zero]
  intro r member reported
  exact other (only r member omission (Remark.reports_iff.mp reported))

theorem omitsOnly_pure (value : α) : (Pure.pure value : Traced α).OmitsOnly kinds := by
  intro r member
  exact absurd member List.not_mem_nil

theorem omitsOnly_lift (x : Except Fault α) : (liftM x : Traced α).OmitsOnly kinds := by
  intro r member
  exact absurd member List.not_mem_nil

theorem omitsOnly_remark {r : Remark} (listed : ∀ omission ∈ r.omission?, omission ∈ kinds) :
    (remark r).OmitsOnly kinds := by
  intro other member omission known
  obtain rfl := List.mem_singleton.mp member
  exact listed omission known

theorem OmitsOnly.ite {test : Prop} [Decidable test] {x y : Traced α} (first : x.OmitsOnly kinds)
    (second : y.OmitsOnly kinds) : (if test then x else y).OmitsOnly kinds := by
  split
  · exact first
  · exact second

theorem OmitsOnly.bind {x : Traced α} {next : α → Traced β} (first : x.OmitsOnly kinds)
    (rest : ∀ value, (next value).OmitsOnly kinds) : (x >>= next).OmitsOnly kinds := by
  intro r member
  obtain ⟨remarks, value | value⟩ := x
  · exact first r member
  · rcases List.mem_append.mp member with before | after
    · exact first r before
    · exact rest value r after

theorem OmitsOnly.mono {more : List Omission} {x : Traced α} (only : x.OmitsOnly kinds)
    (larger : kinds ⊆ more) : x.OmitsOnly more :=
  fun r member omission known => larger (only r member omission known)

theorem omitsOnly_mapM {step : α → Traced β} (each : ∀ x, (step x).OmitsOnly kinds)
    (xs : List α) : (xs.mapM step).OmitsOnly kinds := by
  induction xs with
  | nil => exact omitsOnly_pure []
  | cons x xs ih =>
    rw [List.mapM_cons]
    exact (each x).bind fun first => ih.bind fun others => omitsOnly_pure (first :: others)

end

end Traced
end ApiCatalog
