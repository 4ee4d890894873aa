import ApiCatalog.Extract.Remark
import Mathlib.Data.List.Forall2

/-!
What a computation went through if it returned. Remarks play no part in outcomes; a sequence of
steps returns exactly if each step does, and a record is valid exactly if all its fields are.
-/

namespace ApiCatalog

theorem Outcome.bind_eq_ok_iff {α β : Type} {x : Except Fault α} {next : α → Except Fault β}
    {result : β} : x >>= next = .ok result ↔ ∃ value, x = .ok value ∧ next value = .ok result := by
  cases x with
  | error fault => simp [Bind.bind, Except.bind]
  | ok value => simp [Bind.bind, Except.bind]

theorem Outcome.map_eq_ok_iff {α β : Type} {x : Except Fault α} {f : α → β} {result : β} :
    f <$> x = .ok result ↔ ∃ value, x = .ok value ∧ f value = result := by
  cases x with
  | error fault => simp [Functor.map, Except.map]
  | ok value => simp [Functor.map, Except.map]

theorem Outcome.pure_eq_ok_iff {α : Type} {value result : α} :
    (pure value : Except Fault α) = .ok result ↔ value = result := by
  simp [Pure.pure, Except.pure]

theorem Outcome.eq_ok_of_toOption {α : Type} {x : Except Fault α} {result : α}
    (returned : x.toOption = some result) : x = .ok result := by
  cases x with
  | error fault => simp [Except.toOption] at returned
  | ok value => simpa [Except.toOption] using returned

theorem Outcome.eq_filter_of_filterAuxM {α : Type} {test : α → Except Fault Bool}
    {xs passed result : List α} (returned : xs.filterAuxM test passed = .ok result) :
    result = (xs.filter fun x => (test x).toOption == some true).reverse ++ passed := by
  induction xs generalizing passed with
  | nil => simpa [List.filterAuxM, Pure.pure, Except.pure, eq_comm] using returned
  | cons x xs ih =>
    rw [List.filterAuxM] at returned
    obtain ⟨flag, tested, rest⟩ := Outcome.bind_eq_ok_iff.mp returned
    rw [ih rest]
    cases flag <;> simp [tested, Except.toOption]

theorem Outcome.eq_filter_of_filterM {α : Type} {test : α → Except Fault Bool} {xs result : List α}
    (returned : xs.filterM test = .ok result) :
    result = xs.filter fun x => (test x).toOption == some true := by
  rw [List.filterM] at returned
  obtain ⟨passed, walked, same⟩ := Outcome.bind_eq_ok_iff.mp returned
  obtain rfl := Outcome.pure_eq_ok_iff.mp same
  simp [Outcome.eq_filter_of_filterAuxM walked]

theorem Outcome.forall_of_filterAuxM {α : Type} {test : α → Except Fault Bool}
    {xs passed result : List α} (returned : xs.filterAuxM test passed = .ok result) :
    ∀ x ∈ xs, ∃ flag, test x = .ok flag := by
  induction xs generalizing passed with
  | nil => simp
  | cons x xs ih =>
    rw [List.filterAuxM] at returned
    obtain ⟨flag, tested, rest⟩ := Outcome.bind_eq_ok_iff.mp returned
    rintro y (_ | ⟨_, member⟩)
    · exact ⟨flag, tested⟩
    · exact ih rest y member

theorem Outcome.forall_of_filterM {α : Type} {test : α → Except Fault Bool} {xs result : List α}
    (returned : xs.filterM test = .ok result) : ∀ x ∈ xs, ∃ flag, test x = .ok flag := by
  rw [List.filterM] at returned
  obtain ⟨passed, walked, -⟩ := Outcome.bind_eq_ok_iff.mp returned
  exact Outcome.forall_of_filterAuxM walked

theorem Outcome.exists_filterM {α : Type} {test : α → Except Fault Bool} {xs : List α}
    (each : ∀ x ∈ xs, ∃ flag, test x = .ok flag) : ∃ result, xs.filterM test = .ok result := by
  have walk (passed : List α) : ∃ result, xs.filterAuxM test passed = .ok result := by
    induction xs generalizing passed with
    | nil => exact ⟨passed, rfl⟩
    | cons x xs ih =>
      obtain ⟨flag, tested⟩ := each x List.mem_cons_self
      obtain ⟨result, walked⟩ := ih (fun y member => each y (List.mem_cons_of_mem x member))
        (bif flag then x :: passed else passed)
      exact ⟨result, Outcome.bind_eq_ok_iff.mpr ⟨flag, tested, walked⟩⟩
  obtain ⟨result, walked⟩ := walk []
  exact ⟨result.reverse, Outcome.bind_eq_ok_iff.mpr ⟨result, walked, rfl⟩⟩

theorem Outcome.exists_mapM {α β : Type} {step : α → Except Fault β} {holds : β → Prop}
    {xs : List α} (each : ∀ x ∈ xs, ∃ y, step x = .ok y ∧ holds y) :
    ∃ ys, xs.mapM step = .ok ys ∧ ∀ y ∈ ys, holds y := by
  induction xs with
  | nil => exact ⟨[], rfl, fun _ member => absurd member List.not_mem_nil⟩
  | cons x xs ih =>
    obtain ⟨y, first, here⟩ := each x List.mem_cons_self
    obtain ⟨ys, others, there⟩ := ih fun z member => each z (List.mem_cons_of_mem x member)
    refine ⟨y :: ys, ?_, List.forall_mem_cons.mpr ⟨here, there⟩⟩
    rw [List.mapM_cons]
    exact Outcome.bind_eq_ok_iff.mpr ⟨y, first, Outcome.bind_eq_ok_iff.mpr ⟨ys, others, rfl⟩⟩

theorem Outcome.mapM_of_forall {α β : Type} {step : α → Except Fault β} {f : α → β} {xs : List α}
    (each : ∀ x ∈ xs, step x = .ok (f x)) : xs.mapM step = .ok (xs.map f) := by
  induction xs with
  | nil => rfl
  | cons x xs ih =>
    rw [List.mapM_cons, each x List.mem_cons_self,
      ih fun y member => each y (List.mem_cons_of_mem x member)]
    rfl

theorem forall₂_exists_right {α β : Type} {R : α → β → Prop} {xs : List α} {ys : List β}
    (related : List.Forall₂ R xs ys) {x : α} (member : x ∈ xs) : ∃ y ∈ ys, R x y := by
  induction related with
  | nil => simp at member
  | cons first others ih =>
    rcases List.mem_cons.mp member with rfl | member
    · exact ⟨_, List.mem_cons_self, first⟩
    · obtain ⟨y, inside, holds⟩ := ih member
      exact ⟨y, List.mem_cons_of_mem _ inside, holds⟩

theorem forall₂_exists_left {α β : Type} {R : α → β → Prop} {xs : List α} {ys : List β}
    (related : List.Forall₂ R xs ys) {y : β} (member : y ∈ ys) : ∃ x ∈ xs, R x y := by
  obtain ⟨x, inside, holds⟩ := forall₂_exists_right related.flip member
  exact ⟨x, inside, holds⟩

theorem forall₂_exists_filter {α β : Type} {R : α → β → Prop} {xs : List α} {ys : List β}
    (related : List.Forall₂ R xs ys) (test : β → Bool) :
    ∃ kept, kept.Sublist xs ∧ List.Forall₂ R kept (ys.filter test) := by
  induction related with
  | nil => exact ⟨[], List.Sublist.slnil, .nil⟩
  | @cons x y xs ys first others ih =>
    obtain ⟨kept, part, related⟩ := ih
    by_cases passes : test y = true
    · rw [List.filter_cons_of_pos passes]
      exact ⟨x :: kept, part.cons_cons x, .cons first related⟩
    · rw [List.filter_cons_of_neg passes]
      exact ⟨kept, part.cons x, related⟩

theorem flatMap_toList_map_if {α β : Type} (test : α → Bool) (f : α → β) (xs : List α) :
    (xs.map fun x => if test x = true then some (f x) else none).flatMap Option.toList =
      (xs.filter test).map f := by
  induction xs with
  | nil => rfl
  | cons x xs ih => by_cases passes : test x = true <;> simp [passes, ih]

namespace Traced

theorem outcome_pure {α : Type} (value : α) : (Pure.pure value : Traced α).outcome = .ok value :=
  rfl

theorem outcome_lift {α : Type} (x : Except Fault α) : (liftM x : Traced α).outcome = x :=
  rfl

theorem outcome_bind {α β : Type} (x : Traced α) (next : α → Traced β) :
    (x >>= next).outcome = x.outcome >>= fun value => (next value).outcome := by
  rcases x with ⟨remarks, value | value⟩ <;> rfl

theorem outcome_bind_of_ok {α β : Type} {x : Traced α} {next : α → Traced β} {value : α}
    (returned : x.outcome = .ok value) : (x >>= next).outcome = (next value).outcome := by
  rw [outcome_bind, returned]
  rfl

theorem remarks_pure {α : Type} (value : α) : (Pure.pure value : Traced α).remarks = [] :=
  rfl

theorem remarks_bind {α β : Type} {x : Traced α} {next : α → Traced β} {value : α}
    (returned : x.outcome = .ok value) :
    (x >>= next).remarks = x.remarks ++ (next value).remarks := by
  obtain ⟨remarks, outcome⟩ := x
  obtain rfl : outcome = .ok value := returned
  rfl

theorem ok_bind {α β : Type} (value : α) (next : α → Traced β) :
    (liftM (.ok value : Except Fault α) : Traced α) >>= next = next value :=
  rfl

theorem map_ok {α β : Type} (f : α → β) (value : α) :
    f <$> (liftM (.ok value : Except Fault α) : Traced α) = Pure.pure (f value) :=
  rfl

theorem outcome_bind_eq_ok_iff {α β : Type} {x : Traced α} {next : α → Traced β} {result : β} :
    (x >>= next).outcome = .ok result ↔
      ∃ value, x.outcome = .ok value ∧ (next value).outcome = .ok result := by
  rw [outcome_bind, Outcome.bind_eq_ok_iff]

theorem outcome_map_eq_ok_iff {α β : Type} {x : Traced α} {f : α → β} {result : β} :
    (f <$> x).outcome = .ok result ↔ ∃ value, x.outcome = .ok value ∧ f value = result := by
  rw [map_eq_pure_bind, outcome_bind_eq_ok_iff]
  simp [outcome_pure]

theorem outcome_mapM_eq_ok_iff {α β : Type} {step : α → Traced β} {xs : List α} {ys : List β} :
    (xs.mapM step).outcome = .ok ys ↔
      List.Forall₂ (fun x y => (step x).outcome = .ok y) xs ys := by
  induction xs generalizing ys with
  | nil => simp [outcome_pure, eq_comm]
  | cons x xs ih =>
    rw [List.mapM_cons, outcome_bind_eq_ok_iff]
    constructor
    · rintro ⟨first, hfirst, rest⟩
      obtain ⟨others, hothers, same⟩ := outcome_bind_eq_ok_iff.mp rest
      rw [outcome_pure, Except.ok.injEq] at same
      subst same
      exact .cons hfirst (ih.mp hothers)
    · intro every
      cases every with
      | cons hfirst hothers =>
        exact ⟨_, hfirst, outcome_bind_eq_ok_iff.mpr ⟨_, ih.mpr hothers, rfl⟩⟩

theorem outcome_mapM_of_forall {α β : Type} {step : α → Traced β} {f : α → β}
    (each : ∀ x, (step x).outcome = .ok (f x)) (xs : List α) :
    (xs.mapM step).outcome = .ok (xs.map f) := by
  rw [outcome_mapM_eq_ok_iff, List.forall₂_map_right_iff, List.forall₂_same]
  exact fun x _ => each x

theorem outcome_collect_eq_ok_iff {α β : Type} {step : α → Traced (Option β)} {xs : List α}
    {ys : List β} :
    (collect step xs).outcome = .ok ys ↔
      ∃ found, List.Forall₂ (fun x kept => (step x).outcome = .ok kept) xs found ∧
        found.flatMap Option.toList = ys := by
  induction xs generalizing ys with
  | nil => simp [collect, Traced.pure]
  | cons x xs ih =>
    rw [collect, outcome_bind_eq_ok_iff]
    constructor
    · rintro ⟨kept, hkept, rest⟩
      obtain ⟨more, hmore, same⟩ := outcome_bind_eq_ok_iff.mp rest
      obtain rfl := Except.ok.inj same
      obtain ⟨found, each, rfl⟩ := ih.mp hmore
      exact ⟨kept :: found, .cons hkept each, rfl⟩
    · rintro ⟨found, each, rfl⟩
      obtain ⟨kept, others, hkept, hothers, rfl⟩ := List.forall₂_cons_left_iff.mp each
      exact ⟨kept, hkept, outcome_bind_eq_ok_iff.mpr ⟨_, ih.mpr ⟨others, hothers, rfl⟩, rfl⟩⟩

end Traced

namespace Checked

theorem map_eq_valid_iff {α β : Type} {x : Checked α} {f : α → β} {result : β} :
    f <$> x = .valid result ↔ ∃ value, x = .valid value ∧ f value = result := by
  cases x <;> simp [Functor.map, Checked.map]

theorem seq_eq_valid_iff {α β : Type} {f : Checked (α → β)} {x : Checked α} {result : β} :
    f <*> x = .valid result ↔
      ∃ g value, f = .valid g ∧ x = .valid value ∧ g value = result := by
  cases f <;> cases x <;> simp [Seq.seq, Checked.apply]

theorem under_eq_valid_iff {α : Type} {x : Checked α} {step : Step} {result : α} :
    x.under step = .valid result ↔ x = .valid result := by
  cases x <;> simp [Checked.under]

theorem orFault_eq_ok_iff {α : Type} {x : Checked α} {kind : RecordKind} {result : α} :
    x.orFault kind = .ok result ↔ x = .valid result := by
  cases x <;> simp [Checked.orFault]

end Checked
end ApiCatalog
