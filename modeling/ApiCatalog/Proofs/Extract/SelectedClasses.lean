import ApiCatalog.Proofs.Extract.ClassSelection

/-!
What the selection of classes is, whatever way it is made: for each name without parameters the
first of the classes whose whole name is longest, in descending order of these names. A row of
classes has one such selection, and a selection is its own.
-/

namespace ApiCatalog.BaseClass

structure IsSelection (classes result : List BaseClass) : Prop where
  descending : (result.map justName).Pairwise (· > ·)
  names : ∀ name, name ∈ result.map justName ↔ name ∈ classes.map justName
  listed : ∀ base ∈ result, base ∈ classes
  chosen : ∀ base ∈ result, IsFirstLongest classes base

theorem IsFirstLongest.find?_tiesWith {classes : List BaseClass} {base : BaseClass}
    (chosen : IsFirstLongest classes base) : classes.find? base.tiesWith = some base := by
  obtain ⟨front, back, whole, shorter⟩ := chosen.first
  refine List.find?_eq_some_iff_append.mpr ⟨by simp [tiesWith], front, back, whole, ?_⟩
  intro other early
  rw [tiesWith, Bool.not_eq_true', Bool.and_eq_false_iff, beq_eq_false_iff_ne, beq_eq_false_iff_ne]
  by_cases same : other.justName = base.justName
  · exact Or.inr (shorter other early same).ne
  · exact Or.inl same

theorem IsFirstLongest.eq {classes : List BaseClass} {base other : BaseClass}
    (first : IsFirstLongest classes base) (second : IsFirstLongest classes other)
    (member : base ∈ classes) (memberToo : other ∈ classes)
    (same : other.justName = base.justName) : other = base := by
  have even : other.name.length = base.name.length :=
    le_antisymm (first.longest other memberToo same) (second.longest base member same.symm)
  have ties : other.tiesWith = base.tiesWith := by
    funext rival
    rw [tiesWith, tiesWith, same, even]
  have found := second.find?_tiesWith
  rw [ties, first.find?_tiesWith] at found
  exact (Option.some.inj found).symm

theorem IsSelection.mem_of_mem {classes first second : List BaseClass}
    (selected : IsSelection classes first) (reselected : IsSelection classes second)
    {base : BaseClass} (member : base ∈ first) : base ∈ second := by
  have named := (selected.names base.justName).mp (List.mem_map_of_mem member)
  obtain ⟨other, inside, same⟩ := List.mem_map.mp ((reselected.names base.justName).mpr named)
  have equal := (selected.chosen base member).eq (reselected.chosen other inside)
    (selected.listed base member) (reselected.listed other inside) same
  exact equal ▸ inside

theorem IsSelection.eq {classes result other : List BaseClass}
    (selected : IsSelection classes result) (reselected : IsSelection classes other) :
    other = result := by
  refine eq_of_pairwise_justName reselected.descending selected.descending ?_
  intro base
  constructor
  · exact reselected.mem_of_mem selected
  · exact selected.mem_of_mem reselected

theorem isSelection_of_outcome {classes result : List BaseClass}
    (returned : (sortUnique classes).outcome = .ok result) : IsSelection classes result := by
  have listed := mem_of_sortUnique returned
  refine ⟨pairwise_justName_of_sortUnique returned, ?_, listed, ?_⟩
  · intro name
    constructor
    · intro known
      obtain ⟨base, member, named⟩ := List.mem_map.mp known
      exact List.mem_map.mpr ⟨base, listed base member, named⟩
    · intro known
      obtain ⟨base, member, rfl⟩ := List.mem_map.mp known
      obtain ⟨kept, inside, same⟩ := exists_of_sortUnique returned member
      exact List.mem_map.mpr ⟨kept, inside, same⟩
  · intro base member
    exact isFirstLongest_of_sortUnique returned member

theorem firsts_of_nodup {seen : List String} {classes : List BaseClass}
    (distinct : (classes.map justName).Nodup)
    (unseen : ∀ base ∈ classes, base.justName ∉ seen) : firsts seen classes = pure classes := by
  induction classes generalizing seen with
  | nil => rfl
  | cons base rest ih =>
    obtain ⟨fresh, others⟩ := List.nodup_cons.mp distinct
    have later : ∀ other ∈ rest, other.justName ∉ base.justName :: seen := by
      intro other member
      rw [List.mem_cons, not_or]
      refine ⟨?_, unseen other (List.mem_cons_of_mem base member)⟩
      intro same
      exact fresh (List.mem_map.mpr ⟨other, member, same⟩)
    rw [firsts, if_neg (unseen base List.mem_cons_self), ih others later, pure_bind]

theorem sortUnique_of_descending {classes : List BaseClass}
    (descending : (classes.map justName).Pairwise (· > ·)) : sortUnique classes = pure classes := by
  have inOrder : classes.Pairwise (goesBefore · · = true) := by
    refine (List.pairwise_map.mp descending).imp ?_
    intro a b below
    exact goesBefore_iff.mpr (Or.inl below)
  have distinct : (classes.map justName).Nodup := descending.imp fun below => below.ne'
  rw [sortUnique, List.mergeSort_of_pairwise inOrder]
  exact firsts_of_nodup distinct fun _ _ => List.not_mem_nil

/-- Selecting always returns the one selection of its classes, and selecting from that again
changes nothing and leaves nothing to remark on. -/
theorem isSelection_of_sortUnique (classes : List BaseClass) :
    ∃ result, (sortUnique classes).outcome = .ok result ∧ IsSelection classes result ∧
      (∀ other, IsSelection classes other → other = result) ∧
      sortUnique result = pure result := by
  have returned := outcome_sortUnique classes
  have selected := isSelection_of_outcome returned
  refine ⟨_, returned, selected, ?_, sortUnique_of_descending selected.descending⟩
  intro other reselected
  exact selected.eq reselected

def resultClasses : List BaseClass :=
  [⟨"Result<T0>", "short", []⟩, ⟨"Result<T0,T1>", "first", []⟩, ⟨"Result", "", []⟩,
    ⟨"Result<A,B,C>", "second", []⟩, ⟨"Alpha", "", []⟩]

theorem selection_of_resultClasses :
    (sortUnique resultClasses).outcome =
        .ok [⟨"Result<T0,T1>", "first", []⟩, ⟨"Alpha", "", []⟩] ∧
      sortUnique [⟨"Result<T0,T1>", "first", []⟩, ⟨"Alpha", "", []⟩] =
        pure [⟨"Result<T0,T1>", "first", []⟩, ⟨"Alpha", "", []⟩] := by
  have selection : IsSelection resultClasses
      [⟨"Result<T0,T1>", "first", []⟩, ⟨"Alpha", "", []⟩] := by
    refine ⟨by decide, ?_, by decide, ?_⟩
    · intro name
      have before : resultClasses.map justName = ["Result", "Result", "Result", "Result", "Alpha"] := by
        decide
      have after : [(⟨"Result<T0,T1>", "first", []⟩ : BaseClass), ⟨"Alpha", "", []⟩].map justName =
          ["Result", "Alpha"] := by
        decide
      rw [before, after]
      simp
    · rw [List.forall_mem_cons, List.forall_mem_singleton]
      refine ⟨⟨by decide, resultClasses.take 1, resultClasses.drop 2, by decide, by decide⟩, ?_⟩
      exact ⟨by decide, resultClasses.take 4, [], by decide, by decide⟩
  obtain ⟨result, returned, -, unique, again⟩ := isSelection_of_sortUnique resultClasses
  obtain rfl := unique _ selection
  exact ⟨returned, again⟩

end ApiCatalog.BaseClass
