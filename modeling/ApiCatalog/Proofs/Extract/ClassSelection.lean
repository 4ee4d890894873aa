import ApiCatalog.Extract.BaseClass
import ApiCatalog.Proofs.Extract.Outcome
import ApiCatalog.Proofs.Extract.Selection
import Mathlib.Data.String.Basic

/-!
The selection of classes: their names without parameters descend strictly, and each such name of a
declared class is that of a selected one.
-/

namespace ApiCatalog.BaseClass

theorem outcome_firsts (seen : List String) (classes : List BaseClass) :
    (firsts seen classes).outcome = .ok (keepFirst (· == ·) justName seen classes) := by
  induction classes generalizing seen with
  | nil => rfl
  | cons base rest ih =>
    simp only [firsts, keepFirst, List.any_beq]
    by_cases already : base.justName ∈ seen
    · rw [if_pos already, if_pos (by simpa using already), Traced.outcome_bind]
      exact ih seen
    · rw [if_neg already, if_neg (by simpa using already), Traced.outcome_bind, ih]
      rfl

theorem goesBefore_iff {a b : BaseClass} :
    a.goesBefore b = true ↔
      b.justName < a.justName ∨ (a.justName = b.justName ∧ b.name.length ≤ a.name.length) := by
  simp [goesBefore]

theorem goesBefore_trans (a b c : BaseClass) (first : a.goesBefore b = true)
    (second : b.goesBefore c = true) : a.goesBefore c = true := by
  rw [goesBefore_iff] at first second ⊢
  rcases first with below | ⟨same, longer⟩
  · rcases second with lower | ⟨equal, -⟩
    · exact Or.inl (lt_trans lower below)
    · exact Or.inl (equal ▸ below)
  · rcases second with lower | ⟨equal, longest⟩
    · exact Or.inl (same ▸ lower)
    · exact Or.inr ⟨same.trans equal, le_trans longest longer⟩

theorem goesBefore_total (a b : BaseClass) : (a.goesBefore b || b.goesBefore a) = true := by
  rw [Bool.or_eq_true, goesBefore_iff, goesBefore_iff]
  rcases lt_trichotomy a.justName b.justName with below | same | above
  · exact Or.inr (Or.inl below)
  · rcases le_total a.name.length b.name.length with shorter | longer
    · exact Or.inr (Or.inr ⟨same.symm, shorter⟩)
    · exact Or.inl (Or.inr ⟨same, longer⟩)
  · exact Or.inl (Or.inl above)

theorem outcome_sortUnique (classes : List BaseClass) :
    (sortUnique classes).outcome =
      .ok (keepFirst (· == ·) justName [] (classes.mergeSort goesBefore)) :=
  outcome_firsts [] _

theorem pairwise_justName_of_sortUnique {classes result : List BaseClass}
    (returned : (sortUnique classes).outcome = .ok result) :
    (result.map justName).Pairwise (· > ·) := by
  obtain rfl := Except.ok.inj ((outcome_sortUnique classes).symm.trans returned)
  have sorted : (keepFirst (· == ·) justName [] (classes.mergeSort goesBefore)).Pairwise
      (goesBefore · · = true) :=
    (List.pairwise_mergeSort goesBefore_trans goesBefore_total classes).sublist
      (keepFirst_sublist _ _)
  have distinct : ((keepFirst (· == ·) justName [] (classes.mergeSort goesBefore)).map
      justName).Nodup := nodup_keepFirst [] _
  rw [List.pairwise_map]
  refine (sorted.and (List.pairwise_map.mp distinct)).imp ?_
  rintro a b ⟨before, different⟩
  rcases goesBefore_iff.mp before with below | ⟨same, -⟩
  · exact below
  · exact absurd same different

theorem eq_of_pairwise_justName {first second : List BaseClass}
    (descending : (first.map justName).Pairwise (· > ·))
    (descendingToo : (second.map justName).Pairwise (· > ·))
    (same : ∀ base, base ∈ first ↔ base ∈ second) : first = second := by
  rw [List.pairwise_map] at descending descendingToo
  have distinct {row : List BaseClass} (sorted : row.Pairwise fun a b => a.justName > b.justName) :
      row.Nodup := sorted.imp fun below equal => absurd (equal ▸ below) (lt_irrefl _)
  have permuted := (List.perm_ext_iff_of_nodup (distinct descending) (distinct descendingToo)).mpr
    same
  refine permuted.eq_of_pairwise (fun a b _ _ below above => ?_) descending descendingToo
  exact absurd (lt_trans below above) (lt_irrefl _)

theorem mem_of_sortUnique {classes result : List BaseClass}
    (returned : (sortUnique classes).outcome = .ok result) : ∀ base ∈ result, base ∈ classes := by
  obtain rfl := Except.ok.inj ((outcome_sortUnique classes).symm.trans returned)
  intro base member
  exact List.mem_mergeSort.mp ((keepFirst_sublist _ _).subset member)

theorem exists_of_sortUnique {classes result : List BaseClass}
    (returned : (sortUnique classes).outcome = .ok result) {base : BaseClass}
    (member : base ∈ classes) : ∃ kept ∈ result, kept.justName = base.justName := by
  obtain rfl := Except.ok.inj ((outcome_sortUnique classes).symm.trans returned)
  exact exists_mem_keepFirst (List.mem_mergeSort.mpr member) List.not_mem_nil

theorem filter_mergeSort {p : BaseClass → Bool}
    (tied : ∀ a b, p a = true → p b = true → a.goesBefore b = true) (classes : List BaseClass) :
    (classes.mergeSort goesBefore).filter p = classes.filter p := by
  have inOrder : (classes.filter p).Pairwise (goesBefore · · = true) :=
    List.pairwise_of_forall_mem_list fun a memberA b memberB =>
      tied a b (List.mem_filter.mp memberA).2 (List.mem_filter.mp memberB).2
  have kept := (List.sublist_mergeSort goesBefore_trans goesBefore_total inOrder
    (List.filter_sublist (p := p))).filter p
  rw [List.filter_filter] at kept
  simp only [Bool.and_self] at kept
  exact (kept.eq_of_length ((List.mergeSort_perm classes goesBefore).filter p).length_eq.symm).symm

def tiesWith (base other : BaseClass) : Bool :=
  other.justName == base.justName && other.name.length == base.name.length

/-- A class of a row that no other of its name without parameters beats: none has a longer name,
and none before it has one as long. -/
structure IsFirstLongest (classes : List BaseClass) (base : BaseClass) : Prop where
  longest : ∀ other ∈ classes, other.justName = base.justName →
    other.name.length ≤ base.name.length
  first : ∃ front back, classes = front ++ base :: back ∧
    ∀ other ∈ front, other.justName = base.justName → other.name.length < base.name.length

theorem length_le_of_mergeSort_eq {classes before after : List BaseClass} {base : BaseClass}
    (sorted : classes.mergeSort goesBefore = before ++ base :: after)
    (fresh : ∀ other ∈ before, other.justName ≠ base.justName) :
    ∀ other ∈ classes, other.justName = base.justName → other.name.length ≤ base.name.length := by
  have descending := List.pairwise_mergeSort goesBefore_trans goesBefore_total classes
  intro other listed same
  have inside : other ∈ classes.mergeSort goesBefore := List.mem_mergeSort.mpr listed
  rw [sorted] at inside descending
  rcases List.mem_append.mp inside with early | late
  · exact absurd same (fresh other early)
  · rcases List.mem_cons.mp late with rfl | late
    · exact le_rfl
    · have first := List.rel_of_pairwise_cons (List.pairwise_append.mp descending).2.1 late
      rcases goesBefore_iff.mp first with below | ⟨-, shorter⟩
      · exact absurd below (same ▸ lt_irrefl _)
      · exact shorter

theorem isFirstLongest_of_sortUnique {classes result : List BaseClass}
    (returned : (sortUnique classes).outcome = .ok result) {base : BaseClass}
    (member : base ∈ result) : IsFirstLongest classes base := by
  obtain rfl := Except.ok.inj ((outcome_sortUnique classes).symm.trans returned)
  obtain ⟨before, after, sorted, fresh⟩ := exists_append_of_mem_keepFirst member
  have longest := length_le_of_mergeSort_eq sorted fresh
  refine ⟨longest, ?_⟩
  -- The classes tied with the selected one stand in the sorted row as they stood before.
  have stable : (classes.mergeSort goesBefore).filter base.tiesWith =
      classes.filter base.tiesWith := by
    refine filter_mergeSort (fun a b tiedA tiedB => goesBefore_iff.mpr (Or.inr ?_)) classes
    simp only [tiesWith, Bool.and_eq_true, beq_iff_eq] at tiedA tiedB
    exact ⟨tiedA.1.trans tiedB.1.symm, le_of_eq (tiedB.2.trans tiedA.2.symm)⟩
  have none : before.filter base.tiesWith = [] := by
    refine List.filter_eq_nil_iff.mpr fun other early => ?_
    simp [tiesWith, fresh other early]
  rw [sorted, List.filter_append, none, List.nil_append,
    List.filter_cons_of_pos (by simp [tiesWith])] at stable
  obtain ⟨front, back, rfl, shorter, -, -⟩ := List.filter_eq_cons_iff.mp stable.symm
  refine ⟨front, back, rfl, fun other early same => ?_⟩
  refine lt_of_le_of_ne (longest other (List.mem_append_left _ early) same) fun equal => ?_
  exact shorter other early (by simp [tiesWith, same, equal])

end ApiCatalog.BaseClass
