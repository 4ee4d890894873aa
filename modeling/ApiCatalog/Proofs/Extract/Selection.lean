import Mathlib.Data.List.Forall2
import Mathlib.Data.List.Induction
import Mathlib.Data.List.Nodup

/-!
Rows of which only the first member of each key is kept. Keys are compared by a test of their own,
since the keys of a document are equal in more ways than one. Where equality is the test, the
members kept are those before which none has the same key.
-/

namespace ApiCatalog

def keepFirst {α κ : Type} (same : κ → κ → Bool) (key : α → κ) (seen : List κ) : List α → List α
  | [] => []
  | x :: rest =>
    if seen.any (same (key x)) then keepFirst same key seen rest
    else x :: keepFirst same key (key x :: seen) rest

section
variable {α κ : Type} {same : κ → κ → Bool} {key : α → κ}

theorem keepFirst_sublist (seen : List κ) (xs : List α) :
    (keepFirst same key seen xs).Sublist xs := by
  induction xs generalizing seen with
  | nil => exact List.Sublist.slnil
  | cons x rest ih =>
    simp only [keepFirst]
    split
    · exact (ih seen).cons x
    · exact (ih _).cons_cons x

theorem unseen_of_mem_keepFirst {seen : List κ} {xs : List α} {x : α}
    (member : x ∈ keepFirst same key seen xs) : seen.any (same (key x)) = false := by
  induction xs generalizing seen with
  | nil => simp [keepFirst] at member
  | cons first rest ih =>
    simp only [keepFirst] at member
    split at member
    · exact ih member
    · rename_i unseen
      rcases List.mem_cons.mp member with rfl | member
      · exact Bool.eq_false_iff.mpr unseen
      · exact (Bool.or_eq_false_iff.mp (ih member)).2

theorem pairwise_keepFirst (seen : List κ) (xs : List α) :
    (keepFirst same key seen xs).Pairwise fun a b => same (key b) (key a) = false := by
  induction xs generalizing seen with
  | nil => exact List.Pairwise.nil
  | cons x rest ih =>
    simp only [keepFirst]
    split
    · exact ih seen
    · refine List.Pairwise.cons (fun other member => ?_) (ih _)
      exact (Bool.or_eq_false_iff.mp (unseen_of_mem_keepFirst member)).1

theorem isPrefix_keepFirst (same : κ → κ → Bool) (key : α → κ) (seen : List κ)
    (front back : List α) :
    keepFirst same key seen front <+: keepFirst same key seen (front ++ back) := by
  induction front generalizing seen with
  | nil => exact List.nil_prefix
  | cons x rest ih =>
    simp only [List.cons_append, keepFirst]
    split
    · exact ih seen
    · exact List.prefix_cons_inj x |>.mpr (ih _)

theorem mem_keepFirst_or_same {seen : List κ} {xs : List α} {x : α} (member : x ∈ xs) :
    seen.any (same (key x)) = true ∨
      ∃ kept ∈ keepFirst same key seen xs, x = kept ∨ same (key x) (key kept) = true := by
  induction xs generalizing seen with
  | nil => exact absurd member List.not_mem_nil
  | cons first rest ih =>
    simp only [keepFirst]
    split
    · rename_i already
      rcases List.mem_cons.mp member with rfl | later
      · exact Or.inl already
      · exact ih later
    · rcases List.mem_cons.mp member with rfl | later
      · exact Or.inr ⟨x, List.mem_cons_self, Or.inl rfl⟩
      · rcases @ih (key first :: seen) later with before | ⟨kept, inside, equal⟩
        · rw [List.any_cons, Bool.or_eq_true] at before
          rcases before with here | earlier
          · exact Or.inr ⟨first, List.mem_cons_self, Or.inr here⟩
          · exact Or.inl earlier
        · exact Or.inr ⟨kept, List.mem_cons_of_mem first inside, equal⟩

theorem keepFirst_concat (seen : List κ) (xs : List α) (x : α) :
    keepFirst same key seen (xs ++ [x]) = keepFirst same key seen xs ++
      if seen.any (same (key x)) || (keepFirst same key seen xs).any fun y => same (key x) (key y)
        then [] else [x] := by
  induction xs generalizing seen with
  | nil => by_cases already : seen.any (same (key x)) = true <;> simp [keepFirst, already]
  | cons first rest ih =>
    simp only [List.cons_append, keepFirst]
    split
    · exact ih seen
    · rw [ih, List.any_cons, List.any_cons, List.cons_append, Bool.or_assoc, Bool.or_left_comm]

/-- The members of a row before which none passes for one of the same key. -/
def firstBy (same : κ → κ → Bool) (key : α → κ) (xs : List α) : List α :=
  (xs.zipIdx.filter fun x => !(xs.take x.2).any fun y => same (key x.1) (key y)).map Prod.fst

theorem firstBy_concat (xs : List α) (x : α) :
    firstBy same key (xs ++ [x]) =
      firstBy same key xs ++ if xs.any fun y => same (key x) (key y) then [] else [x] := by
  -- What stands before an earlier member is the same in both rows.
  have front : xs.zipIdx.filter (fun place => !((xs ++ [x]).take place.2).any fun y =>
      same (key place.1) (key y)) =
        xs.zipIdx.filter fun place => !(xs.take place.2).any fun y =>
          same (key place.1) (key y) := by
    refine List.filter_congr fun y member => ?_
    have below : y.2 < xs.length := by
      simpa using (List.mem_zipIdx member).2.1
    rw [List.take_append_of_le_length (Nat.le_of_lt below)]
  rw [firstBy, List.zipIdx_append, List.filter_append, List.map_append, front]
  by_cases already : (xs.any fun y => same (key x) (key y)) = true
  · simp [firstBy, already]
  · simp [firstBy, already]

/-- A test need not be transitive. Where no other key counts as the same as that of a kept member,
it makes no difference whether members are compared with all before them or with the kept ones. -/
theorem keepFirst_eq_firstBy {xs : List α}
    (stable : ∀ kept ∈ keepFirst same key [] xs, ∀ k, same k (key kept) = true → k = key kept) :
    keepFirst same key [] xs = firstBy same key xs := by
  induction xs using List.reverseRecOn with
  | nil => rfl
  | append_singleton xs x ih =>
    have stableFront := fun kept member =>
      stable kept ((isPrefix_keepFirst same key [] xs [x]).subset member)
    have agree : (keepFirst same key [] xs).any (fun y => same (key x) (key y)) =
        xs.any fun y => same (key x) (key y) := by
      rw [Bool.eq_iff_iff, List.any_eq_true, List.any_eq_true]
      constructor
      · rintro ⟨y, kept, equal⟩
        exact ⟨y, (keepFirst_sublist [] xs).subset kept, equal⟩
      · rintro ⟨y, member, equal⟩
        rcases @mem_keepFirst_or_same _ _ same key [] _ _ member with
          nothing | ⟨kept, inside, rfl | keyed⟩
        · exact absurd nothing Bool.false_ne_true
        · exact ⟨y, inside, equal⟩
        · exact ⟨kept, inside, stableFront kept inside _ keyed ▸ equal⟩
    rw [keepFirst_concat, firstBy_concat, ← agree, ih stableFront]
    rfl

end

section
variable {α κ : Type} [BEq κ] {key : α → κ}

variable [LawfulBEq κ]

theorem nodup_keepFirst (seen : List κ) (xs : List α) :
    ((keepFirst (· == ·) key seen xs).map key).Nodup := by
  rw [List.nodup_iff_pairwise_ne, List.pairwise_map]
  refine (pairwise_keepFirst seen xs).imp ?_
  intro a b different equal
  simp [equal] at different

theorem exists_mem_keepFirst {seen : List κ} {xs : List α} {x : α} (member : x ∈ xs)
    (unseen : key x ∉ seen) : ∃ kept ∈ keepFirst (· == ·) key seen xs, key kept = key x := by
  rcases @mem_keepFirst_or_same _ _ (· == ·) key seen _ _ member with
    before | ⟨kept, inside, rfl | equal⟩
  · exact absurd (by simpa using before) unseen
  · exact ⟨x, inside, rfl⟩
  · exact ⟨kept, inside, (eq_of_beq equal).symm⟩

end

theorem exists_append_of_mem_keepFirst {α κ : Type} [BEq κ] [LawfulBEq κ] {key : α → κ}
    {seen : List κ} {xs : List α} {x : α} (member : x ∈ keepFirst (· == ·) key seen xs) :
    ∃ front back, xs = front ++ x :: back ∧ ∀ y ∈ front, key y ≠ key x := by
  induction xs generalizing seen with
  | nil => simp [keepFirst] at member
  | cons first rest ih =>
    have unseen : key x ∉ seen := by
      have passed := unseen_of_mem_keepFirst member
      rwa [List.any_beq, List.contains_eq_mem, decide_eq_false_iff_not] at passed
    simp only [keepFirst] at member
    split at member
    · rename_i already
      obtain ⟨front, back, rfl, others⟩ := ih member
      refine ⟨first :: front, back, rfl, List.forall_mem_cons.mpr ⟨?_, others⟩⟩
      rintro same
      exact unseen (by simpa [same] using already)
    · rcases List.mem_cons.mp member with rfl | inside
      · exact ⟨[], rest, rfl, by simp⟩
      · obtain ⟨front, back, rfl, others⟩ := ih inside
        refine ⟨first :: front, back, rfl, List.forall_mem_cons.mpr ⟨?_, others⟩⟩
        have other := unseen_of_mem_keepFirst inside
        simp only [List.any_cons, Bool.or_eq_false_iff, beq_eq_false_iff_ne] at other
        exact other.1.symm

end ApiCatalog
