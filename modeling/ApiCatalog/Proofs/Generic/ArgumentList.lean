import ApiCatalog.Proofs.Generic.Nesting

/-!
Lists of arguments as a grammar that counts guillemets. A payload is read exactly if it joins, by
commas, pieces that are not blank, whose guillemets balance and whose commas stand inside them.
There is one way at most to take a payload for such a join, and the arguments are its pieces
without their margins.
-/

namespace ApiCatalog.Generic

/-- Nowhere are more guillemets closed than were opened, and in the end all are closed. -/
structure IsBalanced (text : List Char) : Prop where
  closes_le : ∀ front, front <+: text → front.count '»' ≤ front.count '«'
  closes_eq : text.count '»' = text.count '«'

def CommasInside (text : List Char) : Prop :=
  ∀ front, front ++ [','] <+: text → front.count '»' < front.count '«'

structure IsArgumentList (payload : List Char) (found : List (List Char)) : Prop where
  nonempty : found ≠ []
  joined : payload = List.intercalate [','] found
  balanced : ∀ piece ∈ found, IsBalanced piece
  commas : ∀ piece ∈ found, CommasInside piece
  filled : ∀ piece ∈ found, Text.allBlank piece = false

theorem forall_prefix_cons {c : Char} {rest : List Char} {holds : List Char → Prop} :
    (∀ front, front <+: c :: rest → holds front) ↔
      holds [] ∧ ∀ front, front <+: rest → holds (c :: front) := by
  constructor
  · intro all
    refine ⟨all [] List.nil_prefix, ?_⟩
    intro front leads
    exact all (c :: front) (List.cons_prefix_cons.mpr ⟨rfl, leads⟩)
  · rintro ⟨first, all⟩ front leads
    cases front with
    | nil => exact first
    | cons d front =>
      obtain ⟨rfl, others⟩ := List.cons_prefix_cons.mp leads
      exact all front others

theorem forall_before_comma_cons {c : Char} {rest : List Char} {holds : List Char → Prop} :
    (∀ front, front ++ [','] <+: c :: rest → holds front) ↔
      (c = ',' → holds []) ∧ ∀ front, front ++ [','] <+: rest → holds (c :: front) := by
  constructor
  · intro all
    constructor
    · rintro rfl
      exact all [] (List.prefix_append [','] rest)
    · intro front leads
      exact all (c :: front) (List.cons_prefix_cons.mpr ⟨rfl, leads⟩)
  · rintro ⟨first, all⟩ front leads
    cases front with
    | nil => exact first (List.cons_prefix_cons.mp leads).1.symm
    | cons d front =>
      obtain ⟨rfl, others⟩ := List.cons_prefix_cons.mp leads
      exact all front others

theorem openAfter_eq_some_iff {depth final : Nat} {text : List Char} :
    openAfter depth text = some final ↔
      (∀ front, front <+: text → front.count '»' ≤ depth + front.count '«') ∧
      (∀ front, front ++ [','] <+: text → front.count '»' < depth + front.count '«') ∧
      final + text.count '»' = depth + text.count '«' := by
  induction text generalizing depth with
  | nil =>
    simp [openAfter]
    omega
  | cons c rest ih =>
    rw [forall_prefix_cons, forall_before_comma_cons, openAfter]
    by_cases opening : c = '«'
    · subst opening
      simp [ih, Nat.add_assoc, Nat.add_comm 1]
    · by_cases closing : c = '»'
      · subst closing
        cases depth with
        | zero =>
          constructor
          · intro walked
            simp at walked
          · rintro ⟨⟨-, below⟩, -⟩
            exact absurd (below [] List.nil_prefix) (by decide)
        | succ depth => simp [ih, Nat.add_right_comm, ← Nat.add_assoc]
      · by_cases comma : c = ','
        · subst comma
          cases depth with
          | zero => simp
          | succ depth => simp [ih]
        · simp [opening, closing, comma, ih]

theorem isPiece_iff {text : List Char} : IsPiece text ↔ IsBalanced text ∧ CommasInside text := by
  rw [IsPiece, openAfter_eq_some_iff]
  simp only [Nat.zero_add]
  constructor
  · rintro ⟨below, inside, total⟩
    exact ⟨⟨below, total⟩, inside⟩
  · rintro ⟨⟨below, total⟩, inside⟩
    exact ⟨below, inside, total⟩

theorem isArgumentList_iff {payload : List Char} {found : List (List Char)} :
    IsArgumentList payload found ↔
      pieces 0 payload = some found ∧ ∀ piece ∈ found, Text.allBlank piece = false := by
  rw [pieces_eq_some_iff]
  constructor
  · rintro ⟨nonempty, joined, balanced, commas, filled⟩
    refine ⟨⟨nonempty, joined, ?_⟩, filled⟩
    intro piece member
    exact isPiece_iff.mpr ⟨balanced piece member, commas piece member⟩
  · rintro ⟨⟨nonempty, joined, all⟩, filled⟩
    refine ⟨nonempty, joined, ?_, ?_, filled⟩
    · intro piece member
      exact (isPiece_iff.mp (all piece member)).1
    · intro piece member
      exact (isPiece_iff.mp (all piece member)).2

theorem IsArgumentList.eq {payload : List Char} {found other : List (List Char)}
    (listed : IsArgumentList payload found) (relisted : IsArgumentList payload other) :
    other = found := by
  have first := (isArgumentList_iff.mp listed).1
  have second := (isArgumentList_iff.mp relisted).1
  exact Option.some.inj (second.symm.trans first)

theorem IsArgumentList.arguments {payload : List Char} {found : List (List Char)}
    (listed : IsArgumentList payload found) :
    arguments payload = some (found.map Text.strip) := by
  obtain ⟨cut, filled⟩ := isArgumentList_iff.mp listed
  exact arguments_eq_some_iff.mpr ⟨found, cut, filled, rfl⟩

theorem isSome_arguments_iff {payload : List Char} :
    (arguments payload).isSome = true ↔ ∃ found, IsArgumentList payload found := by
  constructor
  · intro returned
    obtain ⟨listed, hlisted⟩ := Option.isSome_iff_exists.mp returned
    obtain ⟨found, cut, filled, -⟩ := arguments_eq_some_iff.mp hlisted
    exact ⟨found, isArgumentList_iff.mpr ⟨cut, filled⟩⟩
  · rintro ⟨found, listed⟩
    rw [listed.arguments]
    rfl

/-- Reading accepts exactly the payloads of the grammar, and each of them lists the pieces of the
one join that it is. -/
theorem arguments_iff_isArgumentList (payload : List Char) :
    ((arguments payload).isSome = true ↔ ∃ found, IsArgumentList payload found) ∧
      ∀ found, IsArgumentList payload found →
        arguments payload = some (found.map Text.strip) ∧
          ∀ other, IsArgumentList payload other → other = found := by
  refine ⟨isSome_arguments_iff, ?_⟩
  intro found listed
  refine ⟨listed.arguments, ?_⟩
  intro other relisted
  exact listed.eq relisted

theorem arguments_of_spaced_pair :
    IsArgumentList " string , Map«A,B»".toList [" string ".toList, " Map«A,B»".toList] ∧
      arguments " string , Map«A,B»".toList = some ["string".toList, "Map«A,B»".toList] := by
  have listed : IsArgumentList " string , Map«A,B»".toList
      [" string ".toList, " Map«A,B»".toList] := isArgumentList_iff.mpr ⟨by decide, by decide⟩
  obtain ⟨returned, -⟩ := (arguments_iff_isArgumentList " string , Map«A,B»".toList).2 _ listed
  exact ⟨listed, returned.trans (by decide)⟩

end ApiCatalog.Generic
