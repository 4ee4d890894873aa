import ApiCatalog.Naming.Route
import ApiCatalog.Proofs.Text.Cuts

/-!
Segments of paths. A slash between two paths joins their segments, and further slashes add none. A
cut at a mark leaves the segments before the first marked one, and of that the part before the mark.
-/

namespace ApiCatalog.Naming

theorem mem_segments_iff {path segment : List Char} :
    segment ∈ segments path ↔ segment ∈ path.splitOn '/' ∧ segment ≠ [] := by
  simp [segments]

theorem infix_of_mem_segments {path segment : List Char} (member : segment ∈ segments path) :
    segment <:+: path := by
  conv => rhs; rw [← @List.intercalate_splitOn _ path _ _ '/']
  exact Text.infix_intercalate (mem_segments_iff.mp member).1

theorem segments_append_slash (front back : List Char) :
    segments (front ++ '/' :: back) = segments front ++ segments back := by
  rw [segments, List.splitOn_append_cons_self, List.filter_append]
  rfl

theorem segments_slash_cons (path : List Char) : segments ('/' :: path) = segments path :=
  segments_append_slash [] path

theorem segments_dropSlash (path : List Char) : segments (dropSlash path) = segments path := by
  unfold dropSlash
  split
  · exact (segments_slash_cons _).symm
  · rfl

theorem segments_intercalate {row : List (List Char)} (slashless : ∀ piece ∈ row, '/' ∉ piece) :
    segments (List.intercalate ['/'] row) = row.filter fun piece => !piece.isEmpty := by
  by_cases empty : row = []
  · rw [empty]
    rfl
  · rw [segments, List.splitOn_intercalate '/' slashless empty]

theorem segments_eq_nil_iff {path : List Char} : segments path = [] ↔ ∀ c ∈ path, c = '/' := by
  constructor
  · intro none
    induction path with
    | nil => exact fun c member => absurd member List.not_mem_nil
    | cons c rest ih =>
      by_cases slash : c = '/'
      · subst slash
        rw [segments_slash_cons] at none
        exact List.forall_mem_cons.mpr ⟨rfl, ih none⟩
      · cases pieces : rest.splitOn '/' with
        | nil => exact absurd pieces (List.splitOn_ne_nil '/' rest)
        | cons first later =>
          simp [segments, List.splitOn_cons_eq_if_modifyHead, slash, pieces] at none
  · intro slashes
    induction path with
    | nil => rfl
    | cons c rest ih =>
      obtain ⟨rfl, others⟩ := List.forall_mem_cons.mp slashes
      rw [segments_slash_cons, ih others]

theorem segments_append_slashes {path slashes : List Char} (every : ∀ c ∈ slashes, c = '/') :
    segments (path ++ slashes) = segments path := by
  cases slashes with
  | nil => rw [List.append_nil]
  | cons c rest =>
    obtain ⟨rfl, others⟩ := List.forall_mem_cons.mp every
    rw [segments_append_slash, segments_eq_nil_iff.mpr others, List.append_nil]

def cutRow (mark : Char) : List (List Char) → List (List Char)
  | [] => []
  | piece :: row =>
    if mark ∈ piece then [Text.before mark piece] else piece :: cutRow mark row

theorem cutRow_append {mark : Char} {row : List (List Char)} (unmarked : ∀ piece ∈ row, mark ∉ piece)
    (rest : List (List Char)) : cutRow mark (row ++ rest) = row ++ cutRow mark rest := by
  induction row with
  | nil => rfl
  | cons piece row ih =>
    obtain ⟨first, others⟩ := List.forall_mem_cons.mp unmarked
    rw [List.cons_append, cutRow, if_neg first, ih others, List.cons_append]

theorem cutRow_eq_self {mark : Char} {row : List (List Char)}
    (unmarked : ∀ piece ∈ row, mark ∉ piece) : cutRow mark row = row := by
  simpa [cutRow] using cutRow_append unmarked []

theorem cutRow_cons_of_mem {mark : Char} {piece : List Char} (marked : mark ∈ piece)
    (row : List (List Char)) : cutRow mark (piece :: row) = [Text.before mark piece] :=
  if_pos marked

theorem splitOn_before {mark : Char} (other : mark ≠ '/') (text : List Char) :
    (Text.before mark text).splitOn '/' = cutRow mark (text.splitOn '/') := by
  induction text with
  | nil => rfl
  | cons c rest ih =>
    cases pieces : rest.splitOn '/' with
    | nil => exact absurd pieces (List.splitOn_ne_nil '/' rest)
    | cons first later =>
      rw [pieces] at ih
      by_cases slash : c = '/'
      · subst slash
        have passes : Text.before mark ('/' :: rest) = '/' :: Text.before mark rest := by
          simp [Text.before, other.symm]
        simp [passes, List.splitOn_cons_eq_if_modifyHead, pieces, ih, cutRow]
      · by_cases marked : c = mark
        · subst marked
          simp [Text.before, List.splitOn_cons_eq_if_modifyHead, slash, pieces, cutRow]
        · have passes : ∀ text, Text.before mark (c :: text) = c :: Text.before mark text := by
            simp [Text.before, marked]
          rw [passes, List.splitOn_cons_eq_if_modifyHead, List.splitOn_cons_eq_if_modifyHead, ih,
            pieces]
          by_cases inside : mark ∈ first
          · simp [slash, cutRow, inside, passes]
          · simp [slash, cutRow, inside, Ne.symm marked]

theorem filter_cutRow_filter (mark : Char) (row : List (List Char)) :
    (cutRow mark (row.filter fun piece => !piece.isEmpty)).filter (fun piece => !piece.isEmpty) =
      (cutRow mark row).filter fun piece => !piece.isEmpty := by
  induction row with
  | nil => rfl
  | cons piece row ih =>
    cases piece with
    | nil => simpa [cutRow] using ih
    | cons c rest =>
      by_cases marked : mark ∈ c :: rest
      · simp [cutRow, marked]
      · simp [cutRow, marked, ih]

theorem segments_before {mark : Char} (other : mark ≠ '/') (path : List Char) :
    segments (Text.before mark path) =
      (cutRow mark (segments path)).filter fun piece => !piece.isEmpty := by
  rw [segments, splitOn_before other, segments, filter_cutRow_filter]

end ApiCatalog.Naming
