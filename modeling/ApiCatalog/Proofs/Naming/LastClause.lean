import ApiCatalog.Naming.OperationId
import ApiCatalog.Proofs.Text.Cuts

/-!
Names of operation ids. A line is cut before the last clause that stands behind its first character;
without such a clause it stays whole. A final line break is kept, and a text of several lines is not
cut.
-/

namespace ApiCatalog.Naming

/-- A clause begins at a place behind the first character. -/
def HasClauseAt (text : List Char) (place : Nat) : Prop :=
  1 ≤ place ∧ ∃ c rest, text.drop place = clauseWord ++ c :: rest

structure IsLastClause (text : List Char) (place : Nat) : Prop where
  begins : HasClauseAt text place
  last : ∀ other, HasClauseAt text other → other ≤ place

theorem opensClause_iff {text : List Char} :
    opensClause text = true ↔ ∃ c rest, text = clauseWord ++ c :: rest := by
  unfold opensClause
  constructor
  · intro opens
    split at opens
    · rename_i c rest cut
      exact ⟨c, rest, (Text.dropStart?_eq_some_iff _ _ _).mp cut⟩
    · exact absurd opens Bool.false_ne_true
  · rintro ⟨c, rest, rfl⟩
    rw [Text.dropStart?_append]

theorem beforeLastClause_eq_none_iff {text : List Char} :
    beforeLastClause text = none ↔ ∀ place, opensClause (text.drop place) = false := by
  induction text with
  | nil => simp [beforeLastClause, opensClause, Text.dropStart?, clauseWord]
  | cons c rest ih =>
    rw [← Nat.and_forall_add_one, List.drop_zero]
    simp only [List.drop_succ_cons, ← ih]
    cases later : beforeLastClause rest <;> simp [beforeLastClause, later]

theorem beforeLastClause_eq_some {text front : List Char}
    (found : beforeLastClause text = some front) :
    ∃ place, front = text.take place ∧ opensClause (text.drop place) = true ∧
      ∀ other, opensClause (text.drop other) = true → other ≤ place := by
  induction text generalizing front with
  | nil => simp [beforeLastClause] at found
  | cons c rest ih =>
    rw [beforeLastClause] at found
    split at found
    · rename_i inner later
      obtain rfl := Option.some.inj found
      obtain ⟨place, rfl, opens, last⟩ := ih later
      refine ⟨place + 1, rfl, opens, fun other begins => ?_⟩
      cases other with
      | zero => omega
      | succ other => exact Nat.succ_le_succ (last other begins)
    · rename_i none
      split at found
      · rename_i opens
        obtain rfl := Option.some.inj found
        refine ⟨0, rfl, opens, fun other begins => ?_⟩
        cases other with
        | zero => exact Nat.le_refl 0
        | succ other =>
          exact absurd begins (by simp [beforeLastClause_eq_none_iff.mp none other])
      · simp at found

theorem hasClauseAt_cons_succ_iff {c : Char} {rest : List Char} {place : Nat} :
    HasClauseAt (c :: rest) (place + 1) ↔ opensClause (rest.drop place) = true := by
  rw [HasClauseAt, List.drop_succ_cons, opensClause_iff]
  exact and_iff_right (by omega)

/-- A line is cut before its last clause, or has none and stays whole. -/
def CutsTo (line name : List Char) : Prop :=
  (∃ place, IsLastClause line place ∧ name = line.take place) ∨
    ((∀ place, ¬ HasClauseAt line place) ∧ name = line)

theorem cutsTo_dropClause (line : List Char) : CutsTo line (dropClause line) := by
  cases line with
  | nil =>
    refine Or.inr ⟨?_, rfl⟩
    rintro place ⟨-, c, rest, same⟩
    simp [clauseWord] at same
  | cons c rest =>
    have positive {place : Nat} (begins : HasClauseAt (c :: rest) place) :
        ∃ before, place = before + 1 ∧ opensClause (rest.drop before) = true := by
      obtain ⟨before, rfl⟩ := Nat.exists_eq_add_of_le' begins.1
      exact ⟨before, rfl, hasClauseAt_cons_succ_iff.mp begins⟩
    rw [dropClause]
    cases found : beforeLastClause rest with
    | none =>
      refine Or.inr ⟨fun place begins => ?_, rfl⟩
      obtain ⟨before, -, opens⟩ := positive begins
      simp [beforeLastClause_eq_none_iff.mp found before] at opens
    | some front =>
      obtain ⟨place, rfl, opens, last⟩ := beforeLastClause_eq_some found
      refine Or.inl ⟨place + 1, ⟨hasClauseAt_cons_succ_iff.mpr opens, fun other begins => ?_⟩, rfl⟩
      obtain ⟨before, rfl, opensToo⟩ := positive begins
      exact Nat.succ_le_succ (last before opensToo)

theorem dropEnd?_lineBreak_eq_none {line : List Char} (oneLine : '\n' ∉ line) :
    Text.dropEnd? ['\n'] line = none := by
  cases cut : Text.dropEnd? ['\n'] line with
  | none => rfl
  | some front =>
    obtain rfl := (Text.dropEnd?_eq_some_iff _ _ _).mp cut
    exact absurd (List.mem_append_right front (List.mem_singleton_self '\n')) oneLine

theorem operationName_of_line {line : List Char} (oneLine : '\n' ∉ line) :
    operationName line = dropClause line := by
  simp [operationName, dropEnd?_lineBreak_eq_none oneLine, oneLine]

theorem operationName_of_closedLine {line : List Char} (oneLine : '\n' ∉ line) :
    operationName (line ++ ['\n']) = dropClause line ++ ['\n'] := by
  have cut : Text.dropEnd? ['\n'] (line ++ ['\n']) = some line :=
    (Text.dropEnd?_eq_some_iff _ _ _).mpr rfl
  simp [operationName, cut, oneLine]

theorem operationName_of_lines {text : List Char} (broken : '\n' ∈ text)
    (several : ∀ line, text = line ++ ['\n'] → '\n' ∈ line) : operationName text = text := by
  unfold operationName
  split
  · rename_i line cut
    have inside := several line ((Text.dropEnd?_eq_some_iff _ _ _).mp cut)
    simp [inside]
  · simp [broken]

theorem eq_self_of_cutsTo {line name : List Char} (cuts : CutsTo line name)
    (none : ∀ place, ¬ HasClauseAt line place) : name = line := by
  rcases cuts with ⟨place, ⟨begins, -⟩, -⟩ | ⟨-, same⟩
  · exact absurd begins (none place)
  · exact same

/-- The name of an id in one line is cut before its last clause. A final line break is kept, and any
other text with line breaks stays as it is. -/
theorem cutsTo_operationName (text : List Char) :
    ('\n' ∉ text → CutsTo text (operationName text) ∧
      operationName (text ++ ['\n']) = operationName text ++ ['\n']) ∧
    ('\n' ∈ text →
      (∀ line place, text = line ++ ['\n'] → '\n' ∉ line → ¬ HasClauseAt line place) →
        operationName text = text) := by
  constructor
  · intro oneLine
    rw [operationName_of_closedLine oneLine, operationName_of_line oneLine]
    exact ⟨cutsTo_dropClause text, rfl⟩
  · intro broken none
    by_cases closed : ∃ line, text = line ++ ['\n'] ∧ '\n' ∉ line
    · obtain ⟨line, rfl, oneLine⟩ := closed
      rw [operationName_of_closedLine oneLine,
        eq_self_of_cutsTo (cutsTo_dropClause line) fun place => none line place rfl oneLine]
    · refine operationName_of_lines broken fun line whole => ?_
      exact Classical.byContradiction fun oneLine => closed ⟨line, whole, oneLine⟩

theorem cutsTo_findUsingTags :
    CutsTo "findUsingTagsUsingGET_1".toList "findUsingTags".toList ∧
      operationName ("findUsingTagsUsingGET_1".toList ++ ['\n']) =
        "findUsingTags".toList ++ ['\n'] ∧
      operationName "find\nUsingGET".toList = "find\nUsingGET".toList := by
  have name : operationName "findUsingTagsUsingGET_1".toList = "findUsingTags".toList := by decide
  obtain ⟨cut, closed⟩ := (cutsTo_operationName "findUsingTagsUsingGET_1".toList).1 (by decide)
  rw [name] at cut closed
  refine ⟨cut, closed, ?_⟩
  refine (cutsTo_operationName "find\nUsingGET".toList).2 (by decide) fun line place whole => ?_
  exact absurd (congrArg List.getLast? whole) (by simp)

end ApiCatalog.Naming
