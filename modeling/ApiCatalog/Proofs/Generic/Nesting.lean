import ApiCatalog.Generic.Notation
import ApiCatalog.Proofs.Text.Cuts

/-!
Nesting of guillemets: the scanner cuts a payload exactly at the commas outside all guillemets, so
a payload is cut into some pieces exactly if it is their comma join.
-/

namespace ApiCatalog.Generic

/-- How many guillemets are open behind a text, if `depth` are open before it. None if one of them
closes nothing or a comma stands outside all of them. -/
def openAfter (depth : Nat) : List Char → Option Nat
  | [] => some depth
  | c :: rest =>
    if c = '«' then openAfter (depth + 1) rest
    else if c = '»' then if depth = 0 then none else openAfter (depth - 1) rest
    else if c = ',' ∧ depth = 0 then none
    else openAfter depth rest

/-- What a character inside a piece does to the number of open guillemets. -/
inductive Moves (c : Char) : Nat → Nat → Prop
  | opens {depth : Nat} (opening : c = '«') : Moves c depth (depth + 1)
  | closes {depth : Nat} (closing : c = '»') : Moves c (depth + 1) depth
  | stays {depth : Nat} (unmarked : c ≠ '«' ∧ c ≠ '»') (inside : ¬ (c = ',' ∧ depth = 0)) :
    Moves c depth depth

section
variable {c : Char} {depth inner : Nat}

theorem Moves.openAfter_cons (moves : Moves c depth inner) (rest : List Char) :
    openAfter depth (c :: rest) = openAfter inner rest := by
  cases moves with
  | opens opening => rw [openAfter, if_pos opening]
  | closes closing => simp [openAfter, closing]
  | stays unmarked inside =>
    rw [openAfter, if_neg unmarked.1, if_neg unmarked.2, if_neg inside]

theorem Moves.pieces_cons (moves : Moves c depth inner) (rest : List Char) :
    pieces depth (c :: rest) = (pieces inner rest).map (consFirst c) := by
  cases moves with
  | opens opening => rw [pieces, if_pos opening]
  | closes closing => simp [pieces, closing]
  | stays unmarked inside =>
    rw [pieces, if_neg unmarked.1, if_neg unmarked.2, if_neg inside]

theorem Moves.add (moves : Moves c depth inner) (more : Nat) :
    Moves c (depth + more) (inner + more) := by
  cases moves with
  | opens opening =>
    rw [Nat.add_right_comm]
    exact .opens opening
  | closes closing =>
    rw [Nat.add_right_comm]
    exact .closes closing
  | stays unmarked inside =>
    exact .stays unmarked fun outside => inside ⟨outside.1, by omega⟩

theorem moves_or_ends (c : Char) (depth : Nat) :
    (∃ inner, Moves c depth inner) ∨ depth = 0 ∧ (c = '»' ∨ c = ',') := by
  by_cases opening : c = '«'
  · exact .inl ⟨_, .opens opening⟩
  · by_cases closing : c = '»'
    · cases depth with
      | zero => exact .inr ⟨rfl, .inl closing⟩
      | succ depth => exact .inl ⟨_, .closes closing⟩
    · by_cases comma : c = ',' ∧ depth = 0
      · exact .inr ⟨comma.2, .inr comma.1⟩
      · exact .inl ⟨_, .stays ⟨opening, closing⟩ comma⟩

theorem openAfter_zero_cons {rest : List Char} (ends : c = '»' ∨ c = ',') :
    openAfter 0 (c :: rest) = none := by
  rcases ends with rfl | rfl <;> rfl

theorem openAfter_cons_eq_some_iff {final : Nat} {rest : List Char} :
    openAfter depth (c :: rest) = some final ↔
      ∃ inner, Moves c depth inner ∧ openAfter inner rest = some final := by
  constructor
  · intro walked
    rcases moves_or_ends c depth with ⟨inner, moves⟩ | ⟨rfl, ends⟩
    · exact ⟨inner, moves, moves.openAfter_cons rest ▸ walked⟩
    · rw [openAfter_zero_cons ends] at walked
      cases walked
  · rintro ⟨inner, moves, walked⟩
    rw [moves.openAfter_cons, walked]

end

/-- A text in which every guillemet has its partner and every comma stands inside a pair. -/
def IsPiece (text : List Char) : Prop :=
  openAfter 0 text = some 0

def joinPieces (found : List (List Char)) : List Char :=
  List.intercalate [','] found

theorem joinPieces_cons_cons (first second : List Char) (others : List (List Char)) :
    joinPieces (first :: second :: others) = first ++ ',' :: joinPieces (second :: others) := by
  simp [joinPieces, List.intercalate_cons_cons]

theorem joinPieces_cons (c : Char) (first : List Char) (others : List (List Char)) :
    joinPieces ((c :: first) :: others) = c :: joinPieces (first :: others) := by
  cases others with
  | nil => rfl
  | cons second others => simp [joinPieces_cons_cons]

theorem joinPieces_append {front back : List (List Char)} (frontNonempty : front ≠ [])
    (backNonempty : back ≠ []) :
    joinPieces front ++ ',' :: joinPieces back = joinPieces (front ++ back) := by
  induction front with
  | nil => exact absurd rfl frontNonempty
  | cons first others ih =>
    cases others with
    | nil =>
      obtain ⟨second, back, rfl⟩ := List.exists_cons_of_ne_nil backNonempty
      simp [joinPieces]
    | cons second others =>
      have rest := ih (by simp)
      simp only [List.cons_append, joinPieces_cons_cons, List.append_assoc] at rest ⊢
      rw [rest]

theorem openAfter_append (depth : Nat) (front back : List Char) :
    openAfter depth (front ++ back) = (openAfter depth front).bind (openAfter · back) := by
  induction front generalizing depth with
  | nil => rfl
  | cons c front ih =>
    rw [List.cons_append]
    rcases moves_or_ends c depth with ⟨inner, moves⟩ | ⟨rfl, ends⟩
    · rw [moves.openAfter_cons, moves.openAfter_cons, ih]
    · rw [openAfter_zero_cons ends, openAfter_zero_cons ends]
      rfl

theorem openAfter_add {depth final : Nat} {text : List Char} (more : Nat)
    (walked : openAfter depth text = some final) :
    openAfter (depth + more) text = some (final + more) := by
  induction text generalizing depth with
  | nil => simpa [openAfter] using walked
  | cons c rest ih =>
    obtain ⟨inner, moves, walked⟩ := openAfter_cons_eq_some_iff.mp walked
    rw [(moves.add more).openAfter_cons, ih walked]

theorem openAfter_of_markless {text : List Char}
    (markless : ∀ c ∈ text, c ≠ '«' ∧ c ≠ '»' ∧ c ≠ ',') (depth : Nat) :
    openAfter depth text = some depth := by
  induction text with
  | nil => rfl
  | cons c rest ih =>
    obtain ⟨notOpening, notClosing, notComma⟩ := markless c (by simp)
    simp only [openAfter, notOpening, notClosing, notComma, if_false, false_and]
    exact ih fun other member => markless other (by simp [member])

theorem IsPiece.append {front back : List Char} (first : IsPiece front) (second : IsPiece back) :
    IsPiece (front ++ back) := by
  rw [IsPiece, openAfter_append, first]
  exact second

theorem openAfter_joinPieces {found : List (List Char)} (all : ∀ piece ∈ found, IsPiece piece)
    (depth : Nat) : openAfter (depth + 1) (joinPieces found) = some (depth + 1) := by
  have inner (piece : List Char) (member : piece ∈ found) :
      openAfter (depth + 1) piece = some (depth + 1) := by
    simpa using openAfter_add (depth + 1) (all piece member)
  induction found with
  | nil => rfl
  | cons first others ih =>
    cases others with
    | nil => simpa [joinPieces] using inner first (by simp)
    | cons second others =>
      have rest := ih (fun piece member => all piece (by simp [member]))
        (fun piece member => inner piece (by simp [member]))
      rw [joinPieces_cons_cons, openAfter_append, inner first (by simp)]
      simpa [openAfter] using rest

theorem IsPiece.bracketed {outer payload : List Char} (front : IsPiece outer)
    (inside : openAfter 1 payload = some 1) : IsPiece (outer ++ '«' :: (payload ++ ['»'])) := by
  rw [IsPiece, openAfter_append, front]
  simp [openAfter, openAfter_append, inside]

def prependFirst (front : List Char) (found : List (List Char)) : List (List Char) :=
  front.foldr consFirst found

theorem prependFirst_cons (front piece : List Char) (others : List (List Char)) :
    prependFirst front (piece :: others) = (front ++ piece) :: others := by
  induction front with
  | nil => rfl
  | cons c front ih => simpa [prependFirst, consFirst] using congrArg (consFirst c) ih

theorem pieces_append {depth final : Nat} {front : List Char}
    (walked : openAfter depth front = some final) (back : List Char) :
    pieces depth (front ++ back) = (pieces final back).map (prependFirst front) := by
  induction front generalizing depth with
  | nil =>
    obtain rfl := Option.some.inj walked
    have same : prependFirst [] = id := rfl
    rw [same, Option.map_id_fun]
    rfl
  | cons c front ih =>
    obtain ⟨inner, moves, walked⟩ := openAfter_cons_eq_some_iff.mp walked
    have grown : prependFirst (c :: front) = consFirst c ∘ prependFirst front := rfl
    rw [List.cons_append, moves.pieces_cons, ih walked, Option.map_map, grown]

theorem pieces_of_isPiece {text : List Char} (piece : IsPiece text) :
    pieces 0 text = some [text] := by
  have whole := pieces_append piece []
  simpa [pieces, prependFirst_cons] using whole

theorem pieces_joinPieces {found : List (List Char)} (nonempty : found ≠ [])
    (all : ∀ piece ∈ found, IsPiece piece) : pieces 0 (joinPieces found) = some found := by
  induction found with
  | nil => exact absurd rfl nonempty
  | cons first others ih =>
    cases others with
    | nil => simpa [joinPieces] using pieces_of_isPiece (all first (by simp))
    | cons second others =>
      have rest := ih (by simp) (fun piece member => all piece (by simp [member]))
      rw [joinPieces_cons_cons, pieces_append (all first (by simp))]
      simp [pieces, rest, prependFirst_cons]

theorem exists_of_pieces {depth : Nat} {text : List Char} {found : List (List Char)}
    (cut : pieces depth text = some found) :
    ∃ first others, found = first :: others ∧ text = joinPieces found ∧
      openAfter depth first = some 0 ∧ ∀ piece ∈ others, IsPiece piece := by
  induction text generalizing depth found with
  | nil =>
    simp only [pieces] at cut
    split at cut
    · rename_i closed
      obtain rfl := Option.some.inj cut
      exact ⟨[], [], rfl, rfl, by simp [openAfter, closed], by simp⟩
    · simp at cut
  | cons c rest ih =>
    rcases moves_or_ends c depth with ⟨inner, moves⟩ | ⟨rfl, rfl | rfl⟩
    · rw [moves.pieces_cons] at cut
      obtain ⟨tail, hcut, rfl⟩ := Option.map_eq_some_iff.mp cut
      obtain ⟨first, others, rfl, joined, closed, pieces⟩ := ih hcut
      refine ⟨c :: first, others, rfl, ?_, ?_, pieces⟩
      · rw [consFirst, joinPieces_cons, joined]
      · rw [moves.openAfter_cons, closed]
    · simp [pieces] at cut
    · -- The comma ends an empty piece.
      obtain ⟨tail, hcut, rfl⟩ := Option.map_eq_some_iff.mp cut
      obtain ⟨first, others, rfl, joined, closed, pieces⟩ := ih hcut
      refine ⟨[], first :: others, rfl, ?_, rfl, ?_⟩
      · rw [joinPieces_cons_cons, joined, List.nil_append]
      · exact List.forall_mem_cons.mpr ⟨closed, pieces⟩

theorem pieces_eq_some_iff {text : List Char} {found : List (List Char)} :
    pieces 0 text = some found ↔
      found ≠ [] ∧ text = joinPieces found ∧ ∀ piece ∈ found, IsPiece piece := by
  constructor
  · intro cut
    obtain ⟨first, others, rfl, joined, closed, pieces⟩ := exists_of_pieces cut
    exact ⟨by simp, joined, by simpa [IsPiece, closed] using pieces⟩
  · rintro ⟨nonempty, rfl, all⟩
    exact pieces_joinPieces nonempty all

theorem arguments_eq_some_iff {payload : List Char} {listed : List (List Char)} :
    arguments payload = some listed ↔
      ∃ found, pieces 0 payload = some found ∧ (∀ piece ∈ found, Text.allBlank piece = false) ∧
        listed = found.map Text.strip := by
  unfold arguments
  cases cut : pieces 0 payload with
  | none => simp
  | some found =>
    simp only [Option.some.injEq, exists_eq_left']
    split
    · rename_i blank
      simp only [List.any_eq_true] at blank
      obtain ⟨piece, member, isBlank⟩ := blank
      simp only [reduceCtorEq, false_iff, not_and]
      intro none
      simp [none piece member] at isBlank
    · rename_i filled
      have none : ∀ piece ∈ found, Text.allBlank piece = false := by simpa using filled
      simp only [Option.some.injEq, eq_comm (a := listed)]
      exact ⟨fun same => ⟨none, same⟩, fun both => both.2⟩

theorem split_bracketed {outer payload : List Char} (filled : outer ≠ []) (absent : '«' ∉ outer)
    (listed : (arguments payload).isSome = true) :
    split (outer ++ '«' :: (payload ++ ['»'])) = some (outer, payload) := by
  have front : Text.before '«' (outer ++ '«' :: (payload ++ ['»'])) = outer :=
    Text.before_append absent _
  have cut : Text.dropEnd? ['»'] (payload ++ ['»']) = some payload :=
    (Text.dropEnd?_eq_some_iff _ _ _).mpr rfl
  have rest : (outer ++ '«' :: (payload ++ ['»'])).drop (outer.length + 1) = payload ++ ['»'] := by
    simp
  unfold split
  simp only [front, rest, cut, listed, if_true]
  rw [if_neg (by simpa using filled)]

theorem eq_before_append_of_drop {name back : List Char} (nonempty : back ≠ [])
    (cut : name.drop ((Text.before '«' name).length + 1) = back) :
    name = Text.before '«' name ++ '«' :: back := by
  have present : '«' ∈ name := Decidable.byContradiction fun absent => by
    rw [Text.before_eq_self absent, List.drop_eq_nil_of_le (by omega)] at cut
    exact nonempty cut.symm
  obtain ⟨rest, whole⟩ := Text.eq_before_append present
  have same : rest = back :=
    calc
      rest = (Text.before '«' name ++ '«' :: rest).drop ((Text.before '«' name).length + 1) := by
          simp
      _ = name.drop ((Text.before '«' name).length + 1) := by rw [← whole]
      _ = back := cut
  rw [← same]
  exact whole

theorem split_eq_some_iff {name outer payload : List Char} :
    split name = some (outer, payload) ↔
      outer ≠ [] ∧ '«' ∉ outer ∧ name = outer ++ '«' :: (payload ++ ['»']) ∧
        (arguments payload).isSome = true := by
  constructor
  · intro parted
    unfold split at parted
    simp only at parted
    split at parted
    · simp at parted
    · rename_i filled
      split at parted
      · simp at parted
      · rename_i inner cut
        split at parted
        · rename_i listed
          simp only [Option.some.injEq, Prod.mk.injEq] at parted
          obtain ⟨rfl, rfl⟩ := parted
          rw [Text.dropEnd?_eq_some_iff] at cut
          exact ⟨by simpa using filled, Text.not_mem_before _ _,
            eq_before_append_of_drop (by simp) cut, listed⟩
        · simp at parted
  · rintro ⟨filled, absent, rfl, listed⟩
    exact split_bracketed filled absent listed

end ApiCatalog.Generic
