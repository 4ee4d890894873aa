import ApiCatalog.Text.Blank
import ApiCatalog.Text.Pieces

/-!
What is left of a text that is stripped of its margins or cut at a mark, and how texts are joined and
split.
-/

namespace ApiCatalog.Text

structure IsTrimmed (cs : List Char) : Prop where
  head : ∀ c ∈ cs.head?, isBlank c = false
  last : ∀ c ∈ cs.getLast?, isBlank c = false

theorem dropWhile_eq_self_of_head {test : Char → Bool} {cs : List Char}
    (head : ∀ c ∈ cs.head?, test c = false) : cs.dropWhile test = cs := by
  cases cs with
  | nil => rfl
  | cons c cs => simp [head c (by simp)]

theorem dropWhile_append_of_all {test : Char → Bool} {front cs : List Char}
    (all : front.all test = true) : (front ++ cs).dropWhile test = cs.dropWhile test := by
  induction front with
  | nil => rfl
  | cons c front ih =>
    simp only [List.all_cons, Bool.and_eq_true] at all
    simp [all.1, ih all.2]

theorem dropWhileRight_append_of_all {test : Char → Bool} {cs back : List Char}
    (last : ∀ c ∈ cs.getLast?, test c = false) (all : back.all test = true) :
    dropWhileRight test (cs ++ back) = cs := by
  have reversed : back.reverse.all test = true := by simpa using all
  have head : ∀ c ∈ cs.reverse.head?, test c = false := by simpa using last
  rw [dropWhileRight, List.reverse_append, dropWhile_append_of_all reversed,
    dropWhile_eq_self_of_head head, List.reverse_reverse]

theorem strip_margins {left cs right : List Char} (leftBlank : allBlank left = true)
    (trimmed : IsTrimmed cs) (nonempty : cs ≠ []) (rightBlank : allBlank right = true) :
    strip (left ++ cs ++ right) = cs := by
  have head : ∀ c ∈ (cs ++ right).head?, isBlank c = false := by
    cases cs with
    | nil => exact absurd rfl nonempty
    | cons c cs => simpa using trimmed.head
  rw [strip, stripBy, List.append_assoc, dropWhile_append_of_all leftBlank,
    dropWhile_eq_self_of_head head, dropWhileRight_append_of_all trimmed.last rightBlank]

theorem strip_eq_self {cs : List Char} (trimmed : IsTrimmed cs) : strip cs = cs := by
  by_cases nonempty : cs = []
  · rw [nonempty]
    rfl
  · simpa using @strip_margins [] cs [] rfl trimmed nonempty rfl

theorem getLast?_strip {cs : List Char} {c : Char} (last : cs.getLast? = some c)
    (ink : isBlank c = false) : (strip cs).getLast? = some c := by
  obtain ⟨front, rfl⟩ := List.getLast?_eq_some_iff.mp last
  obtain ⟨rest, cut⟩ : ∃ rest, (front ++ [c]).dropWhile isBlank = rest ++ [c] := by
    rw [List.dropWhile_append]
    split
    · exact ⟨[], by simp [ink]⟩
    · exact ⟨_, rfl⟩
  have kept : dropWhileRight isBlank (rest ++ [c]) = rest ++ [c] := by
    simp [dropWhileRight, ink]
  rw [strip, stripBy, cut, kept, List.getLast?_concat]

theorem allBlank_append (front back : List Char) :
    allBlank (front ++ back) = (allBlank front && allBlank back) := by
  simp [allBlank]

theorem allBlank_eq_false {cs : List Char} (trimmed : IsTrimmed cs) (nonempty : cs ≠ []) :
    allBlank cs = false := by
  cases cs with
  | nil => exact absurd rfl nonempty
  | cons c cs => simp [allBlank, trimmed.head c (by simp)]

theorem dropStart?_append (start rest : List Char) : dropStart? start (start ++ rest) = some rest :=
  (dropStart?_eq_some_iff _ _ _).mpr rfl

theorem dropStart?_eq_none {start text : List Char} (absent : ¬ start <+: text) :
    dropStart? start text = none := by
  cases cut : dropStart? start text with
  | none => rfl
  | some rest => exact absurd ⟨rest, ((dropStart?_eq_some_iff _ _ _).mp cut).symm⟩ absent

theorem not_mem_before (mark : Char) (text : List Char) : mark ∉ before mark text := by
  intro member
  have passed := List.all_eq_true.mp (List.all_takeWhile (p := (· != mark)) (l := text)) mark member
  simp at passed

theorem prefix_of_prefix_append {mark : Char} {start front back : List Char} (absent : mark ∉ start)
    (starts : start <+: front ++ mark :: back) : start <+: front := by
  obtain ⟨rest, same⟩ := starts
  rcases List.append_eq_append_iff.mp same with ⟨more, rfl, -⟩ | ⟨more, rfl, marked⟩
  · exact List.prefix_append start more
  · cases more with
    | nil => exact ⟨[], by simp⟩
    | cons c more =>
      obtain ⟨rfl, -⟩ := List.cons.inj marked
      exact absurd (by simp) absent

theorem before_append {mark : Char} {front : List Char} (absent : mark ∉ front)
    (back : List Char) : before mark (front ++ mark :: back) = front := by
  have passed : ∀ c ∈ front, (c != mark) = true := by
    intro c member
    simpa using fun same : c = mark => absent (same ▸ member)
  rw [before, List.takeWhile_append_of_pos passed]
  simp

theorem before_append_of_mem {mark : Char} {front : List Char} (present : mark ∈ front)
    (back : List Char) : before mark (front ++ back) = before mark front := by
  obtain ⟨start, rest, rfl, absent⟩ := List.eq_append_cons_of_mem present
  rw [List.append_assoc, List.cons_append, before_append absent, before_append absent]

theorem append_mark_inj {mark : Char} {front other back more : List Char} (absent : mark ∉ front)
    (absentToo : mark ∉ other) (same : front ++ mark :: back = other ++ mark :: more) :
    front = other ∧ back = more := by
  have fronts := congrArg (before mark) same
  rw [before_append absent, before_append absentToo] at fronts
  subst fronts
  exact ⟨rfl, (List.cons.inj (List.append_cancel_left same)).2⟩

theorem before_eq_self {mark : Char} {text : List Char} (absent : mark ∉ text) :
    before mark text = text := by
  have passed : ∀ c ∈ text, (c != mark) = true := by
    intro c member
    simpa using fun same : c = mark => absent (same ▸ member)
  simpa [before] using @List.takeWhile_append_of_pos _ _ text [] passed

theorem eq_before_append {mark : Char} {text : List Char} (present : mark ∈ text) :
    ∃ back, text = before mark text ++ mark :: back := by
  obtain ⟨front, back, rfl, absent⟩ := List.eq_append_cons_of_mem present
  exact ⟨back, by rw [before_append absent]⟩

theorem infix_intercalate {piece separator : List Char} {pieces : List (List Char)}
    (member : piece ∈ pieces) : piece <:+: List.intercalate separator pieces := by
  induction pieces with
  | nil => exact absurd member List.not_mem_nil
  | cons first others ih =>
    cases others with
    | nil =>
      obtain rfl := List.mem_singleton.mp member
      simp
    | cons second others =>
      rw [List.intercalate_cons_cons]
      rcases List.mem_cons.mp member with rfl | later
      · exact ((List.prefix_append _ _).trans (List.prefix_append _ _)).isInfix
      · exact (ih later).trans (List.suffix_append _ _).isInfix

theorem intercalate_append {separator : List Char} {row : List (List Char)} (filled : row ≠ [])
    (next : List Char) (rest : List (List Char)) :
    List.intercalate separator (row ++ next :: rest) =
      List.intercalate separator row ++ separator ++ List.intercalate separator (next :: rest) := by
  induction row with
  | nil => exact absurd rfl filled
  | cons first row ih =>
    cases row with
    | nil => simp [List.intercalate_cons_cons]
    | cons second row =>
      rw [List.cons_append, List.cons_append, List.intercalate_cons_cons, ← List.cons_append,
        ih (List.cons_ne_nil second row), List.intercalate_cons_cons]
      simp only [List.append_assoc]

theorem not_mem_of_mem_splitOn {mark : Char} {piece text : List Char}
    (member : piece ∈ text.splitOn mark) : mark ∉ piece := by
  induction text generalizing piece with
  | nil =>
    obtain rfl := List.mem_singleton.mp member
    exact List.not_mem_nil
  | cons c rest ih =>
    rw [List.splitOn_cons_eq_if_modifyHead] at member
    split at member
    · rcases List.mem_cons.mp member with rfl | later
      · exact List.not_mem_nil
      · exact ih later
    · rename_i other
      cases pieces : rest.splitOn mark with
      | nil => exact absurd pieces (List.splitOn_ne_nil mark rest)
      | cons first later =>
        rw [pieces] at member ih
        rcases List.mem_cons.mp member with rfl | inside
        · have apart : mark ≠ c := fun same => other (by simp [same])
          exact List.not_mem_cons_of_ne_of_not_mem apart (ih List.mem_cons_self)
        · exact ih (List.mem_cons_of_mem first inside)

end ApiCatalog.Text
