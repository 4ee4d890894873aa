import ApiCatalog.Yaml.Cursor

/-! Where a cursor is after it has passed over a text. -/

namespace ApiCatalog.Yaml

theorem exists_run {α : Type} (test : α → Bool) (xs : List α) : ∃ run more, xs = run ++ more ∧
    (∀ x ∈ run, test x = true) ∧ ∀ x ∈ more.head?, test x = false := by
  refine ⟨xs.takeWhile test, xs.dropWhile test, List.takeWhile_append_dropWhile.symm,
    List.all_eq_true.mp List.all_takeWhile, fun x first => ?_⟩
  have fails := List.head?_dropWhile_not test xs
  rw [Option.mem_def.mp first] at fails
  simpa using fails

namespace Cursor

variable {here : Cursor} {text rest : List Char}

theorem next_cons {c : Char} (ahead : here.rest = c :: rest) :
    here.next.rest = rest ∧ here.next.index = here.index + 1 := by
  unfold next
  rw [ahead]
  dsimp only
  split
  · exact ⟨rfl, rfl⟩
  · split <;> exact ⟨rfl, rfl⟩

theorem rest_next (here : Cursor) : here.next.rest = here.rest.tail := by
  cases ahead : here.rest with
  | nil => simp [next, ahead]
  | cons c rest => exact (next_cons ahead).1

theorem rest_advance (count : Nat) (here : Cursor) :
    (here.advance count).rest = here.rest.drop count := by
  induction count generalizing here with
  | zero => rfl
  | succ count inner => rw [advance, inner, rest_next, List.drop_tail]

theorem advance_add (first second : Nat) (here : Cursor) :
    here.advance (first + second) = (here.advance first).advance second := by
  induction first generalizing here with
  | zero => rw [Nat.zero_add, advance]
  | succ first inner => rw [Nat.succ_add, advance, advance, inner]

def past (here : Cursor) (text : List Char) : Cursor :=
  here.advance text.length

theorem past_append (here : Cursor) (first second : List Char) :
    here.past (first ++ second) = (here.past first).past second := by
  rw [past, List.length_append, advance_add]
  rfl

theorem past_nil (here : Cursor) : here.past [] = here := rfl

theorem past_cons (here : Cursor) (c : Char) (text : List Char) :
    here.past (c :: text) = here.next.past text := rfl

theorem rest_past (ahead : here.rest = text ++ rest) : (here.past text).rest = rest := by
  rw [past, rest_advance, ahead, List.drop_left]

theorem index_past (ahead : here.rest = text ++ rest) :
    (here.past text).index = here.index + text.length := by
  induction text generalizing here with
  | nil => rfl
  | cons c text inner =>
    obtain ⟨left, step⟩ := next_cons ahead
    rw [past_cons, inner left, step, List.length_cons]
    omega

theorem line_next {c : Char} (ahead : here.rest = c :: rest) :
    here.next.line =
      if isBreak c && !(c == '\r' && rest.head? == some '\n') then here.line + 1 else here.line := by
  unfold next
  rw [ahead]
  dsimp only
  split
  · rfl
  · split <;> rfl

theorem line_le_past (ahead : here.rest = text ++ rest) : here.line ≤ (here.past text).line := by
  induction text generalizing here with
  | nil => exact Nat.le_refl _
  | cons c text inner =>
    refine Nat.le_trans ?_ (inner (next_cons ahead).1)
    rw [line_next ahead]
    split <;> omega

theorem line_past (ahead : here.rest = text ++ rest) (unbroken : ∀ c ∈ text, isBreak c = false) :
    (here.past text).line = here.line := by
  induction text generalizing here with
  | nil => rfl
  | cons c text inner =>
    obtain ⟨solid, unbroken⟩ := List.forall_mem_cons.mp unbroken
    rw [past_cons, inner (next_cons ahead).1 unbroken, line_next ahead, solid]
    rfl

theorem line_lt_past (ahead : here.rest = text ++ rest) (ends : rest.head? ≠ some '\n')
    (broken : ∃ c ∈ text, isBreak c = true) : here.line < (here.past text).line := by
  induction text generalizing here with
  | nil =>
    obtain ⟨c, member, -⟩ := broken
    exact absurd member List.not_mem_nil
  | cons c text inner =>
    have after := (next_cons ahead).1
    by_cases later : ∃ c ∈ text, isBreak c = true
    · refine Nat.lt_of_le_of_lt ?_ (inner after later)
      rw [line_next ahead]
      split <;> omega
    · obtain ⟨d, member, breaks⟩ := broken
      obtain rfl : d = c := by
        rcases List.mem_cons.mp member with same | member
        · exact same
        · exact absurd ⟨d, member, breaks⟩ later
      -- What follows the break is no line feed: it is no break, or it stands behind the text.
      have noFeed : (text ++ rest).head? ≠ some '\n' := by
        cases text with
        | nil => exact ends
        | cons e text =>
          rintro ⟨⟩
          exact later ⟨'\n', List.mem_cons_self, rfl⟩
      rw [past_cons]
      refine Nat.lt_of_lt_of_le ?_ (line_le_past after)
      have other : ((text ++ rest).head? == some '\n') = false := beq_false_of_ne noFeed
      have step := line_next (List.cons_append ▸ ahead)
      rw [breaks, other, Bool.and_false] at step
      rw [step]
      exact Nat.lt_succ_self _

theorem span_past {test : Char → Bool} (ahead : here.rest = text ++ rest)
    (all : ∀ c ∈ text, test c = true) (ends : ∀ c ∈ rest.head?, test c = false) :
    here.span test = (text, here.past text) := by
  have taken : here.rest.takeWhile test = text := by
    rw [ahead, List.takeWhile_append_of_pos all]
    cases rest with
    | nil => simp
    | cons c rest => simp [ends c rfl]
  rw [span, taken]
  rfl

theorem head_eq {c : Char} (ahead : here.rest = c :: rest) : here.head = some c := by
  rw [head, ahead]
  rfl

theorem lineBreak?_of_solid (ends : ∀ c ∈ here.rest.head?, isBreak c = false) :
    here.lineBreak? = none := by
  unfold lineBreak?
  cases ahead : here.rest with
  | nil => rfl
  | cons c rest =>
    rw [ahead] at ends
    have solid : isBreak c = false := ends c rfl
    simp only [isBreak, Bool.or_eq_false_iff, beq_eq_false_iff_ne] at solid
    obtain ⟨⟨⟨⟨feed, carriage⟩, nextLine⟩, separator⟩, paragraph⟩ := solid
    simp [feed, carriage, nextLine, separator, paragraph]

theorem lineBreak?_of_break {c : Char} (ahead : here.rest = c :: text ++ rest)
    (breaks : c = '\n' ∨ c = '\r') (ends : rest.head? ≠ some '\n') :
    ∃ taken left, c :: text = taken ++ left ∧ taken ≠ [] ∧
      here.lineBreak? = some ('\n', here.past taken) := by
  unfold lineBreak?
  rw [ahead]
  split
  case h_1 more same =>
    obtain ⟨rfl, feed⟩ := List.cons.inj same
    cases text with
    | nil =>
      rw [List.append_eq, List.nil_append] at feed
      exact absurd (feed ▸ rfl) ends
    | cons d text =>
      obtain ⟨rfl, -⟩ := List.cons.inj feed
      exact ⟨['\r', '\n'], text, rfl, List.cons_ne_nil _ _, rfl⟩
  case h_2 d more other same =>
    obtain ⟨rfl, -⟩ := List.cons.inj same
    refine ⟨[c], text, rfl, List.cons_ne_nil _ _, ?_⟩
    rcases breaks with rfl | rfl <;> rfl
  case h_3 same => cases same

end Cursor
end ApiCatalog.Yaml
