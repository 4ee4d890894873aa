/-! Parts of a text: where one text occurs in another, and what stands before and after a mark. -/

namespace ApiCatalog.Text

def occursIn {α : Type} [DecidableEq α] (needle : List α) : List α → Bool
  | [] => needle.isEmpty
  | c :: rest => needle.isPrefixOf (c :: rest) || occursIn needle rest

def dropStart? {α : Type} [DecidableEq α] : (start text : List α) → Option (List α)
  | [], text => some text
  | _ :: _, [] => none
  | s :: start, c :: text => if s = c then dropStart? start text else none

def dropEnd? {α : Type} [DecidableEq α] (ending text : List α) : Option (List α) :=
  (dropStart? ending.reverse text.reverse).map List.reverse

def before (mark : Char) (text : List Char) : List Char :=
  text.takeWhile (· != mark)

theorem dropStart?_eq_some_iff {α : Type} [DecidableEq α] (start text rest : List α) :
    dropStart? start text = some rest ↔ text = start ++ rest := by
  induction start generalizing text with
  | nil => simp [dropStart?, eq_comm]
  | cons s start ih =>
    cases text with
    | nil => simp [dropStart?]
    | cons c text =>
      by_cases same : s = c
      · subst same
        simp [dropStart?, ih]
      · simp [dropStart?, same, Ne.symm same]

theorem dropEnd?_eq_some_iff {α : Type} [DecidableEq α] (ending text rest : List α) :
    dropEnd? ending text = some rest ↔ text = rest ++ ending := by
  simp only [dropEnd?, Option.map_eq_some_iff, dropStart?_eq_some_iff]
  constructor
  · rintro ⟨back, same, rfl⟩
    simpa using congrArg List.reverse same
  · rintro rfl
    exact ⟨rest.reverse, by simp, by simp⟩

theorem occursIn_iff {α : Type} [DecidableEq α] (needle text : List α) :
    occursIn needle text = true ↔ needle <:+: text := by
  induction text with
  | nil => cases needle <;> simp [occursIn]
  | cons c rest ih => simp [occursIn, ih, List.infix_cons_iff]

end ApiCatalog.Text
