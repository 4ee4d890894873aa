import ApiCatalog.Text.Blank
import ApiCatalog.Text.Pieces

/-!
The notation of generic names: an outer name and its arguments in guillemets, as in
`Map«string,List«Order»»`. Commas inside inner guillemets belong to the argument.
-/

namespace ApiCatalog.Generic

def consFirst (c : Char) : List (List Char) → List (List Char)
  | [] => [[c]]
  | piece :: pieces => (c :: piece) :: pieces

/-- The pieces between the commas outside all guillemets; none if a guillemet lacks its partner.
`depth` counts the guillemets that are open. -/
def pieces (depth : Nat) : List Char → Option (List (List Char))
  | [] => if depth = 0 then some [[]] else none
  | c :: rest =>
    if c = '«' then (pieces (depth + 1) rest).map (consFirst c)
    else if c = '»' then
      if depth = 0 then none else (pieces (depth - 1) rest).map (consFirst c)
    else if c = ',' ∧ depth = 0 then (pieces 0 rest).map ([] :: ·)
    else (pieces depth rest).map (consFirst c)

/-- The arguments that a payload lists, without their margins; none if guillemets are unbalanced
or an argument is blank. -/
def arguments (payload : List Char) : Option (List (List Char)) :=
  match pieces 0 payload with
  | none => none
  | some found => if found.any Text.allBlank then none else some (found.map Text.strip)

def split (name : List Char) : Option (List Char × List Char) :=
  let outer := Text.before '«' name
  if outer.isEmpty then none
  else
    match Text.dropEnd? ['»'] (name.drop (outer.length + 1)) with
    | none => none
    | some payload => if (arguments payload).isSome then some (outer, payload) else none

def parts (name : List Char) : Option (List Char × List (List Char)) :=
  (split name).map fun found => (found.1, (arguments found.2).getD [])

theorem length_le_of_mem_consFirst {c : Char} {found : List (List Char)} {piece : List Char}
    {bound : Nat} (fits : ∀ p ∈ found, p.length ≤ bound) (member : piece ∈ consFirst c found) :
    piece.length ≤ bound + 1 := by
  cases found with
  | nil => simp_all [consFirst]
  | cons first others =>
    simp only [consFirst, List.mem_cons] at member
    rcases member with rfl | member
    · simpa using fits first (by simp)
    · exact Nat.le_succ_of_le (fits piece (by simp [member]))

theorem length_le_of_mem_pieces {payload : List Char} {depth : Nat} {found : List (List Char)}
    (cut : pieces depth payload = some found) : ∀ piece ∈ found, piece.length ≤ payload.length := by
  induction payload generalizing depth found with
  | nil =>
    simp only [pieces] at cut
    split at cut
    · obtain rfl := Option.some.inj cut
      simp
    · simp at cut
  | cons c rest ih =>
    have first {inner : Nat} {piece : List Char}
        (grown : (pieces inner rest).map (consFirst c) = some found) (member : piece ∈ found) :
        piece.length ≤ rest.length + 1 := by
      obtain ⟨others, hothers, rfl⟩ := Option.map_eq_some_iff.mp grown
      exact length_le_of_mem_consFirst (ih hothers) member
    intro piece member
    simp only [pieces] at cut
    split at cut
    · exact first cut member
    · split at cut
      · split at cut
        · simp at cut
        · exact first cut member
      · split at cut
        · obtain ⟨others, hothers, rfl⟩ := Option.map_eq_some_iff.mp cut
          rcases List.mem_cons.mp member with rfl | member
          · simp
          · exact Nat.le_succ_of_le (ih hothers piece member)
        · exact first cut member

theorem length_le_of_mem_arguments {payload : List Char} {found : List (List Char)}
    (listed : arguments payload = some found) :
    ∀ argument ∈ found, argument.length ≤ payload.length := by
  unfold arguments at listed
  split at listed
  · simp at listed
  · rename_i raw hraw
    split at listed
    · simp at listed
    · obtain rfl := Option.some.inj listed
      intro argument member
      obtain ⟨piece, inRaw, rfl⟩ := List.mem_map.mp member
      exact Nat.le_trans (Text.length_strip_le piece) (length_le_of_mem_pieces hraw piece inRaw)

theorem length_lt_of_split {name outer payload : List Char}
    (parts : split name = some (outer, payload)) : payload.length < name.length := by
  unfold split at parts
  simp only at parts
  split at parts
  · simp at parts
  · split at parts
    · simp at parts
    · rename_i inner cut
      split at parts
      · simp only [Option.some.injEq, Prod.mk.injEq] at parts
        obtain ⟨-, rfl⟩ := parts
        have whole := congrArg List.length ((Text.dropEnd?_eq_some_iff _ _ _).mp cut)
        simp only [List.length_drop, List.length_append, List.length_singleton] at whole
        omega
      · simp at parts

theorem length_lt_of_parts {name outer : List Char} {found : List (List Char)}
    (parted : parts name = some (outer, found)) :
    ∀ argument ∈ found, argument.length < name.length := by
  obtain ⟨⟨front, payload⟩, hsplit, same⟩ := Option.map_eq_some_iff.mp parted
  obtain ⟨-, rfl⟩ := Prod.mk.inj same
  intro argument member
  cases listed : arguments payload with
  | none => simp [listed] at member
  | some known =>
    rw [listed] at member
    exact Nat.lt_of_le_of_lt (length_le_of_mem_arguments listed argument member)
      (length_lt_of_split hsplit)

end ApiCatalog.Generic
