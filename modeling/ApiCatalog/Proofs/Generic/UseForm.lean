import ApiCatalog.Generic.Name
import ApiCatalog.Proofs.Generic.Nesting

/-! Use forms: a generic name as its outer name and the use forms of its arguments. -/

namespace ApiCatalog.Generic

def useArgument (origin argument : List Char) : List Char :=
  if (split argument).isSome then useName origin argument else useLeaf origin argument

theorem namespaceLead_prefix_qualify (origin name : List Char) :
    namespaceLead <+: qualify origin name := by
  cases origin <;> simp [qualify]

theorem useName_eq (origin name : List Char) :
    useName origin name =
      match parts (definitionName name) with
      | none => definitionName name
      | some (outer, found) =>
        bracket (useOuter origin outer) (found.map (useArgument origin)) := by
  rw [useName]
  split
  · rename_i parted
    rw [parted]
  · rename_i parted
    rw [parted]
    simp only [List.map_attach_eq_pmap, List.pmap_eq_map]
    rfl

theorem parts_eq_none_iff {name : List Char} : parts name = none ↔ split name = none := by
  simp [parts]

theorem parts_eq_some_iff {name outer : List Char} {found : List (List Char)} :
    parts name = some (outer, found) ↔
      ∃ payload, split name = some (outer, payload) ∧ arguments payload = some found := by
  constructor
  · intro parted
    obtain ⟨⟨front, payload⟩, hsplit, same⟩ := Option.map_eq_some_iff.mp parted
    obtain ⟨rfl, rfl⟩ := Prod.mk.inj same
    obtain ⟨-, -, -, listed⟩ := split_eq_some_iff.mp hsplit
    obtain ⟨known, hknown⟩ := Option.isSome_iff_exists.mp listed
    exact ⟨payload, hsplit, by simp [hknown]⟩
  · rintro ⟨payload, hsplit, listed⟩
    simp [parts, hsplit, listed]

theorem getLast?_of_split {name outer payload : List Char}
    (parted : split name = some (outer, payload)) : name.getLast? = some '»' := by
  obtain ⟨-, -, rfl, -⟩ := split_eq_some_iff.mp parted
  simp [List.getLast?_append, List.getLast?_cons]

theorem definitionName_eq_self {name : List Char} (leadless : ¬definitionsLead <+: name) :
    definitionName name = name := by
  rw [definitionName, Text.dropStart?_eq_none leadless, Option.getD_none]

theorem definitionName_reference (name : List Char) :
    definitionName (definitionsLead ++ name) = name := by
  rw [definitionName, Text.dropStart?_append, Option.getD_some]

theorem useName_reference {name : List Char} (noReference : ¬definitionsLead <+: name)
    (origin : List Char) : useName origin (definitionsLead ++ name) = useName origin name := by
  rw [useName_eq, definitionName_reference, useName_eq, definitionName_eq_self noReference]

theorem useName_reference_of_plain {name : List Char} (plain : split name = none)
    (origin : List Char) : useName origin (definitionsLead ++ name) = name := by
  rw [useName_eq, definitionName_reference, parts_eq_none_iff.mpr plain]

theorem useName_reference_of_split {name outer payload : List Char} {found : List (List Char)}
    (parted : split name = some (outer, payload)) (listed : arguments payload = some found)
    (origin : List Char) :
    useName origin (definitionsLead ++ name) =
      bracket (useOuter origin outer) (found.map (useArgument origin)) := by
  rw [useName_eq, definitionName_reference, parts_eq_some_iff.mpr ⟨payload, parted, listed⟩]

theorem split_definitionName {name outer payload : List Char}
    (parted : split name = some (outer, payload)) :
    (∃ rest, split (definitionName name) = some (rest, payload)) ∨
      ∃ back, definitionName name = '«' :: back := by
  obtain ⟨-, absent, rfl, listed⟩ := split_eq_some_iff.mp parted
  by_cases reference : definitionsLead <+: outer ++ '«' :: (payload ++ ['»'])
  · obtain ⟨rest, rfl⟩ := Text.prefix_of_prefix_append (by decide) reference
    rw [List.append_assoc, definitionName_reference]
    cases rest with
    | nil => exact Or.inr ⟨_, rfl⟩
    | cons c rest =>
      have inRest : '«' ∉ c :: rest := fun member => absent (List.mem_append_right _ member)
      exact Or.inl ⟨c :: rest, split_eq_some_iff.mpr ⟨by simp, inRest, rfl, listed⟩⟩
  · rw [definitionName_eq_self reference]
    exact Or.inl ⟨outer, parted⟩

theorem getLast?_bracket (outer : List Char) (found : List (List Char)) :
    (bracket outer found).getLast? = some '>' := by
  simp [bracket, List.getLast?_append, List.getLast?_cons]

theorem getLast?_useName_reference {name outer payload : List Char}
    (parted : split name = some (outer, payload)) (origin : List Char) :
    (useName origin (definitionsLead ++ name)).getLast? = some '>' := by
  obtain ⟨-, -, -, isListed⟩ := split_eq_some_iff.mp parted
  obtain ⟨found, listed⟩ := Option.isSome_iff_exists.mp isListed
  rw [useName_reference_of_split parted listed, getLast?_bracket]

theorem mem_of_mem_definitionName {c : Char} {name : List Char}
    (member : c ∈ definitionName name) : c ∈ name := by
  unfold definitionName at member
  cases cut : Text.dropStart? definitionsLead name with
  | none => simpa [cut] using member
  | some rest =>
    rw [(Text.dropStart?_eq_some_iff _ _ _).mp cut]
    exact List.mem_append_right _ (by simpa [cut] using member)

theorem arguments_ne_nil {payload : List Char} {found : List (List Char)}
    (listed : arguments payload = some found) : found ≠ [] := by
  obtain ⟨cuts, cut, -, rfl⟩ := arguments_eq_some_iff.mp listed
  simpa using (pieces_eq_some_iff.mp cut).1

theorem eq_strip_of_arguments_singleton {payload argument : List Char}
    (single : arguments payload = some [argument]) :
    argument = Text.strip payload ∧ argument ≠ [] := by
  obtain ⟨found, cut, filled, same⟩ := arguments_eq_some_iff.mp single
  obtain ⟨piece, rfl, rfl⟩ : ∃ piece, found = [piece] ∧ argument = Text.strip piece := by
    cases found with
    | nil => simp at same
    | cons piece others =>
      cases others with
      | nil => exact ⟨piece, rfl, (List.cons.inj same).1⟩
      | cons second others => simp at same
  obtain ⟨-, rfl, -⟩ := pieces_eq_some_iff.mp cut
  refine ⟨by simp [joinPieces], fun blank => ?_⟩
  have filledPiece := filled piece (by simp)
  rw [(Text.strip_eq_nil_iff piece).mp blank] at filledPiece
  exact Bool.noConfusion filledPiece

end ApiCatalog.Generic
