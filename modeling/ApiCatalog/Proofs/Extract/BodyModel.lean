import ApiCatalog.Proofs.Extract.ReferenceForm

/-!
The name under which the model of a body is looked up. It is the use form of the model, without the
namespace and the origin where the form brought them along. A form with angle brackets keeps them,
and is no declaration form.
-/

namespace ApiCatalog.Generic

def withoutOrigin (origin name : List Char) : List Char :=
  if origin.isEmpty then name else (Text.dropStart? (origin ++ ['.']) name).getD name

/-- The name that a body of a given use form is looked up by. -/
def bodyModel (origin used : List Char) : List Char :=
  if !origin.isEmpty && !Text.occursIn origin used then used
  else withoutOrigin origin ((Text.dropStart? namespaceLead used).getD used)

theorem unqualify_lead (origin name : List Char) :
    unqualify origin (namespaceLead ++ name) = withoutOrigin origin name := by
  simp only [unqualify, Text.dropStart?_append]
  rfl

theorem unqualify_qualify (origin name : List Char) :
    unqualify origin (qualify origin name) = name := by
  cases origin with
  | nil => exact unqualify_lead [] name
  | cons c origin =>
    have whole : qualify (c :: origin) name = namespaceLead ++ (c :: origin ++ ['.'] ++ name) := by
      simp [qualify]
    rw [whole, unqualify_lead, withoutOrigin, Text.dropStart?_append]
    rfl

theorem bodyModel_eq_self {origin used : List Char} (bare : ¬ namespaceLead <+: used)
    (foreign : origin ≠ [] → ¬ (origin ++ ['.']) <+: used) : bodyModel origin used = used := by
  unfold bodyModel
  split
  · rfl
  · rw [Text.dropStart?_eq_none bare, Option.getD_none, withoutOrigin]
    split
    · rfl
    · rename_i filled
      rw [Text.dropStart?_eq_none (foreign (by simpa using filled)), Option.getD_none]

section
variable {mark : Char} {start front : List Char}

theorem getD_dropStart?_append (absent : mark ∉ start) (inFront : mark ∉ front)
    (back : List Char) : ∃ rest, mark ∉ rest ∧
      (Text.dropStart? start (front ++ mark :: back)).getD (front ++ mark :: back) =
        rest ++ mark :: back := by
  by_cases starts : start <+: front ++ mark :: back
  · obtain ⟨rest, rfl⟩ := Text.prefix_of_prefix_append absent starts
    rw [List.append_assoc, Text.dropStart?_append, Option.getD_some]
    exact ⟨rest, fun member => inFront (List.mem_append_right _ member), rfl⟩
  · rw [Text.dropStart?_eq_none starts, Option.getD_none]
    exact ⟨front, inFront, rfl⟩

theorem bodyModel_append {origin : List Char} (inOrigin : '<' ∉ origin) (inFront : '<' ∉ front)
    (back : List Char) :
    ∃ rest, '<' ∉ rest ∧ bodyModel origin (front ++ '<' :: back) = rest ++ '<' :: back := by
  unfold bodyModel
  split
  · exact ⟨front, inFront, rfl⟩
  · obtain ⟨rest, inRest, cut⟩ :=
      @getD_dropStart?_append '<' namespaceLead front (by decide) inFront back
    rw [cut, withoutOrigin]
    split
    · exact ⟨rest, inRest, rfl⟩
    · exact getD_dropStart?_append (by simpa using inOrigin) inRest back

end

def IsNoParameter (text : List Char) : Prop :=
  ∃ c rest, text = c :: rest ∧ c ≠ 'T'

theorem isNoParameter_of_isQualified {name : List Char} (qualified : isQualified name = true) :
    IsNoParameter name := by
  obtain ⟨rest, rfl⟩ := List.isPrefixOf_iff_prefix.mp qualified
  exact ⟨'d', _, rfl, by decide⟩

theorem isNoParameter_qualify (origin name : List Char) : IsNoParameter (qualify origin name) := by
  cases origin <;> exact ⟨'d', _, rfl, by decide⟩

theorem isNoParameter_useOuter (origin outer : List Char) :
    IsNoParameter (useOuter origin outer) := by
  unfold useOuter
  split
  · exact ⟨'A', _, rfl, by decide⟩
  · split
    · rename_i qualified
      exact isNoParameter_of_isQualified qualified
    · exact isNoParameter_qualify origin outer

theorem isNoParameter_useLeaf (origin argument : List Char) :
    IsNoParameter (useLeaf origin argument) := by
  unfold useLeaf
  split
  · exact ⟨'n', _, rfl, by decide⟩
  · split
    · rename_i stays
      rcases stays with plain | qualified
      · simp only [plainNames, List.mem_cons, List.not_mem_nil, or_false] at plain
        rcases plain with rfl | rfl | rfl | rfl | rfl <;> exact ⟨_, _, rfl, by decide⟩
      · exact isNoParameter_of_isQualified qualified
    · exact isNoParameter_qualify origin argument

theorem isNoParameter_useArgument (origin argument : List Char) :
    IsNoParameter (useArgument origin argument) := by
  unfold useArgument
  split
  · rename_i generic
    rw [useName_eq]
    split
    · rename_i parted
      obtain ⟨⟨outer, payload⟩, found⟩ := Option.isSome_iff_exists.mp generic
      rcases split_definitionName found with ⟨rest, again⟩ | ⟨back, same⟩
      · exact absurd ((parts_eq_none_iff.mp parted).symm.trans again) (by simp)
      · exact ⟨'«', back, same, by decide⟩
    · obtain ⟨c, rest, same, other⟩ := isNoParameter_useOuter origin _
      exact ⟨c, _, by rw [bracket, same, List.cons_append], other⟩
  · exact isNoParameter_useLeaf origin argument

theorem exists_intercalate_eq_cons (c : Char) (rest : List Char) (others : List (List Char)) :
    ∃ more, List.intercalate [','] ((c :: rest) :: others) ++ ['>'] = c :: more := by
  cases others <;> simp

theorem not_mem_useOuter {origin outer : List Char} (inOrigin : '<' ∉ origin)
    (inOuter : '<' ∉ outer) : '<' ∉ useOuter origin outer := by
  unfold useOuter
  split
  · decide
  · split
    · exact inOuter
    · cases origin <;> simp_all [qualify, namespaceLead]

theorem bodyModel_of_split {origin name outer payload : List Char} (inOrigin : '<' ∉ origin)
    (inName : '<' ∉ name) (parted : split name = some (outer, payload)) :
    ∃ front back, '<' ∉ front ∧ IsNoParameter back ∧
      bodyModel origin (useName origin (definitionsLead ++ name)) = front ++ '<' :: back := by
  obtain ⟨-, -, rfl, isListed⟩ := split_eq_some_iff.mp parted
  obtain ⟨found, listed⟩ := Option.isSome_iff_exists.mp isListed
  obtain ⟨argument, others, rfl⟩ := List.exists_cons_of_ne_nil (arguments_ne_nil listed)
  have inOuter : '<' ∉ outer := fun member => inName (List.mem_append_left _ member)
  obtain ⟨c, rest, same, other⟩ := isNoParameter_useArgument origin argument
  obtain ⟨more, inside⟩ := exists_intercalate_eq_cons c rest (others.map (useArgument origin))
  obtain ⟨front, inFront, looked⟩ :=
    bodyModel_append inOrigin (not_mem_useOuter inOrigin inOuter) (c :: more)
  refine ⟨front, c :: more, inFront, ⟨c, more, rfl, other⟩, ?_⟩
  rw [useName_reference_of_split parted listed, bracket, List.map_cons, same, inside, looked]

theorem declarationName_ne {key front back : List Char} (inKey : '<' ∉ key) (inFront : '<' ∉ front)
    (contents : IsNoParameter back) : declarationName key ≠ front ++ '<' :: back := by
  intro same
  unfold declarationName at same
  split at same
  · exact inKey (mem_of_mem_definitionName (same ▸ by simp))
  · rename_i outer found parted
    obtain ⟨payload, hsplit, listed⟩ := parts_eq_some_iff.mp parted
    obtain ⟨-, -, whole, -⟩ := split_eq_some_iff.mp hsplit
    obtain ⟨argument, others, rfl⟩ := List.exists_cons_of_ne_nil (arguments_ne_nil listed)
    have inOuter : '<' ∉ outer := fun member =>
      inKey (mem_of_mem_definitionName (whole ▸ List.mem_append_left _ member))
    obtain ⟨c, rest, rfl, other⟩ := contents
    obtain ⟨-, inside⟩ := Text.append_mark_inj inOuter inFront same
    rw [List.length_cons, List.range_succ_eq_map, List.map_cons] at inside
    obtain ⟨more, numbered⟩ := exists_intercalate_eq_cons 'T' (Number.digitsOf 0)
      ((List.map Nat.succ (List.range others.length)).map fun index => 'T' :: Number.digitsOf index)
    rw [numbered] at inside
    exact other (List.cons.inj inside).1.symm

end ApiCatalog.Generic
