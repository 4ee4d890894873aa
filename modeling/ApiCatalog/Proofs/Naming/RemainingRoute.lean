import ApiCatalog.Proofs.Naming.SharedLead

/-!
What is left of a path without the lead that the paths of a list share. The segments of a path are
those of the lead and then those left. A path keeps none exactly if it ends in a slash and all paths
go on behind what stands before its last slashes.
-/

namespace ApiCatalog.Naming

theorem segments_dropLead_of_append {path lead : List Char} {rest : List (List Char)}
    (whole : segments path = segments lead ++ rest) : segments (dropLead path lead) = rest := by
  unfold dropLead
  cases leading : segments lead with
  | nil => rwa [leading] at whole
  | cons first row =>
    rw [leading] at whole
    have cut := (Text.dropStart?_eq_some_iff _ _ _).mpr whole
    have inside : ∀ piece ∈ rest, piece ∈ segments path := by
      rw [whole]
      exact fun piece member => List.mem_append_right _ member
    have slashless : ∀ piece ∈ rest, '/' ∉ piece := fun piece member =>
      Text.not_mem_of_mem_splitOn (mem_segments_iff.mp (inside piece member)).1
    have filled : ∀ piece ∈ rest, (!piece.isEmpty) = true := fun piece member => by
      simpa using (mem_segments_iff.mp (inside piece member)).2
    simp only [cut]
    rw [segments_slash_cons, segments_intercalate slashless, List.filter_eq_self.mpr filled]

/-- The lead that paths share, the first slash of each apart. -/
def routeLead (paths : List (List Char)) : List Char :=
  commonLead (paths.map dropSlash)

section
variable {paths : List (List Char)} {path : List Char} (member : path ∈ paths)
include member

theorem lead_slash_starts (filled : routeLead paths ≠ []) :
    routeLead paths ++ ['/'] <+: dropSlash path :=
  commonLead_slash_starts (List.mem_map_of_mem member) filled

theorem segments_eq_lead_append :
    segments path = segments (routeLead paths) ++ segments (dropLead path (routeLead paths)) := by
  by_cases filled : routeLead paths = []
  · rw [filled]
    rfl
  · obtain ⟨back, whole⟩ := lead_slash_starts member filled
    have parts : segments path = segments (routeLead paths) ++ segments back := by
      rw [← segments_dropSlash, ← whole, List.append_assoc, List.singleton_append,
        segments_append_slash]
    rw [segments_dropLead_of_append parts, ← parts]

end

/-- A path without its first slash and without those at its end. -/
def routeStem (path : List Char) : List Char :=
  Text.dropWhileRight (· == '/') (dropSlash path)

theorem exists_slashes (text : List Char) :
    ∃ slashes, text = Text.dropWhileRight (· == '/') text ++ slashes ∧ ∀ c ∈ slashes, c = '/' := by
  refine ⟨(text.reverse.takeWhile (· == '/')).reverse, ?_, fun c member => ?_⟩
  · rw [Text.dropWhileRight, ← List.reverse_append, List.takeWhile_append_dropWhile,
      List.reverse_reverse]
  · have passed := List.all_eq_true.mp List.all_takeWhile c (List.mem_reverse.mp member)
    exact beq_iff_eq.mp passed

theorem segments_routeStem (path : List Char) : segments (routeStem path) = segments path := by
  obtain ⟨slashes, whole, every⟩ := exists_slashes (dropSlash path)
  rw [← segments_dropSlash path, whole, segments_append_slashes every]
  rfl

theorem dropWhileRight_append_slashes {front slashes : List Char} (every : ∀ c ∈ slashes, c = '/') :
    Text.dropWhileRight (· == '/') (front ++ slashes) = Text.dropWhileRight (· == '/') front := by
  have passed : slashes.reverse.all (· == '/') = true := by simpa using every
  rw [Text.dropWhileRight, List.reverse_append, Text.dropWhile_append_of_all passed]
  rfl

theorem routeStem_eq_dropSlash {path : List Char} (ends : path.getLast? ≠ some '/') :
    routeStem path = dropSlash path := by
  have last : ∀ c ∈ (dropSlash path).getLast?, (c == '/') = false := by
    intro c known
    rw [beq_eq_false_iff_ne]
    rintro rfl
    obtain ⟨front, whole⟩ := List.getLast?_eq_some_iff.mp known
    refine ends (List.getLast?_eq_some_iff.mpr ?_)
    unfold dropSlash at whole
    split at whole
    · exact ⟨'/' :: front, by rw [whole, List.cons_append]⟩
    · exact ⟨front, whole⟩
  simpa [routeStem] using @Text.dropWhileRight_append_of_all _ _ [] last rfl

theorem slash_starts_slashes_append {slashes : List Char} (every : ∀ c ∈ slashes, c = '/')
    (back : List Char) : ['/'] <+: slashes ++ '/' :: back := by
  cases slashes with
  | nil => exact ⟨back, rfl⟩
  | cons c rest =>
    obtain rfl := every c List.mem_cons_self
    exact ⟨rest ++ '/' :: back, rfl⟩

section
variable {paths : List (List Char)} {path : List Char} (member : path ∈ paths)
include member

theorem routeStem_slash_starts_of_none (filled : segments path ≠ [])
    (none : segments (dropLead path (routeLead paths)) = []) :
    ∀ other ∈ paths, routeStem path ++ ['/'] <+: dropSlash other := by
  have parts := segments_eq_lead_append member
  rw [none, List.append_nil] at parts
  have leading : routeLead paths ≠ [] := by
    intro empty
    rw [empty] at parts
    exact filled parts
  obtain ⟨back, whole⟩ := lead_slash_starts member leading
  rw [List.append_assoc, List.singleton_append] at whole
  -- Only slashes stand behind the lead, so the stem ends within it.
  have slashes : ∀ c ∈ '/' :: back, c = '/' := by
    rw [← segments_dropSlash, ← whole, segments_append_slash] at parts
    exact List.forall_mem_cons.mpr ⟨rfl, segments_eq_nil_iff.mp (List.append_right_eq_self.mp parts)⟩
  have stem : routeStem path = Text.dropWhileRight (· == '/') (routeLead paths) := by
    rw [routeStem, ← whole, dropWhileRight_append_slashes slashes]
  obtain ⟨ending, lead, every⟩ := exists_slashes (routeLead paths)
  rw [← stem] at lead
  intro other listed
  obtain ⟨more, goes⟩ := lead_slash_starts listed leading
  rw [← goes, lead, List.append_assoc, List.append_assoc, List.singleton_append]
  exact (List.prefix_append_right_inj _).mpr (slash_starts_slashes_append every more)

theorem none_of_routeStem_slash_starts
    (starts : ∀ other ∈ paths, routeStem path ++ ['/'] <+: dropSlash other) :
    segments (dropLead path (routeLead paths)) = [] := by
  have listed : paths.map dropSlash ≠ [] := List.ne_nil_of_mem (List.mem_map_of_mem member)
  have inside : segments (routeStem path) <+: segments (routeLead paths) :=
    segments_prefix_commonLead listed (List.forall_mem_map.mpr starts)
  have parts := congrArg List.length (segments_eq_lead_append member)
  have short := inside.length_le
  rw [List.length_append] at parts
  rw [segments_routeStem] at short
  exact List.length_eq_zero_iff.mp (by omega)

/-- Without the shared lead a path keeps a segment exactly if some path does not go on behind its
stem. A path that ends in no slash does not go on behind its own. -/
theorem segments_dropLead_ne_nil_iff (filled : segments path ≠ []) :
    (segments (dropLead path (routeLead paths)) ≠ [] ↔
      ∃ other ∈ paths, ¬ routeStem path ++ ['/'] <+: dropSlash other) ∧
    (path.getLast? ≠ some '/' → segments (dropLead path (routeLead paths)) ≠ []) := by
  have exact : segments (dropLead path (routeLead paths)) = [] ↔
      ∀ other ∈ paths, routeStem path ++ ['/'] <+: dropSlash other :=
    ⟨routeStem_slash_starts_of_none member filled, none_of_routeStem_slash_starts member⟩
  constructor
  · simp only [Ne, exact, Classical.not_forall, exists_prop]
  · intro ends none
    have longer := (exact.mp none path member).length_le
    rw [routeStem_eq_dropSlash ends, List.length_append, List.length_singleton] at longer
    omega

end

def userPaths : List (List Char) :=
  ["/user/".toList, "/user/list".toList]

theorem segments_dropLead_userPaths :
    segments (dropLead "/user/".toList (routeLead userPaths)) = [] ∧
      segments (dropLead "/user/list".toList (routeLead userPaths)) ≠ [] := by
  have first := @segments_dropLead_ne_nil_iff userPaths "/user/".toList (by decide) (by decide)
  have second := @segments_dropLead_ne_nil_iff userPaths "/user/list".toList (by decide) (by decide)
  refine ⟨Classical.byContradiction fun kept => ?_, second.2 (by decide)⟩
  have every : ∀ other ∈ userPaths, routeStem "/user/".toList ++ ['/'] <+: dropSlash other := by
    decide
  obtain ⟨other, listed, apart⟩ := first.1.mp kept
  exact apart (every other listed)

end ApiCatalog.Naming
