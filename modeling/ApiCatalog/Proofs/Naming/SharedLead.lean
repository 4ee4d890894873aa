import ApiCatalog.Proofs.Naming.Segments

/-!
The lead that paths share. A row starts the shared row exactly if it starts each path and each path
goes on behind it, so the shared row is the longest such row; as a text it stands in front of every
path with a slash behind it, unless it is empty.
-/

namespace ApiCatalog.Naming

/-- A row that starts a path, which goes on behind it. -/
def StartsProperly {α : Type} (row path : List α) : Prop :=
  ∃ next rest, path = row ++ next :: rest

section
variable {α : Type}

theorem startsProperly_nil_iff {path : List α} : StartsProperly [] path ↔ path ≠ [] :=
  List.ne_nil_iff_exists_cons.symm

theorem startsProperly_cons_iff {x : α} {row path : List α} :
    StartsProperly (x :: row) path ↔ ∃ rest, path = x :: rest ∧ StartsProperly row rest := by
  constructor
  · rintro ⟨next, rest, rfl⟩
    exact ⟨_, rfl, next, rest, rfl⟩
  · rintro ⟨_, rfl, next, rest, rfl⟩
    exact ⟨next, rest, rfl⟩

theorem startsProperly_cons_iff_tail {x head : α} {row path : List α}
    (goesOn : ∃ rest, path = head :: rest ∧ rest ≠ []) :
    StartsProperly (x :: row) path ↔ x = head ∧ StartsProperly row path.tail := by
  obtain ⟨rest, rfl, -⟩ := goesOn
  rw [startsProperly_cons_iff, List.tail_cons]
  constructor
  · rintro ⟨_, same, starts⟩
    obtain ⟨rfl, rfl⟩ := List.cons.inj same
    exact ⟨rfl, starts⟩
  · rintro ⟨rfl, starts⟩
    exact ⟨rest, rfl, starts⟩

theorem StartsProperly.ne_nil {row path : List α} (starts : StartsProperly row path) :
    path ≠ [] := by
  obtain ⟨next, rest, rfl⟩ := starts
  exact List.append_ne_nil_of_right_ne_nil row (List.cons_ne_nil next rest)

end

theorem goesOn_iff {segment : List Char} {path : List (List Char)} :
    (decide (2 ≤ path.length) && path.head? == some segment) = true ↔
      ∃ rest, path = segment :: rest ∧ rest ≠ [] := by
  cases path with
  | nil => simp
  | cons first rest =>
    rw [List.head?_cons, Bool.and_eq_true, decide_eq_true_iff, beq_iff_eq, Option.some.injEq]
    constructor
    · rintro ⟨long, rfl⟩
      refine ⟨rest, rfl, List.ne_nil_of_length_pos ?_⟩
      rw [List.length_cons] at long
      omega
    · rintro ⟨_, same, more⟩
      obtain ⟨rfl, rfl⟩ := List.cons.inj same
      have filled := List.length_pos_iff.mpr more
      rw [List.length_cons]
      exact ⟨by omega, rfl⟩

theorem isPrefix_sharedRow_iff {first : List (List Char)} {others : List (List (List Char))}
    (filled : ∀ path ∈ first :: others, path ≠ []) {row : List (List Char)} :
    row <+: sharedRow first others ↔ ∀ path ∈ first :: others, StartsProperly row path := by
  induction row generalizing first others with
  | nil => simpa [startsProperly_nil_iff] using filled
  | cons segment row ih =>
    rcases first with _ | ⟨head, _ | ⟨next, back⟩⟩
    · exact absurd rfl (filled [] List.mem_cons_self)
    · -- A path of one segment has no proper start but the empty one.
      have nothing : sharedRow [head] others = [] := rfl
      rw [nothing, List.prefix_nil]
      refine iff_of_false (List.cons_ne_nil segment row) fun starts => ?_
      obtain ⟨rest, same, more⟩ := startsProperly_cons_iff.mp (starts _ List.mem_cons_self)
      exact more.ne_nil (List.cons.inj same).2.symm
    · rw [sharedRow]
      split
      · rename_i shared
        have goOn : ∀ other ∈ others, ∃ rest, other = head :: rest ∧ rest ≠ [] :=
          fun other member => goesOn_iff.mp (List.all_eq_true.mp shared other member)
        have tails : ∀ path ∈ (next :: back) :: others.map List.tail, path ≠ [] := by
          refine List.forall_mem_cons.mpr ⟨List.cons_ne_nil next back, ?_⟩
          rw [List.forall_mem_map]
          intro other member
          obtain ⟨rest, rfl, more⟩ := goOn other member
          exact more
        have first : ∃ rest, head :: next :: back = head :: rest ∧ rest ≠ [] :=
          ⟨_, rfl, List.cons_ne_nil next back⟩
        rw [List.cons_prefix_cons, ih tails, List.forall_mem_cons, List.forall_mem_cons,
          List.forall_mem_map, startsProperly_cons_iff_tail first, List.tail_cons, and_assoc]
        refine and_congr_right ?_
        rintro rfl
        refine and_congr_right fun _ => forall₂_congr fun other member => ?_
        rw [startsProperly_cons_iff_tail (goOn other member), and_iff_right rfl]
      · rename_i apart
        rw [List.prefix_nil]
        refine iff_of_false (List.cons_ne_nil segment row) fun starts => apart ?_
        obtain ⟨here, there⟩ := List.forall_mem_cons.mp starts
        obtain ⟨rest, same, -⟩ := startsProperly_cons_iff.mp here
        obtain ⟨rfl, -⟩ := List.cons.inj same
        refine List.all_eq_true.mpr fun other member => goesOn_iff.mpr ?_
        obtain ⟨rest, rfl, more⟩ := startsProperly_cons_iff.mp (there other member)
        exact ⟨rest, rfl, more.ne_nil⟩

def sharedLead (paths : List (List Char)) : List (List Char) :=
  match paths.map fun path => path.splitOn '/' with
  | [] => []
  | first :: others => sharedRow first others

theorem commonLead_eq (paths : List (List Char)) :
    commonLead paths = List.intercalate ['/'] (sharedLead paths) := by
  cases paths <;> rfl

theorem isPrefix_sharedLead_iff {paths : List (List Char)} (listed : paths ≠ [])
    {row : List (List Char)} :
    row <+: sharedLead paths ↔ ∀ path ∈ paths, StartsProperly row (path.splitOn '/') := by
  cases paths with
  | nil => exact absurd rfl listed
  | cons first others =>
    have filled : ∀ path ∈ (first :: others).map fun path => path.splitOn '/', path ≠ [] := by
      rw [List.forall_mem_map]
      exact fun path _ => List.splitOn_ne_nil '/' path
    rw [sharedLead, List.map_cons, isPrefix_sharedRow_iff filled, ← List.map_cons,
      List.forall_mem_map]

section
variable {paths : List (List Char)} {path : List Char}

theorem startsProperly_sharedLead (member : path ∈ paths) :
    StartsProperly (sharedLead paths) (path.splitOn '/') :=
  (isPrefix_sharedLead_iff (List.ne_nil_of_mem member)).mp List.prefix_rfl path member

theorem splitOn_commonLead (member : path ∈ paths) (filled : sharedLead paths ≠ []) :
    (commonLead paths).splitOn '/' = sharedLead paths := by
  obtain ⟨next, rest, whole⟩ := startsProperly_sharedLead member
  rw [commonLead_eq]
  refine List.splitOn_intercalate '/' (fun piece inside => ?_) filled
  exact Text.not_mem_of_mem_splitOn (whole ▸ List.mem_append_left _ inside)

end

theorem startsProperly_splitOn_iff (front path : List Char) :
    StartsProperly (front.splitOn '/') (path.splitOn '/') ↔ front ++ ['/'] <+: path := by
  constructor
  · rintro ⟨next, rest, whole⟩
    have joined := congrArg (List.intercalate ['/']) whole
    rw [Text.intercalate_append (List.splitOn_ne_nil '/' front), List.intercalate_splitOn,
      List.intercalate_splitOn] at joined
    exact ⟨_, joined.symm⟩
  · rintro ⟨back, rfl⟩
    rw [List.append_assoc, List.singleton_append, List.splitOn_append_cons_self]
    obtain ⟨next, rest, parts⟩ := List.ne_nil_iff_exists_cons.mp (List.splitOn_ne_nil '/' back)
    exact ⟨next, rest, by rw [parts]⟩

theorem commonLead_slash_starts {paths : List (List Char)} {path : List Char}
    (member : path ∈ paths) (filled : commonLead paths ≠ []) : commonLead paths ++ ['/'] <+: path := by
  have row : sharedLead paths ≠ [] := fun empty => filled (by rw [commonLead_eq, empty]; rfl)
  rw [← startsProperly_splitOn_iff, splitOn_commonLead member row]
  exact startsProperly_sharedLead member

theorem segments_prefix_commonLead {paths : List (List Char)} (listed : paths ≠ [])
    {front : List Char} (starts : ∀ path ∈ paths, front ++ ['/'] <+: path) :
    segments front <+: segments (commonLead paths) := by
  have inside : front.splitOn '/' <+: sharedLead paths :=
    (isPrefix_sharedLead_iff listed).mpr fun path member =>
      (startsProperly_splitOn_iff front path).mpr (starts path member)
  have filled : sharedLead paths ≠ [] := by
    rintro empty
    rw [empty, List.prefix_nil] at inside
    exact List.splitOn_ne_nil '/' front inside
  obtain ⟨path, member⟩ := List.exists_mem_of_ne_nil paths listed
  rw [segments, segments, splitOn_commonLead member filled]
  exact inside.filter _

/-- A row that starts all paths properly, none longer than it. -/
structure IsLongestLead (paths : List (List Char)) (row : List (List Char)) : Prop where
  starts : ∀ path ∈ paths, StartsProperly row (path.splitOn '/')
  longest : ∀ other, (∀ path ∈ paths, StartsProperly other (path.splitOn '/')) →
    other.length ≤ row.length

section
variable {paths : List (List Char)} (listed : paths ≠ [])
include listed

theorem isLongestLead_iff {row : List (List Char)} :
    IsLongestLead paths row ↔ row = sharedLead paths := by
  have starts := fun path member => @startsProperly_sharedLead paths path member
  constructor
  · rintro ⟨startsToo, longest⟩
    exact ((isPrefix_sharedLead_iff listed).mpr startsToo).eq_of_length_le (longest _ starts)
  · rintro rfl
    exact ⟨starts, fun other startsToo =>
      ((isPrefix_sharedLead_iff listed).mpr startsToo).length_le⟩

theorem sharedLead_isPrefix_of_subset {more : List (List Char)} (inside : paths ⊆ more) :
    sharedLead more <+: sharedLead paths :=
  (isPrefix_sharedLead_iff listed).mpr fun _ member => startsProperly_sharedLead (inside member)

theorem sharedLead_eq_of_mem_iff {others : List (List Char)}
    (same : ∀ path, path ∈ others ↔ path ∈ paths) : sharedLead others = sharedLead paths := by
  obtain ⟨path, member⟩ := List.exists_mem_of_ne_nil paths listed
  have listedToo : others ≠ [] := List.ne_nil_of_mem ((same path).mpr member)
  have there := sharedLead_isPrefix_of_subset listed fun path => (same path).mpr
  have back := sharedLead_isPrefix_of_subset listedToo fun path => (same path).mp
  exact there.eq_of_length_le back.length_le

/-- The common lead is the longest row that starts all paths properly, as a text, and further paths
can only shorten that row. Neither the order of the paths matters nor how often each is listed. -/
theorem commonLead_isLongest :
    (∃ row, IsLongestLead paths row ∧ commonLead paths = List.intercalate ['/'] row ∧
      (∀ other, IsLongestLead paths other → other = row) ∧
      ∀ more shorter, paths ⊆ more → IsLongestLead more shorter → shorter <+: row) ∧
    ∀ others, (∀ path, path ∈ others ↔ path ∈ paths) → commonLead others = commonLead paths := by
  refine ⟨⟨sharedLead paths, (isLongestLead_iff listed).mpr rfl, commonLead_eq paths,
    fun other => (isLongestLead_iff listed).mp, ?_⟩, ?_⟩
  · intro more shorter inside longest
    obtain ⟨path, member⟩ := List.exists_mem_of_ne_nil paths listed
    rw [(isLongestLead_iff (List.ne_nil_of_mem (inside member))).mp longest]
    exact sharedLead_isPrefix_of_subset listed inside
  · intro others same
    rw [commonLead_eq, commonLead_eq, sharedLead_eq_of_mem_iff listed same]

end

def taskPaths : List (List Char) :=
  ["api//users/list".toList, "api//tasks".toList]

theorem commonLead_taskPaths :
    (∃ row, IsLongestLead taskPaths row ∧ "api/".toList = List.intercalate ['/'] row) ∧
      commonLead (taskPaths.reverse ++ taskPaths) = "api/".toList := by
  have lead : commonLead taskPaths = "api/".toList := by decide
  obtain ⟨⟨row, longest, text, -⟩, unordered⟩ := @commonLead_isLongest taskPaths (by decide)
  refine ⟨⟨row, longest, lead ▸ text⟩, ?_⟩
  rw [unordered _ fun path => by simp, lead]

end ApiCatalog.Naming
