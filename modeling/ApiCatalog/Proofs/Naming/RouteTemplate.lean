import ApiCatalog.Proofs.Naming.Shortening
import ApiCatalog.Proofs.Text.Capitals

/-!
Names of path templates. The name of a template is its method and the words of its segments, and
holds no brace, exactly if no parameter has a point in its name. The first such point cuts the
template in the middle of a parameter, whose opening brace then stays in the name.
-/

namespace ApiCatalog.Naming

theorem joinDashed_cons_of_not_word {c : Char} (other : c ≠ '-') (sign : Text.isWordChar c = false)
    (dashes : Nat) (rest : List Char) :
    joinDashed dashes (c :: rest) = List.replicate dashes '-' ++ c :: joinDashed 0 rest := by
  rw [joinDashed, if_neg other, sign]
  split
  · rename_i none
    rw [none]
    rfl
  · rfl

theorem joinDashed_concat_of_not_word {c : Char} (other : c ≠ '-')
    (sign : Text.isWordChar c = false) (dashes : Nat) (front : List Char) :
    joinDashed dashes (front ++ [c]) = joinDashed dashes front ++ [c] := by
  induction front generalizing dashes with
  | nil => exact joinDashed_cons_of_not_word other sign dashes []
  | cons first front ih =>
    rw [List.cons_append, joinDashed, joinDashed, ih, ih]
    split
    · rfl
    · split
      · rfl
      · split
        · rw [List.append_assoc]
        · rw [List.append_assoc, List.cons_append]

theorem mem_of_mem_joinDashed {sign : Char} (isSign : Text.IsSign sign) (other : sign ≠ '-')
    {dashes : Nat} {text : List Char} (member : sign ∈ joinDashed dashes text) : sign ∈ text := by
  have noDash : ∀ count, sign ∉ List.replicate count '-' :=
    fun count inside => other (List.eq_of_mem_replicate inside)
  induction text generalizing dashes with
  | nil => exact absurd member (noDash dashes)
  | cons c rest ih =>
    rw [joinDashed] at member
    split at member
    · exact List.mem_cons_of_mem c (ih member)
    · split at member
      · rcases List.mem_cons.mp member with rfl | later
        · exact List.mem_cons_self
        · exact List.mem_cons_of_mem c (ih later)
      · split at member
        · rcases List.mem_append.mp member with capital | later
          · exact Text.eq_of_mem_upperChar isSign capital ▸ List.mem_cons_self
          · exact List.mem_cons_of_mem c (ih later)
        · rcases List.mem_append.mp member with dash | later
          · exact absurd dash (noDash dashes)
          · rcases List.mem_cons.mp later with rfl | later
            · exact List.mem_cons_self
            · exact List.mem_cons_of_mem c (ih later)

theorem mem_of_mem_capitalize {sign : Char} (isSign : Text.IsSign sign) {text : List Char}
    (member : sign ∈ capitalize text) : sign ∈ text := by
  cases text with
  | nil => exact member
  | cons c rest =>
    rcases List.mem_append.mp member with capital | later
    · exact Text.eq_of_mem_upperChar isSign capital ▸ List.mem_cons_self
    · exact List.mem_cons_of_mem c later

def isPlainChar (c : Char) : Bool :=
  c.isAlphanum || c == '_' || c == '-'

/-- A segment of a path template: a word, or a parameter in braces. -/
inductive RouteSegment
  | word (text : List Char) (plain : text.all isPlainChar = true)
  | parameter (name : List Char) (bare : '/' ∉ name ∧ '\x7b' ∉ name ∧ '\x7d' ∉ name)

namespace RouteSegment

def text : RouteSegment → List Char
  | word text _ => text
  | parameter name _ => '\x7b' :: (name ++ ['\x7d'])

def spoken : RouteSegment → List Char
  | word text _ => capitalize (joinDashed 0 text)
  | parameter name _ => 'B' :: 'y' :: capitalize (joinDashed 0 name)

theorem not_mem_word {sign : Char} (other : isPlainChar sign = false) {text : List Char}
    (plain : text.all isPlainChar = true) : sign ∉ text :=
  fun member => Bool.false_ne_true (other.symm.trans (List.all_eq_true.mp plain sign member))

theorem slash_not_mem_text (segment : RouteSegment) : '/' ∉ segment.text := by
  cases segment with
  | word text plain => exact not_mem_word (by decide) plain
  | parameter name bare => simp [text, bare.1]

theorem segmentWord_open {name : List Char} (unclosed : '\x7d' ∉ name) :
    segmentWord ('\x7b' :: name) = '\x7b' :: joinDashed 0 name := by
  have joined : joinDashed 0 ('\x7b' :: name) = '\x7b' :: joinDashed 0 name := by
    rw [joinDashed_cons_of_not_word (by decide) (by decide), List.replicate_zero, List.nil_append]
  have noParameter : parameterName? ('\x7b' :: joinDashed 0 name) = none := by
    have opened : Text.dropStart? ['\x7b'] ('\x7b' :: joinDashed 0 name) =
        some (joinDashed 0 name) := (Text.dropStart?_eq_some_iff _ _ _).mpr rfl
    rw [parameterName?, opened]
    simp only
    cases closed : Text.dropEnd? ['\x7d'] (joinDashed 0 name) with
    | none => rfl
    | some inner =>
      have whole := (Text.dropEnd?_eq_some_iff _ _ _).mp closed
      have inside : '\x7d' ∈ joinDashed 0 name := by simp [whole]
      exact absurd (mem_of_mem_joinDashed ⟨by decide, by decide⟩ (by decide) inside) unclosed
  rw [segmentWord, joined, noParameter]
  rfl

theorem segmentWord_text (segment : RouteSegment) : segmentWord segment.text = segment.spoken := by
  cases segment with
  | word text plain =>
    have noParameter : parameterName? (joinDashed 0 text) = none := by
      have unopened : ¬ ['\x7b'] <+: joinDashed 0 text := by
        rintro ⟨rest, whole⟩
        have inside : '\x7b' ∈ joinDashed 0 text := by simp [← whole]
        exact not_mem_word (by decide) plain
          (mem_of_mem_joinDashed ⟨by decide, by decide⟩ (by decide) inside)
      rw [parameterName?, Text.dropStart?_eq_none unopened]
    rw [RouteSegment.text, segmentWord, noParameter, spoken]
  | parameter name bare =>
    have joined : joinDashed 0 ('\x7b' :: (name ++ ['\x7d'])) =
        '\x7b' :: (joinDashed 0 name ++ ['\x7d']) := by
      rw [joinDashed_cons_of_not_word (by decide) (by decide),
        joinDashed_concat_of_not_word (by decide) (by decide)]
      rfl
    have parameter : parameterName? ('\x7b' :: (joinDashed 0 name ++ ['\x7d'])) =
        some (joinDashed 0 name) := by
      have opened : Text.dropStart? ['\x7b'] ('\x7b' :: (joinDashed 0 name ++ ['\x7d'])) =
          some (joinDashed 0 name ++ ['\x7d']) := (Text.dropStart?_eq_some_iff _ _ _).mpr rfl
      rw [parameterName?, opened]
      exact (Text.dropEnd?_eq_some_iff _ _ _).mpr rfl
    rw [RouteSegment.text, segmentWord, joined, parameter, spoken]

theorem brace_not_mem_spoken {brace : Char} (isBrace : brace = '\x7b' ∨ brace = '\x7d')
    (segment : RouteSegment) : brace ∉ segment.spoken := by
  have isSign : Text.IsSign brace := by
    rcases isBrace with rfl | rfl <;> exact ⟨by decide, by decide⟩
  have other : brace ≠ '-' ∧ brace ≠ 'B' ∧ brace ≠ 'y' := by
    rcases isBrace with rfl | rfl <;> decide
  have source {text : List Char} (inside : brace ∈ capitalize (joinDashed 0 text)) :
      brace ∈ text :=
    mem_of_mem_joinDashed isSign other.1 (mem_of_mem_capitalize isSign inside)
  cases segment with
  | word text plain =>
    intro inside
    refine not_mem_word ?_ plain (source inside)
    rcases isBrace with rfl | rfl <;> decide
  | parameter name bare =>
    intro inside
    have named : brace ∈ name := by
      rcases List.mem_cons.mp inside with same | inside
      · exact absurd same other.2.1
      · rcases List.mem_cons.mp inside with same | inside
        · exact absurd same other.2.2
        · exact source inside
    rcases isBrace with rfl | rfl
    · exact bare.2.1 named
    · exact bare.2.2 named

theorem exists_parameter_of_point {segment : RouteSegment} (point : '.' ∈ segment.text) :
    ∃ name bare, segment = parameter name bare ∧ '.' ∈ name := by
  cases segment with
  | word text plain => exact absurd point (not_mem_word (by decide) plain)
  | parameter name bare => exact ⟨name, bare, rfl, by simpa [text] using point⟩

end RouteSegment

def templatePath (template : List RouteSegment) : List Char :=
  '/' :: List.intercalate ['/'] (template.map RouteSegment.text)

theorem flatMap_segmentWord_filter (row : List (List Char)) :
    (row.filter fun piece => !piece.isEmpty).flatMap segmentWord = row.flatMap segmentWord := by
  induction row with
  | nil => rfl
  | cons piece row ih =>
    cases piece with
    | nil => exact ih
    | cons c rest => exact congrArg (segmentWord (c :: rest) ++ ·) ih

theorem routeWords_templatePath (template : List RouteSegment) :
    routeWords (templatePath template) [] =
      (cutRow '.' (template.map RouteSegment.text)).flatMap segmentWord := by
  have slashless : ∀ piece ∈ template.map RouteSegment.text, '/' ∉ piece := by
    rw [List.forall_mem_map]
    exact fun segment _ => segment.slash_not_mem_text
  rw [routeWords_eq, dropLead_nil, templatePath, segments_slash_cons,
    segments_intercalate slashless, filter_cutRow_filter, flatMap_segmentWord_filter]

section
variable {template : List RouteSegment}

theorem flatMap_segmentWord_text (template : List RouteSegment) :
    (template.map RouteSegment.text).flatMap segmentWord = template.flatMap RouteSegment.spoken := by
  rw [List.flatMap_map]
  exact congrArg (template.flatMap ·) (funext RouteSegment.segmentWord_text)

theorem routeWords_of_pointless (pointless : ∀ segment ∈ template, '.' ∉ segment.text) :
    routeWords (templatePath template) [] = template.flatMap RouteSegment.spoken := by
  rw [routeWords_templatePath, cutRow_eq_self (List.forall_mem_map.mpr pointless),
    flatMap_segmentWord_text]

theorem routeWords_of_point {front back : List RouteSegment} {name : List Char}
    (bare : '/' ∉ name ∧ '\x7b' ∉ name ∧ '\x7d' ∉ name)
    (pointless : ∀ segment ∈ front, '.' ∉ segment.text) (point : '.' ∈ name) :
    routeWords (templatePath (front ++ .parameter name bare :: back)) [] =
      front.flatMap RouteSegment.spoken ++
        '\x7b' :: joinDashed 0 (Text.before '.' name) := by
  have marked : '.' ∈ (RouteSegment.parameter name bare).text := by
    simp [RouteSegment.text, point]
  have cut : Text.before '.' (RouteSegment.parameter name bare).text =
      '\x7b' :: Text.before '.' name := by
    rw [RouteSegment.text, ← List.cons_append,
      Text.before_append_of_mem (List.mem_cons_of_mem _ point)]
    rfl
  have unclosed : '\x7d' ∉ Text.before '.' name := fun inside =>
    bare.2.2 ((List.takeWhile_prefix _).subset inside)
  rw [routeWords_templatePath, List.map_append, List.map_cons,
    cutRow_append (List.forall_mem_map.mpr pointless), cutRow_cons_of_mem marked, cut,
    List.flatMap_append, flatMap_segmentWord_text, List.flatMap_singleton,
    RouteSegment.segmentWord_open unclosed]

theorem exists_first_point (marked : ¬∀ segment ∈ template, '.' ∉ segment.text) :
    ∃ front name bare back, template = front ++ .parameter name bare :: back ∧
      (∀ segment ∈ front, '.' ∉ segment.text) ∧ '.' ∈ name := by
  induction template with
  | nil => exact absurd (fun _ member => absurd member List.not_mem_nil) marked
  | cons segment rest ih =>
    by_cases point : '.' ∈ segment.text
    · obtain ⟨name, bare, rfl, inside⟩ := RouteSegment.exists_parameter_of_point point
      exact ⟨[], name, bare, rest, rfl, fun _ member => absurd member List.not_mem_nil, inside⟩
    · have later : ¬∀ segment ∈ rest, '.' ∉ segment.text := fun every =>
        marked (List.forall_mem_cons.mpr ⟨point, every⟩)
      obtain ⟨front, name, bare, back, rfl, pointless, inside⟩ := ih later
      exact ⟨segment :: front, name, bare, back, rfl,
        List.forall_mem_cons.mpr ⟨point, pointless⟩, inside⟩

theorem open_brace_mem_of_point (marked : ¬∀ segment ∈ template, '.' ∉ segment.text) :
    '\x7b' ∈ routeWords (templatePath template) [] := by
  obtain ⟨front, name, bare, back, rfl, pointless, point⟩ := exists_first_point marked
  rw [routeWords_of_point bare pointless point]
  exact List.mem_append_right _ List.mem_cons_self

theorem brace_not_mem_words {brace : Char} (isBrace : brace = '\x7b' ∨ brace = '\x7d')
    {method : List Char} (lower : method.all Char.isLower = true) :
    brace ∉ method ++ template.flatMap RouteSegment.spoken := by
  intro inside
  rcases List.mem_append.mp inside with inMethod | inWords
  · have letter := List.all_eq_true.mp lower brace inMethod
    rcases isBrace with rfl | rfl <;> exact absurd letter (by decide)
  · obtain ⟨segment, -, spoken⟩ := List.mem_flatMap.mp inWords
    exact segment.brace_not_mem_spoken isBrace spoken

/-- The name of a template holds no brace, and has the words of all its segments, exactly if there
is no point in its parameters. -/
theorem routeName_templatePath {method : List Char} (lower : method.all Char.isLower = true)
    (template : List RouteSegment) :
    (('\x7b' ∉ routeName (templatePath template) method [] ∧
        '\x7d' ∉ routeName (templatePath template) method []) ↔
      ∀ segment ∈ template, '.' ∉ segment.text) ∧
    (routeName (templatePath template) method [] =
        method ++ template.flatMap RouteSegment.spoken ↔
      ∀ segment ∈ template, '.' ∉ segment.text) := by
  by_cases pointless : ∀ segment ∈ template, '.' ∉ segment.text
  · have name : routeName (templatePath template) method [] =
        method ++ template.flatMap RouteSegment.spoken := by
      rw [routeName, routeWords_of_pointless pointless]
    refine ⟨iff_of_true ?_ pointless, iff_of_true name pointless⟩
    rw [name]
    exact ⟨brace_not_mem_words (Or.inl rfl) lower, brace_not_mem_words (Or.inr rfl) lower⟩
  · have brace : '\x7b' ∈ routeName (templatePath template) method [] :=
      List.mem_append_right _ (open_brace_mem_of_point pointless)
    refine ⟨iff_of_false (fun none => none.1 brace) pointless, iff_of_false ?_ pointless⟩
    intro name
    exact brace_not_mem_words (Or.inl rfl) lower (name ▸ brace)

end

def ordersTemplate : List RouteSegment :=
  [.word "users".toList (by decide), .parameter "user.id".toList (by decide),
    .word "orders".toList (by decide)]

theorem routeName_ordersTemplate :
    routeName (templatePath ordersTemplate) "get".toList [] = "getUsers\x7buser".toList ∧
      ¬('\x7b' ∉ routeName (templatePath ordersTemplate) "get".toList [] ∧
        '\x7d' ∉ routeName (templatePath ordersTemplate) "get".toList []) ∧
      routeName (templatePath ordersTemplate) "get".toList [] ≠
        "get".toList ++ ordersTemplate.flatMap RouteSegment.spoken := by
  have exact := @routeName_templatePath "get".toList (by decide) ordersTemplate
  have point : ¬∀ segment ∈ ordersTemplate, '.' ∉ segment.text := fun pointless =>
    pointless _ (List.mem_cons_of_mem _ List.mem_cons_self) (by decide)
  exact ⟨by decide, mt exact.1.mp point, mt exact.2.mp point⟩

end ApiCatalog.Naming
