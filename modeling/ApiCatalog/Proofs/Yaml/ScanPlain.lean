import ApiCatalog.Proofs.Yaml.ScanSteps

/-!
Plain scalars inside flow collections. With a scalar the blanks behind it are taken, up to a tab.
-/

namespace ApiCatalog.Yaml

/-! Texts that are plain scalars. -/

def isLeafChar (c : Char) : Bool :=
  c.isAlphanum || c == '.' || c == '+' || c == '-'

theorem ne_of_isLeafChar {c other : Char} (leaf : isLeafChar c = true)
    (outside : isLeafChar other = false) : (c == other) = false := by
  refine beq_false_of_ne ?_
  rintro rfl
  rw [leaf] at outside
  cases outside

theorem not_contains_of_isLeafChar {c : Char} {signs : List Char} (leaf : isLeafChar c = true)
    (outside : (signs.any isLeafChar) = false) : signs.contains c = false := by
  rw [← Bool.not_eq_true, List.contains_iff_mem]
  exact fun member => List.any_eq_false.mp outside c member leaf

theorem not_blankOrEnd_of_isLeafChar {c : Char} (leaf : isLeafChar c = true) :
    blankOrEnd (some c) = false := by
  have other (d : Char) (outside : isLeafChar d = false) : (c == d) = false :=
    ne_of_isLeafChar leaf outside
  simp [blankOrEnd, isBreak, other ' ' rfl, other '\t' rfl, other '\n' rfl, other '\r' rfl,
    other '\x85' rfl, other '\u2028' rfl, other '\u2029' rfl]

/-- Whether a text is made of letters, digits and the signs of numbers, as words and numbers are. -/
structure IsLeaf (text : List Char) : Prop where
  chars : ∀ c ∈ text, isLeafChar c = true
  starts : ∃ c more, text = c :: more ∧ (c.isAlphanum = true ∨
    c = '-' ∧ ∃ d rest, more = d :: rest ∧ d.isAlphanum = true)

def ClosesPlain (text : List Char) : Prop :=
  ∀ c ∈ text.head?, c = '\t' ∨ c = ',' ∨ c = ']' ∨ c = '\x7d'

theorem ClosesPlain.stops {text : List Char} (closes : ClosesPlain text) : Stops text := by
  intro c first
  rcases closes c first with rfl | rfl | rfl | rfl <;> decide

theorem ClosesPlain.ends {text : List Char} (closes : ClosesPlain text) : ∀ c ∈ text.head?,
    blankOrEnd (some c) = true ∨ c = ',' ∨ c = ']' ∨ c = '\x7d' := by
  intro c first
  rcases closes c first with rfl | sign
  · exact .inl rfl
  · exact .inr sign

theorem plainStretch_nil {text : List Char} (ends : ∀ c ∈ text.head?,
    blankOrEnd (some c) = true ∨ c = ',' ∨ c = ']' ∨ c = '\x7d') : plainStretch true text = [] := by
  cases text with
  | nil => rfl
  | cons c text =>
    rw [plainStretch]
    rcases ends c rfl with blank | rfl | rfl | rfl
    · simp [blank]
    all_goals rfl

theorem plainStretch_leaf {text rest : List Char} (leaf : ∀ c ∈ text, isLeafChar c = true)
    (ends : ∀ c ∈ rest.head?, blankOrEnd (some c) = true ∨ c = ',' ∨ c = ']' ∨ c = '\x7d') :
    plainStretch true (text ++ rest) = text := by
  induction text with
  | nil => exact plainStretch_nil ends
  | cons c text inner =>
    obtain ⟨first, leaf⟩ := List.forall_mem_cons.mp leaf
    have solid : blankOrEnd (some c) = false := not_blankOrEnd_of_isLeafChar first
    have unsigned : ",?[]\x7b\x7d".toList.contains c = false :=
      not_contains_of_isLeafChar first (by decide)
    rw [List.cons_append, plainStretch]
    simp only [solid, unsigned, ne_of_isLeafChar first (rfl : isLeafChar ':' = false),
      Bool.false_and, Bool.and_false, Bool.or_false,
      Bool.false_eq_true, if_false, inner leaf]

theorem IsLeaf.head {here : Cursor} {text rest : List Char} (leaf : IsLeaf text)
    (ahead : here.rest = text ++ rest) :
    ∃ c, here.head = some c ∧ isLeafChar c = true ∧ (c == '.') = false ∧
      ((c == '-') = false ∨ blankOrEnd (here.peek 1) = false ∧ here.atSeparator = false) := by
  obtain ⟨c, more, rfl, kind⟩ := leaf.starts
  refine ⟨c, Cursor.head_eq ahead, leaf.chars c List.mem_cons_self, ?_⟩
  rcases kind with letter | ⟨rfl, d, rest, rfl, letter⟩
  · have sign (d : Char) (outside : d.isAlphanum = false) : (c == d) = false := by
      refine beq_false_of_ne ?_
      rintro rfl
      rw [letter] at outside
      cases outside
    exact ⟨sign '.' rfl, .inl (sign '-' rfl)⟩
  · have second : isLeafChar d = true := by simp [isLeafChar, letter]
    have noDash : ('-' == d) = false := by
      refine beq_false_of_ne ?_
      rintro rfl
      exact absurd letter (by decide)
    refine ⟨rfl, .inr ⟨?_, ?_⟩⟩
    · rw [Cursor.peek, ahead]
      exact not_blankOrEnd_of_isLeafChar second
    · rw [Cursor.atSeparator, ahead]
      simp [List.isPrefixOf, noDash]

theorem IsLeaf.startsPlain {here : Cursor} {text rest : List Char} (leaf : IsLeaf text)
    (ahead : here.rest = text ++ rest) (flow : Bool) : Yaml.startsPlain flow here = true := by
  obtain ⟨c, head, first, -, dash⟩ := leaf.head ahead
  have quote : (c.toNat == 0x60) = false := by
    refine beq_false_of_ne fun same => ?_
    have same : c = Char.ofNat 0x60 := by rw [← same, Char.ofNat_toNat]
    rw [same] at first
    exact absurd first (by decide)
  have signs : "?:,[]\x7b\x7d-#&*!|>'\"%@".toList.all
      (fun d => d == '-' || !isLeafChar d) = true := by decide
  rw [Yaml.startsPlain, head]
  simp only [not_blankOrEnd_of_isLeafChar first, quote, Bool.or_self, Bool.false_eq_true, if_false]
  split
  case isTrue sign =>
    obtain rfl : c = '-' := by
      simpa [first] using List.all_eq_true.mp signs c (List.contains_iff_mem.mp sign)
    obtain ⟨solid, -⟩ := dash.resolve_left (by decide)
    rw [solid]
    rfl
  case isFalse => rfl

/-! The blanks behind a plain scalar. -/

section

variable {here : Cursor} {gap rest : List Char}

theorem atSeparator_of_blank (ahead : here.rest = gap ++ rest)
    (blank : ∀ c ∈ gap, c = ' ' ∨ c = '\n' ∨ c = '\r') (closes : ClosesPlain rest) :
    here.atSeparator = false := by
  have head : ∀ c ∈ here.rest.head?, ('-' == c) = false ∧ ('.' == c) = false := by
    rw [ahead]
    intro c first
    cases gap with
    | nil => rcases closes c first with rfl | rfl | rfl | rfl <;> decide
    | cons d gap =>
      cases first
      rcases blank c List.mem_cons_self with rfl | rfl | rfl <;> decide
  unfold Cursor.atSeparator
  cases text : here.rest with
  | nil => rfl
  | cons c text =>
    rw [text] at head
    obtain ⟨dash, point⟩ := head c rfl
    simp [List.isPrefixOf, dash, point]

theorem scanBreaks_past (closes : ClosesPlain rest) (fuel : Nat) :
    ∀ (gap : List Char) (here : Cursor), (∀ c ∈ gap, c = ' ' ∨ c = '\n' ∨ c = '\r') →
      here.rest = gap ++ rest → gap.length < fuel →
        ∃ breaks, scanBreaks (· == ' ') (fun place => !place.atSeparator) fuel here =
          some (breaks, here.past gap) := by
  induction fuel with
  | zero => exact fun _ _ _ _ enough => absurd enough (Nat.not_lt_zero _)
  | succ fuel inner =>
    intro gap here blank ahead enough
    obtain ⟨spaces, span, -, behind⟩ := spaces_cases ahead blank closes.stops
    rw [scanBreaks, Cursor.skip, span]
    rcases behind with ⟨rfl, solid⟩ | ⟨there, left, found, shorter, blankLeft, next, reached⟩
    · simp only [solid]
      exact ⟨_, rfl⟩
    · obtain ⟨more, done⟩ := inner left there blankLeft next (by omega)
      simp only [found, atSeparator_of_blank next blankLeft closes, Bool.not_false, if_true, done]
      rw [← reached]
      exact ⟨_, rfl⟩

theorem scanPlainSpaces_past {fuel : Nat} (ahead : here.rest = gap ++ rest)
    (blank : ∀ c ∈ gap, c = ' ' ∨ c = '\n' ∨ c = '\r') (closes : ClosesPlain rest)
    (enough : gap.length < fuel) :
    ∃ spaces broken, scanPlainSpaces fuel here = (spaces, here.past gap, broken) := by
  obtain ⟨spaces, span, -, behind⟩ := spaces_cases ahead blank closes.stops
  rw [scanPlainSpaces, span]
  rcases behind with ⟨rfl, solid⟩ | ⟨there, left, found, shorter, blankLeft, next, reached⟩
  · simp only [solid]
    exact ⟨_, _, rfl⟩
  · obtain ⟨more, done⟩ := scanBreaks_past closes fuel left there blankLeft next (by omega)
    simp only [found, atSeparator_of_blank next blankLeft closes, Bool.false_eq_true, if_false, done]
    rw [← reached]
    exact ⟨_, _, rfl⟩

theorem scanPlainText_nil {before : List Char} {indent : Int} {broken : Bool}
    (closes : ClosesPlain here.rest) (fuel : Nat) :
    scanPlainText true indent before broken fuel here = ([], here, broken) := by
  cases fuel with
  | zero => rfl
  | succ fuel =>
    rw [scanPlainText, plainStretch_nil closes.ends]
    simp

theorem scanPlainText_leaf {text before : List Char} {indent : Int} {broken : Bool} {fuel : Nat}
    (ahead : here.rest = text ++ (gap ++ rest)) (leaf : IsLeaf text)
    (blank : ∀ c ∈ gap, c = ' ' ∨ c = '\n' ∨ c = '\r') (closes : ClosesPlain rest)
    (enough : gap.length < fuel) : ∃ broken', scanPlainText true indent before broken (fuel + 1) here =
      (before ++ text, here.past (text ++ gap), broken') := by
  have ends : ∀ c ∈ (gap ++ rest).head?,
      blankOrEnd (some c) = true ∨ c = ',' ∨ c = ']' ∨ c = '\x7d' := by
    intro c first
    cases gap with
    | nil => exact closes.ends c first
    | cons d gap =>
      cases first
      rcases blank c List.mem_cons_self with rfl | rfl | rfl <;> exact .inl rfl
  obtain ⟨c, more, parts, -⟩ := leaf.starts
  have noComment : here.isAt '#' = false := by
    rw [Cursor.isAt, Cursor.head, ahead, parts]
    exact ne_of_isLeafChar (leaf.chars c (parts ▸ List.mem_cons_self)) rfl
  have solid : text.isEmpty = false := by
    rw [parts]
    rfl
  have after := Cursor.rest_past ahead
  obtain ⟨spaces, broken', found⟩ := scanPlainSpaces_past after blank closes enough
  have stretch : plainStretch true here.rest = text := ahead ▸ plainStretch_leaf leaf.chars ends
  have closesThere : ClosesPlain ((here.past text).past gap).rest :=
    (Cursor.rest_past after).symm ▸ closes
  rw [scanPlainText, stretch]
  simp only [noComment, solid, Bool.or_false, Bool.false_eq_true, if_false]
  rw [show here.advance text.length = here.past text from rfl, found]
  simp only [scanPlainText_nil closesThere, Cursor.past_append, List.append_nil]
  exact ⟨broken', ite_self _⟩

end

/-! The step over a plain scalar. -/

namespace ScanState

variable {bound depth : Nat} {ready : Bool} {s s' : ScanState} {gap after rest text : List Char}
  {tokens : List Token}

theorem Arrives.fetch_plain (arrives : Arrives bound s s') (ahead : s'.here.rest = text ++ rest)
    (leaf : IsLeaf text) : s.fetch bound = s'.fetchPlain bound := by
  obtain ⟨c, head, first, noPoint, dash⟩ := leaf.head ahead
  have starts := leaf.startsPlain ahead s'.inFlow
  have other (d : Char) (outside : isLeafChar d = false) : (c == d) = false :=
    ne_of_isLeafChar first outside
  unfold fetch
  rw [arrives.1]
  simp only [Except.bind, Bind.bind, arrives.2, head]
  rcases dash with noDash | ⟨solid, separate⟩
  · simp [other _ (rfl : isLeafChar '%' = false), other '[' rfl, other '\x7b' rfl, other ']' rfl,
      other '\x7d' rfl, other ',' rfl, other '?' rfl, other ':' rfl, other '*' rfl,
      other '&' rfl, other '!' rfl, other '|' rfl, other '>' rfl, other '\'' rfl, other '"' rfl,
      noPoint, noDash, starts]
  · simp [other _ (rfl : isLeafChar '%' = false), other '[' rfl, other '\x7b' rfl, other ']' rfl,
      other '\x7d' rfl, other ',' rfl, other '?' rfl, other ':' rfl, other '*' rfl,
      other '&' rfl, other '!' rfl, other '|' rfl, other '>' rfl, other '\'' rfl, other '"' rfl,
      noPoint, solid, separate, starts]

theorem scans_plain_of {front left : List Char} (blank : ∀ c ∈ gap, Json.isSpace c = true)
    (leaf : IsLeaf text) (usual : ∀ c ∈ front, c = ' ' ∨ c = '\n' ∨ c = '\r')
    (closes : ClosesPlain left) :
    Scans bound (At bound ⟨gap ++ (text ++ (front ++ left)), tokens, depth + 1, ready⟩)
      ('\t' ∉ gap) (At bound ⟨left, tokens ++ [.scalar true text], depth + 1, false⟩) := by
  obtain ⟨c, more, parts, -⟩ := leaf.starts
  have first : isLeafChar c = true := leaf.chars c (parts ▸ List.mem_cons_self)
  have stops : Stops (text ++ (front ++ left)) := by
    rw [parts]
    rintro _ ⟨⟩
    have solid := not_blankOrEnd_of_isLeafChar first
    simp only [blankOrEnd, Bool.or_eq_false_iff, beq_eq_false_iff_ne] at solid
    exact ⟨solid.1.1, by simpa using ne_of_isLeafChar first (rfl : isLeafChar '#' = false), solid.2⟩
  refine scans_token blank stops fun s s' arrives there => ?_
  obtain ⟨slot, noted, free, -⟩ := there.noteKey
  have flow : s'.inFlow = true := there.inFlow.mpr (Nat.succ_pos depth)
  have room := there.room
  have total := congrArg List.length parts
  simp only [List.length_append, List.length_cons] at room total
  obtain ⟨fuel, rfl⟩ : ∃ fuel, bound = fuel + 1 := Nat.exists_eq_add_one.mpr (by omega)
  obtain ⟨broken, scanned⟩ := @scanPlainText_leaf s'.here front left text [] (s'.indent + 1) false
    fuel there.rest leaf usual closes (by omega)
  have taken : At (fuel + 1) ⟨(text ++ front) ++ left, tokens, depth + 1, ready⟩ s' :=
    (List.append_assoc text front left).symm ▸ there
  have after := taken.pass (text ++ front)
    (by simp : Token.scalar true text ≠ .streamEnd) broken free there.freeOuter
  rw [there.depth] at after
  refine ⟨_, _, ?_, after, ?_, { after.fresh with ready := fun may => absurd may Bool.false_ne_true }⟩
  · rw [arrives.fetch_plain there.rest leaf, fetchPlain, noted]
    simp only [Except.bind, Bind.bind]
    rw [show ({ s' with possible := slot } : ScanState).inFlow = true from flow, scanned]
    rfl
  · simp only [List.length_append]
    omega

/-- A plain scalar takes the blanks behind it up to a tab, which is left. -/
theorem scans_plain (blank : ∀ c ∈ gap, Json.isSpace c = true) (leaf : IsLeaf text)
    (blankAfter : ∀ c ∈ after, Json.isSpace c = true) (closes : ClosesPlain rest) :
    ∃ left, (∀ c ∈ left, Json.isSpace c = true) ∧ ('\t' ∈ left ↔ '\t' ∈ after) ∧
      Scans bound (At bound ⟨gap ++ (text ++ (after ++ rest)), tokens, depth + 1, ready⟩)
        ('\t' ∉ gap) (At bound ⟨left ++ rest, tokens ++ [.scalar true text], depth + 1, false⟩) := by
  obtain ⟨front, left, rfl, solid, first⟩ := exists_run (· != '\t') after
  have usual : ∀ c ∈ front, c = ' ' ∨ c = '\n' ∨ c = '\r' := fun c member =>
    eq_of_isSpace (blankAfter c (List.mem_append_left _ member)) (by simpa using solid c member)
  refine ⟨left, fun c member => blankAfter c (List.mem_append_right _ member), ?_, ?_⟩
  · rw [List.mem_append]
    refine ⟨.inr, fun member => member.resolve_left fun early => ?_⟩
    simpa using solid '\t' early
  · rw [List.append_assoc]
    refine scans_plain_of blank leaf usual ?_
    intro c head
    cases left with
    | nil => exact closes c head
    | cons d left =>
      cases head
      exact .inl (by simpa using first c rfl)

end ScanState

end ApiCatalog.Yaml
