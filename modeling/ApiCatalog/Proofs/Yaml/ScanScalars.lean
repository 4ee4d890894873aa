import ApiCatalog.Proofs.Json.Source
import ApiCatalog.Proofs.Yaml.ScanSteps

/-!
Scalars as they stand in JSON texts: quoted ones, whose escapes all mean the same but for the halves
of one character, and plain ones, which may take blanks behind them.
-/

namespace ApiCatalog.Yaml

open Json (Piece quoted)

/-! Quoted scalars. -/

/-- The pieces of a string as they are read one by one: each half of a character by itself. -/
def singles : Piece → List Piece
  | .pair high low _ _ => [.unit high, .unit low]
  | piece => [piece]

def IsSingle : Piece → Prop
  | .pair _ _ _ _ => False
  | _ => True

theorem isSingle_of_mem_singles {piece single : Piece} (member : single ∈ singles piece) :
    IsSingle single := by
  cases piece <;> simp only [singles, List.mem_cons, List.not_mem_nil, or_false] at member
  case pair => rcases member with rfl | rfl <;> trivial
  all_goals
    subst member
    trivial

theorem flatMap_singles (pieces : List Piece) :
    (pieces.flatMap singles).flatMap Piece.text = pieces.flatMap Piece.text := by
  rw [List.flatMap_assoc]
  congr 1
  funext piece
  cases piece <;> simp [singles, Piece.text]

def standsForItself : Piece → Bool
  | .plain c _ => isQuotedPlain c
  | _ => false

theorem text_of_standsForItself {pieces : List Piece}
    (all : ∀ piece ∈ pieces, standsForItself piece = true) :
    pieces.flatMap Piece.text = pieces.map Piece.char ∧
      ∀ c ∈ pieces.map Piece.char, isQuotedPlain c = true := by
  induction pieces with
  | nil => exact ⟨rfl, nofun⟩
  | cons piece pieces inner =>
    obtain ⟨first, all⟩ := List.forall_mem_cons.mp all
    obtain ⟨same, solid⟩ := inner all
    cases piece with
    | plain c visible =>
      rw [List.flatMap_cons, same, List.map_cons, List.forall_mem_cons]
      exact ⟨rfl, first, solid⟩
    | short | unit | pair => cases first

section

variable {here there last : Cursor} {plain piece more : List Char} {fuel : Nat}

theorem scanQuotedText_close (span : here.span isQuotedPlain = (plain, there))
    (head : there.head = some '"') :
    scanQuotedText true (fuel + 1) here = .ok (plain, there.next) := by
  rw [scanQuotedText, span]
  simp only [head]
  rfl

theorem scanQuotedText_piece (span : here.span isQuotedPlain = (plain, there)) {next : Cursor}
    (found : there.head = some '\'' ∧ piece = ['\''] ∧ next = there.next ∨
      there.head = some '\\' ∧ scanEscape fuel there.next = .ok (piece, next) ∨
      there.head = some ' ' ∧ scanQuotedSpaces fuel there = .ok (piece, next))
    (rest : scanQuotedText true fuel next = .ok (more, last)) :
    scanQuotedText true (fuel + 1) here = .ok (plain ++ piece ++ more, last) := by
  rw [scanQuotedText, span]
  obtain ⟨head, rfl, rfl⟩ | ⟨head, escape⟩ | ⟨head, spaces⟩ := found
  · simp only [head, if_true, Bind.bind, Except.bind, Pure.pure, Except.pure, Bool.false_eq_true,
      if_false, rest]
  · simp only [head, escape, if_true, Bind.bind, Except.bind, Pure.pure, Except.pure,
      Bool.false_eq_true, if_false, rest]
  · simp only [head, spaces, Bind.bind, Except.bind, Pure.pure, Except.pure, Bool.false_eq_true,
      if_false, rest]
    rfl

theorem scanEscape_short {escape : Char × Char} (listed : escape ∈ Json.shortEscapes)
    {rest : List Char} (ahead : here.rest = escape.1 :: rest) :
    scanEscape fuel here = .ok ([escape.2], here.next) := by
  have known : ∀ escape ∈ Json.shortEscapes, escapedChar? escape.1 = some escape.2 := by decide
  rw [scanEscape, Cursor.head_eq ahead]
  simp only [known escape listed]

theorem scanEscape_unit (code : Json.CodeUnit) {rest : List Char}
    (ahead : here.rest = 'u' :: (code.digits ++ rest)) :
    scanEscape fuel here =
      .ok ([Json.unitChar code.point], here.past ('u' :: code.digits)) := by
  have four := code.four
  have small := (Text.of_hexNumber? code.denotes).1
  rw [four] at small
  have digits : here.next.rest.take 4 = code.digits := by
    rw [(Cursor.next_cons ahead).1, ← four, List.take_left]
  have char : numberedChar code.point = .ok (Json.unitChar code.point) := by
    unfold numberedChar Json.unitChar
    rw [if_neg (by omega), if_neg (by omega)]
    split <;> rfl
  rw [scanEscape, Cursor.head_eq ahead]
  simp only [show escapedChar? 'u' = none from rfl, show escapeWidth? 'u' = some 4 from rfl,
    digits, code.denotes, four, Nat.lt_irrefl, if_false, char]
  rw [Cursor.past, List.length_cons, four]
  rfl

theorem scanQuotedSpaces_row {spaces rest : List Char} {c : Char}
    (ahead : here.rest = spaces ++ c :: rest) (all : ∀ d ∈ spaces, d = ' ')
    (solid : c ≠ ' ' ∧ c ≠ '\t' ∧ isBreak c = false) :
    scanQuotedSpaces fuel here = .ok (spaces, here.past spaces) := by
  have after := Cursor.rest_past ahead
  have span : here.span (fun d => d == ' ' || d == '\t') = (spaces, here.past spaces) := by
    refine Cursor.span_past ahead (fun d member => ?_) ?_
    · rw [all d member]
      rfl
    · rintro _ ⟨⟩
      simp [solid.1, solid.2.1]
  have unbroken : (here.past spaces).lineBreak? = none := by
    refine Cursor.lineBreak?_of_solid ?_
    rw [after]
    rintro _ ⟨⟩
    exact solid.2.2
  rw [scanQuotedSpaces, span]
  simp only [Cursor.head_eq after, unbroken]
  rfl

end

def isSpacePiece : Piece → Bool
  | .plain c _ => c == ' '
  | _ => false

theorem text_of_isSpacePiece {pieces : List Piece}
    (all : ∀ piece ∈ pieces, isSpacePiece piece = true) :
    pieces.flatMap Piece.text = pieces.map Piece.char ∧ ∀ c ∈ pieces.map Piece.char, c = ' ' := by
  induction pieces with
  | nil => exact ⟨rfl, nofun⟩
  | cons piece pieces inner =>
    obtain ⟨first, all⟩ := List.forall_mem_cons.mp all
    obtain ⟨same, spaces⟩ := inner all
    cases piece with
    | plain c visible =>
      rw [List.flatMap_cons, same, List.map_cons, List.forall_mem_cons]
      exact ⟨rfl, beq_iff_eq.mp first, spaces⟩
    | short | unit | pair => cases first

theorem exists_text (piece : Piece) : ∃ c more, piece.text = c :: more ∧
    (c = '\\' ∨ more = [] ∧ ∃ visible, piece = .plain c visible) := by
  cases piece with
  | plain c visible => exact ⟨c, [], rfl, .inr ⟨rfl, visible, rfl⟩⟩
  | short | unit | pair => exact ⟨_, _, rfl, .inl rfl⟩

theorem eq_of_not_isQuotedPlain {c : Char} (visible : 0x1f < c.toNat ∧ c ≠ '"' ∧ c ≠ '\\')
    (unbroken : isBreak c = false) (other : isQuotedPlain c = false) : c = '\'' ∨ c = ' ' := by
  have noTab : c ≠ '\t' := by
    rintro rfl
    exact absurd visible.1 (by decide)
  rw [Decidable.or_iff_not_imp_left]
  simpa [isQuotedPlain, visible.2.1, visible.2.2, noTab, unbroken] using other

theorem exists_solid {pieces : List Piece} {rest : List Char}
    (first : ∀ piece ∈ pieces.head?, isSpacePiece piece = false)
    (unbroken : ∀ c ∈ pieces.flatMap Piece.text, isBreak c = false) :
    ∃ d tail, pieces.flatMap Piece.text ++ '"' :: rest = d :: tail ∧
      d ≠ ' ' ∧ d ≠ '\t' ∧ isBreak d = false := by
  cases pieces with
  | nil => exact ⟨'"', rest, rfl, by decide⟩
  | cons piece pieces =>
    obtain ⟨d, tail, text, kind⟩ := exists_text piece
    refine ⟨d, tail ++ (pieces.flatMap Piece.text ++ '"' :: rest), by simp [text], ?_⟩
    rcases kind with rfl | ⟨-, visible, rfl⟩
    · decide
    · refine ⟨?_, ?_, unbroken d (by simp [Piece.text])⟩
      · simpa [isSpacePiece] using first _ rfl
      · rintro rfl
        exact absurd visible.1 (by decide)

/-- Pieces that are passed over at once: an apostrophe, an escape, or a row of spaces. -/
def IsGroup (fuel : Nat) (there : Cursor) (group : List Piece) : Prop :=
  there.head = some '\'' ∧ group.map Piece.char = ['\''] ∧
      there.past (group.flatMap Piece.text) = there.next ∨
    there.head = some '\\' ∧ scanEscape fuel there.next =
      .ok (group.map Piece.char, there.past (group.flatMap Piece.text)) ∨
    there.head = some ' ' ∧ scanQuotedSpaces fuel there =
      .ok (group.map Piece.char, there.past (group.flatMap Piece.text))

theorem exists_group {there : Cursor} {piece : Piece} {more : List Piece} {rest : List Char}
    (fuel : Nat) (ahead : there.rest = (piece :: more).flatMap Piece.text ++ '"' :: rest)
    (single : IsSingle piece) (other : standsForItself piece = false)
    (unbroken : ∀ c ∈ (piece :: more).flatMap Piece.text, isBreak c = false) :
    ∃ group left, piece :: more = group ++ left ∧ 0 < (group.flatMap Piece.text).length ∧
      IsGroup fuel there group := by
  cases piece with
  | plain c visible =>
    have solid : isBreak c = false := unbroken c (List.mem_append_left _ List.mem_cons_self)
    have head : there.head = some c := Cursor.head_eq ahead
    rcases eq_of_not_isQuotedPlain visible solid other with rfl | rfl
    · exact ⟨[.plain '\'' visible], more, rfl, Nat.one_pos, .inl ⟨head, rfl, rfl⟩⟩
    · obtain ⟨spaces, left, rfl, blanks, next⟩ := exists_run isSpacePiece more
      obtain ⟨sameSpaces, space⟩ := text_of_isSpacePiece blanks
      obtain ⟨d, tail, ends, solid'⟩ := @exists_solid left rest next fun c member =>
        unbroken c (by simp [member])
      refine ⟨.plain ' ' visible :: spaces, left, rfl, by simp [Piece.text], .inr (.inr ⟨head, ?_⟩)⟩
      have row : there.rest = (' ' :: spaces.map Piece.char) ++ d :: tail := by
        rw [ahead, ← ends, ← sameSpaces]
        simp [Piece.text]
      have blank : ∀ c ∈ ' ' :: spaces.map Piece.char, c = ' ' :=
        List.forall_mem_cons.mpr ⟨rfl, space⟩
      rw [scanQuotedSpaces_row row blank solid', List.flatMap_cons, sameSpaces]
      rfl
  | short escape listed =>
    have behind : there.next.rest = escape.1 :: (more.flatMap Piece.text ++ '"' :: rest) :=
      (Cursor.next_cons ahead).1
    exact ⟨[.short escape listed], more, rfl, by simp [Piece.text],
      .inr (.inl ⟨Cursor.head_eq ahead, scanEscape_short listed behind⟩)⟩
  | unit code =>
    have behind : there.next.rest =
        'u' :: (code.digits ++ (more.flatMap Piece.text ++ '"' :: rest)) := by
      rw [← List.append_assoc]
      exact (Cursor.next_cons ahead).1
    refine ⟨[.unit code], more, rfl, by simp [Piece.text], .inr (.inl ⟨Cursor.head_eq ahead, ?_⟩)⟩
    rw [scanEscape_unit code behind, List.flatMap_singleton]
    rfl
  | pair => exact single.elim

theorem span_standsForItself {here : Cursor} {run more : List Piece} {rest : List Char}
    (all : ∀ piece ∈ run, standsForItself piece = true)
    (first : ∀ piece ∈ more.head?, standsForItself piece = false)
    (ahead : here.rest = run.map Piece.char ++ (more.flatMap Piece.text ++ '"' :: rest)) :
    here.span isQuotedPlain = (run.map Piece.char, here.past (run.map Piece.char)) := by
  refine Cursor.span_past ahead (text_of_standsForItself all).2 fun c head => ?_
  cases more with
  | nil =>
    cases head
    rfl
  | cons piece more =>
    obtain ⟨d, tail, text, kind⟩ := exists_text piece
    rw [List.flatMap_cons, text] at head
    cases head
    rcases kind with rfl | ⟨-, visible, rfl⟩
    · rfl
    · exact first _ rfl

theorem scanQuotedText_pieces {rest : List Char} (fuel : Nat) :
    ∀ (pieces : List Piece) (here : Cursor), (∀ piece ∈ pieces, IsSingle piece) →
      (∀ c ∈ pieces.flatMap Piece.text, isBreak c = false) →
      here.rest = pieces.flatMap Piece.text ++ '"' :: rest →
      (pieces.flatMap Piece.text).length < fuel →
        scanQuotedText true fuel here =
          .ok (pieces.map Piece.char, here.past (pieces.flatMap Piece.text ++ ['"'])) := by
  induction fuel with
  | zero => exact fun _ _ _ _ _ enough => absurd enough (Nat.not_lt_zero _)
  | succ fuel inner =>
    intro pieces here single unbroken ahead enough
    obtain ⟨run, more, rfl, all, first⟩ := exists_run standsForItself pieces
    have same := (text_of_standsForItself all).1
    have singleMore : ∀ piece ∈ more, IsSingle piece :=
      fun piece member => single piece (List.mem_append_right _ member)
    rw [List.flatMap_append, same] at ahead enough unbroken ⊢
    rw [List.append_assoc] at ahead
    have after := Cursor.rest_past ahead
    have span := span_standsForItself all first ahead
    cases more with
    | nil =>
      rw [scanQuotedText_close span (Cursor.head_eq after)]
      simp [Cursor.past_append, Cursor.past_cons, Cursor.past_nil]
    | cons piece more =>
      have unbrokenMore := fun c member => unbroken c (List.mem_append_right _ member)
      -- A group of pieces is passed over at once, and what is left is shorter.
      obtain ⟨group, left, parts, filled, found⟩ :=
        exists_group fuel after (singleMore piece List.mem_cons_self) (first piece rfl) unbrokenMore
      rw [parts] at singleMore after unbrokenMore enough ⊢
      rw [List.flatMap_append] at after unbrokenMore enough ⊢
      rw [List.append_assoc] at after
      have rest := inner left _
        (fun piece member => singleMore piece (List.mem_append_right _ member))
        (fun c member => unbrokenMore c (List.mem_append_right _ member))
        (Cursor.rest_past after) (by simp only [List.length_append] at enough; omega)
      rw [scanQuotedText_piece span found rest, List.map_append, List.map_append]
      simp only [List.append_assoc, Cursor.past_append]

def stringText (pieces : List Piece) : List Char :=
  (pieces.flatMap singles).map Piece.char

theorem scanQuotedText_quoted {pieces : List Piece} {rest : List Char} {here : Cursor} {fuel : Nat}
    (unbroken : ∀ c ∈ pieces.flatMap Piece.text, isBreak c = false)
    (ahead : here.rest = quoted pieces ++ rest) (enough : here.rest.length < fuel) :
    scanQuotedText true fuel here.next = .ok (stringText pieces, here.past (quoted pieces)) := by
  have text := flatMap_singles pieces
  have opened : here.rest = '"' :: ((pieces.flatMap singles).flatMap Piece.text ++ '"' :: rest) := by
    rw [ahead, quoted, text]
    simp
  rw [opened, List.length_cons, List.length_append] at enough
  have single : ∀ piece ∈ pieces.flatMap singles, IsSingle piece := by
    intro piece member
    obtain ⟨source, -, part⟩ := List.mem_flatMap.mp member
    exact isSingle_of_mem_singles part
  rw [scanQuotedText_pieces fuel _ here.next single (text ▸ unbroken)
    (Cursor.next_cons opened).1 (by omega), text]
  rfl

namespace ScanState

section

variable {bound depth : Nat} {ready : Bool} {s s' : ScanState} {gap rest : List Char}
  {tokens : List Token} {pieces : List Piece}

theorem Arrives.fetch_quoted (arrives : Arrives bound s s') (head : s'.here.head = some '"') :
    s.fetch bound = s'.fetchQuoted true bound := by
  unfold fetch
  rw [arrives.1]
  simp only [Except.bind, Bind.bind, arrives.2]
  simp [head]

/-- Whether a key of a given length may have begun before the last token, at this line. -/
def IsNoted (length : Nat) (s : ScanState) : Prop :=
  ∃ key, s.possible = (some key).filter (isFresh s.here) ∧ key.required = false ∧
    s.count = key.place + 1 ∧ s.here.index = key.index + length ∧ s.here.line = key.line

theorem scans_quoted (blank : ∀ c ∈ gap, Json.isSpace c = true)
    (unbroken : ∀ c ∈ pieces.flatMap Piece.text, isBreak c = false) :
    Scans bound (At bound ⟨gap ++ (quoted pieces ++ rest), tokens, depth, ready⟩) ('\t' ∉ gap)
      fun s => At bound ⟨rest, tokens ++ [.scalar false (stringText pieces)], depth, false⟩ s ∧
        (ready = true → IsNoted (quoted pieces).length s) := by
  have stops : Stops (quoted pieces ++ rest) := by
    rintro _ ⟨⟩
    decide
  refine scans_token blank stops fun s s' arrives there => ?_
  obtain ⟨slot, noted, free, known⟩ := there.noteKey
  have enough : s'.here.rest.length < bound := by
    rw [there.rest]
    exact there.room
  have text := scanQuotedText_quoted unbroken there.rest enough
  have after := there.pass (quoted pieces)
    (nofun : Token.scalar false (stringText pieces) ≠ .streamEnd) false free there.freeOuter
  rw [there.depth] at after
  refine ⟨_, _, ?_, after, ?_, after.fresh, fun may => ?_⟩
  · rw [arrives.fetch_quoted (Cursor.head_eq there.rest), fetchQuoted, noted]
    simp only [Except.bind, Bind.bind, text]
    rfl
  · simp only [quoted, List.length_append, List.length_cons]
    omega
  · rw [known (there.ready may)] at after ⊢
    refine ⟨_, rfl, rfl, rfl, Cursor.index_past there.rest, Cursor.line_past there.rest ?_⟩
    intro c member
    simp only [quoted, List.mem_cons, List.mem_append, List.not_mem_nil, or_false] at member
    rcases member with rfl | member | rfl
    · rfl
    · exact unbroken c member
    · rfl

theorem Arrives.fetch_value (arrives : Arrives bound s s') (head : s'.here.head = some ':')
    (flow : s'.inFlow = true) : s.fetch bound = s'.fetchValue := by
  unfold fetch
  rw [arrives.1]
  simp only [Except.bind, Bind.bind, arrives.2]
  simp [head, flow]

/-- Whether a colon behind blanks is close enough to a key of a given length: on the same line, and
at most 1024 characters from where the key began. -/
def IsNear (length : Nat) (gap : List Char) : Prop :=
  length + gap.length ≤ 1024 ∧ ∀ c ∈ gap, isBreak c = false

instance (length : Nat) (gap : List Char) : Decidable (IsNear length gap) :=
  inferInstanceAs (Decidable (_ ∧ _))

theorem filter_isFresh {here there : Cursor} {key : PossibleKey} {length : Nat}
    (ahead : here.rest = gap ++ ':' :: rest) (moved : there = here.past gap)
    (index : here.index = key.index + length) (line : here.line = key.line) :
    ((some key).filter (isFresh here)).filter (isFresh there) =
      if IsNear length gap then some key else none := by
  have indexThere := Cursor.index_past ahead
  rw [← moved] at indexThere
  by_cases near : IsNear length gap
  · have lineThere := Cursor.line_past ahead near.2
    rw [← moved] at lineThere
    have close := near.1
    have fresh : isFresh here key = true := by
      simp only [isFresh, line, beq_self_eq_true, Bool.true_and, decide_eq_true_eq]
      omega
    have freshToo : isFresh there key = true := by
      simp only [isFresh, lineThere, line, beq_self_eq_true, Bool.true_and, decide_eq_true_eq]
      omega
    rw [if_pos near, Option.filter_some_pos fresh, Option.filter_some_pos freshToo]
  · have stale : isFresh there key = false := by
      rw [isFresh, Bool.and_eq_false_iff]
      by_cases broken : ∃ c ∈ gap, isBreak c = true
      · left
        have later := Cursor.line_lt_past ahead (by simp) broken
        rw [← moved] at later
        exact beq_false_of_ne (by omega)
      · right
        have unbroken : ∀ c ∈ gap, isBreak c = false := by simpa using broken
        have far : ¬ length + gap.length ≤ 1024 := fun close => near ⟨close, unbroken⟩
        rw [decide_eq_false_iff_not]
        omega
    rw [if_neg near, Option.filter_some]
    split
    · exact Option.filter_some_neg stale
    · rfl

theorem At.insertKey {text : List Char} {scalar : Token} {key : PossibleKey}
    (there : At bound ⟨text, tokens ++ [scalar], depth, ready⟩ s)
    (place : s.count = key.place + 1) :
    At bound ⟨text, tokens ++ [.key, scalar], depth, ready⟩
      ({ s with possible := none }.insertAt key.place .key) :=
  { there with
    free := isOptional_none
    tokens := by
      have behind : s.count - key.place = 1 := by omega
      simp [insertAt, there.tokens, behind]
    unended := by
      have before := there.unended
      simp only [List.mem_append, List.mem_singleton, not_or] at before
      simp [before] }

theorem scans_colon {length : Nat} {scalar : Token} (blank : ∀ c ∈ gap, Json.isSpace c = true) :
    Scans bound (fun s => At bound ⟨gap ++ ':' :: rest, tokens ++ [scalar], depth + 1, ready⟩ s ∧
        IsNoted length s) ('\t' ∉ gap)
      (At bound ⟨rest, tokens ++ ((if IsNear length gap then [.key] else []) ++ [scalar, .value]),
        depth + 1, false⟩) := by
  have stops : Stops (':' :: rest) := by
    rintro _ ⟨⟩
    decide
  refine scans_token_of blank stops fun s s' before noted arrives there moved count held => ?_
  obtain ⟨key, possible, -, place, index, line⟩ := noted
  rw [possible, filter_isFresh before.rest moved index line] at held
  have flow : s'.inFlow = true := there.inFlow.mpr (Nat.succ_pos depth)
  have fetched := arrives.fetch_value (Cursor.head_eq there.rest) flow
  have solid : Token.value ≠ .streamEnd := nofun
  by_cases near : IsNear length gap
  · rw [if_pos near] at held ⊢
    have inserted := there.insertKey (count.trans place)
    have after := inserted.pass [':'] solid false isOptional_none there.freeOuter
    refine ⟨_, _, ?_, after, Nat.lt_succ_self _, ?_⟩
    · rw [fetched, fetchValue, held]
      have flow' : ({ s' with possible := none }.insertAt key.place .key).inFlow = true := flow
      simp only [flow', if_true]
      rfl
    · have ends := after.fresh
      rw [there.depth, List.append_assoc] at ends
      exact ends
  · rw [if_neg near] at held ⊢
    have after := there.pass [':'] solid false there.free there.freeOuter
    have value : s'.fetchValue =
        .ok (((s'.allowKey false).moveTo (s'.here.past [':'])).push .value) := by
      rw [fetchValue, held]
      simp only [flow, if_true, Bind.bind, Except.bind, Pure.pure, Except.pure, Bool.not_true]
      rfl
    refine ⟨_, _, fetched.trans value, after, Nat.lt_succ_self _, ?_⟩
    · have ends := after.fresh
      rw [there.depth, List.append_assoc] at ends
      exact ends

end

end ScanState

end ApiCatalog.Yaml
