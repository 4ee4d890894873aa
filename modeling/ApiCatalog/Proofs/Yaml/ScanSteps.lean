import ApiCatalog.Json.Reader
import ApiCatalog.Proofs.Yaml.CursorMoves
import ApiCatalog.Yaml.TokenStream

/-!
Steps of the scanner over flow collections. Here no key has to be one, so that keys are only given up;
the blanks before a token are passed over unless there is a tab among them.
-/

namespace ApiCatalog.Yaml

def Stops (text : List Char) : Prop :=
  ∀ c ∈ text.head?, c ≠ ' ' ∧ c ≠ '#' ∧ isBreak c = false

theorem spaces_cases {here : Cursor} {gap rest : List Char} (ahead : here.rest = gap ++ rest)
    (blank : ∀ c ∈ gap, c = ' ' ∨ c = '\n' ∨ c = '\r') (stops : Stops rest) :
    ∃ spaces, here.span (· == ' ') = (spaces, here.past spaces) ∧
      (here.past spaces).isAt '#' = false ∧
      (spaces = gap ∧ (here.past spaces).lineBreak? = none ∨
        ∃ there left, (here.past spaces).lineBreak? = some ('\n', there) ∧
          left.length < gap.length ∧ (∀ c ∈ left, c = ' ' ∨ c = '\n' ∨ c = '\r') ∧
          there.rest = left ++ rest ∧ there.past left = here.past gap) := by
  obtain ⟨spaces, more, rfl, space, ends⟩ := exists_run (· == ' ') gap
  rw [List.append_assoc] at ahead
  have after := Cursor.rest_past ahead
  cases more with
  | nil =>
    have span := Cursor.span_past ahead space fun c first => beq_false_of_ne (stops c first).1
    have noComment : (here.past spaces).isAt '#' = false := by
      rw [Cursor.isAt, Cursor.head, after]
      exact beq_false_of_ne fun first => (stops '#' first).2.1 rfl
    have solid : (here.past spaces).lineBreak? = none := by
      refine Cursor.lineBreak?_of_solid fun c first => ?_
      rw [after] at first
      exact (stops c first).2.2
    exact ⟨spaces, span, noComment, .inl ⟨(List.append_nil _).symm, solid⟩⟩
  | cons c more =>
    have breaks : c = '\n' ∨ c = '\r' := by
      refine (blank c (List.mem_append_right _ List.mem_cons_self)).resolve_left ?_
      rintro rfl
      exact absurd (ends ' ' rfl) (by decide)
    have span : here.span (· == ' ') = (spaces, here.past spaces) := by
      refine Cursor.span_past ahead space ?_
      rintro _ ⟨⟩
      exact ends c rfl
    have noComment : (here.past spaces).isAt '#' = false := by
      rw [Cursor.isAt, Cursor.head, after]
      rcases breaks with rfl | rfl <;> rfl
    have noFeed : rest.head? ≠ some '\n' := by
      intro first
      exact absurd (stops '\n' first).2.2 (by decide)
    obtain ⟨taken, left, parts, filled, found⟩ := Cursor.lineBreak?_of_break after breaks noFeed
    rw [parts] at blank ⊢
    rw [parts, List.append_assoc] at after
    refine ⟨spaces, span, noComment, .inr ⟨_, left, found, ?_, ?_, Cursor.rest_past after, ?_⟩⟩
    · have positive := List.length_pos_iff.mpr filled
      simp only [List.length_append]
      omega
    · exact fun d member => blank d (List.mem_append_right _ (List.mem_append_right _ member))
    · rw [Cursor.past_append, Cursor.past_append]

namespace ScanState

theorem toNextToken_past {rest : List Char} (stops : Stops rest) (fuel : Nat) :
    ∀ (gap : List Char) (s : ScanState), (∀ c ∈ gap, c = ' ' ∨ c = '\n' ∨ c = '\r') →
      s.here.rest = gap ++ rest → gap.length < fuel →
        ∃ allowed, toNextToken fuel s = (s.moveTo (s.here.past gap)).allowKey allowed ∧
          (s.keyAllowed = true → allowed = true) := by
  induction fuel with
  | zero => exact fun _ _ _ _ enough => absurd enough (Nat.not_lt_zero _)
  | succ fuel inner =>
    intro gap s blank ahead enough
    obtain ⟨spaces, span, noComment, behind⟩ := spaces_cases ahead blank stops
    have skipped : s.here.skipSpaces.skipComment = s.here.past spaces := by
      rw [Cursor.skipSpaces, Cursor.skip, span, Cursor.skipComment, noComment]
      rfl
    simp only [toNextToken, skipped]
    rcases behind with ⟨rfl, solid⟩ | ⟨there, left, found, shorter, blankLeft, next, reached⟩
    · rw [solid]
      exact ⟨s.keyAllowed, rfl, id⟩
    · rw [found]
      obtain ⟨allowed, done, keeps⟩ := inner left
        ((s.moveTo there).allowKey (s.keyAllowed || !s.inFlow)) blankLeft next (by omega)
      refine ⟨allowed, done.trans ?_, fun key => keeps (by simp [allowKey, key])⟩
      rw [← reached]
      rfl

/-! States in which no key has to be one. -/

def isFresh (here : Cursor) (key : PossibleKey) : Bool :=
  key.line == here.line && decide (here.index ≤ key.index + 1024)

def IsOptional (slot : Option PossibleKey) : Prop :=
  ∀ key ∈ slot, key.required = false

theorem IsOptional.filter {slot : Option PossibleKey} (free : IsOptional slot)
    (test : PossibleKey → Bool) : IsOptional (slot.filter test) :=
  fun key member => free key (Option.mem_filter_iff.mp member).1

theorem freshKey_of_isOptional {slot : Option PossibleKey} (free : IsOptional slot)
    (here : Cursor) : freshKey here slot = .ok (slot.filter (isFresh here)) := by
  cases slot with
  | none => rfl
  | some key =>
    rw [freshKey, free key rfl]
    by_cases near : isFresh here key = true
    · rw [Option.filter_some_pos near]
      exact if_pos near
    · rw [Option.filter_some_neg (Bool.eq_false_iff.mpr near)]
      exact (if_neg near).trans rfl

/-- A state that goes on, outside block collections, with possible keys that need not be keys. -/
structure Loose (s : ScanState) : Prop where
  running : s.done = false
  margin : s.indent = -1
  noBlocks : s.outerIndents = []
  free : IsOptional s.possible
  freeOuter : ∀ slot ∈ s.outerPossible, IsOptional slot

def fresh (s : ScanState) : ScanState :=
  { s with
    possible := s.possible.filter (isFresh s.here)
    outerPossible := s.outerPossible.map (Option.filter (isFresh s.here)) }

namespace Loose

variable {s : ScanState}

theorem dropStale (loose : Loose s) : s.dropStale = .ok s.fresh := by
  have outer : ∀ slots : List (Option PossibleKey), (∀ slot ∈ slots, IsOptional slot) →
      slots.mapM (freshKey s.here) = .ok (slots.map (Option.filter (isFresh s.here))) := by
    intro slots
    induction slots with
    | nil => exact fun _ => rfl
    | cons slot slots inner =>
      intro free
      obtain ⟨first, free⟩ := List.forall_mem_cons.mp free
      rw [List.mapM_cons, freshKey_of_isOptional first, inner free]
      rfl
  rw [ScanState.dropStale, outer _ loose.freeOuter, freshKey_of_isOptional loose.free]
  rfl

theorem fresh (loose : Loose s) : Loose s.fresh := by
  refine ⟨loose.running, loose.margin, loose.noBlocks, loose.free.filter _, ?_⟩
  intro slot member
  obtain ⟨before, held, rfl⟩ := List.mem_map.mp member
  exact (loose.freeOuter before held).filter _

theorem unwind (loose : Loose s) (column : Int) : s.unwind column = s := by
  have noBlocks := loose.noBlocks
  unfold ScanState.unwind
  split
  · rfl
  · rw [noBlocks, closeBlocks, ← noBlocks]

theorem dropKey (loose : Loose s) : s.dropKey = .ok { s with possible := none } := by
  have free := loose.free
  unfold ScanState.dropKey
  cases held : s.possible with
  | none =>
    cases s
    cases held
    rfl
  | some key =>
    rw [held] at free
    simp [free key rfl]

theorem noteKey (loose : Loose s) : ∃ slot, s.noteKey = .ok { s with possible := slot } ∧
    IsOptional slot ∧ (s.keyAllowed = true →
      slot = some ⟨s.count, false, s.here.index, s.here.line, s.here.column⟩) := by
  unfold ScanState.noteKey
  split
  case isFalse other => exact ⟨s.possible, rfl, loose.free, fun key => absurd key other⟩
  case isTrue =>
    have inward : (s.indent == (s.here.column : Int)) = false := by
      rw [loose.margin]
      exact beq_false_of_ne (by omega)
    rw [loose.dropKey]
    refine ⟨some ⟨s.count, false, s.here.index, s.here.line, s.here.column⟩, ?_, ?_, fun _ => rfl⟩
    · simp only [Except.bind, Bind.bind, inward, Bool.and_false]
      rfl
    · rintro _ ⟨⟩
      rfl

end Loose

/-! What a state has come to: the text left, the tokens so far, the flow collections around, and
whether a key may begin. -/

structure Position where
  rest : List Char
  tokens : List Token
  depth : Nat
  ready : Bool

structure At (bound : Nat) (p : Position) (s : ScanState) : Prop extends Loose s where
  rest : s.here.rest = p.rest
  tokens : s.reversed = p.tokens.reverse
  depth : s.outerPossible.length = p.depth
  ready : p.ready = true → s.keyAllowed = true
  unended : .streamEnd ∉ p.tokens
  room : p.rest.length < bound

section

variable {bound depth : Nat} {ready : Bool} {s s' : ScanState} {p q : Position}
  {gap rest : List Char} {tokens : List Token}

theorem At.fresh (at' : At bound p s) : At bound p s.fresh :=
  { at'.toLoose.fresh with
    rest := at'.rest
    tokens := at'.tokens
    depth := (List.length_map _).trans at'.depth
    ready := at'.ready
    unended := at'.unended
    room := at'.room }

theorem At.inFlow (at' : At bound p s) : s.inFlow = true ↔ 0 < p.depth := by
  rw [← at'.depth, List.length_pos_iff, ScanState.inFlow]
  simp

/-- A state at the next token of another: its keys are fresh, and there is no block to close. -/
def Arrives (bound : Nat) (s s' : ScanState) : Prop :=
  (toNextToken bound s).dropStale = .ok s' ∧ s'.unwind s'.here.column = s'

theorem At.arrives (at' : At bound ⟨gap ++ rest, tokens, depth, ready⟩ s)
    (blank : ∀ c ∈ gap, c = ' ' ∨ c = '\n' ∨ c = '\r') (stops : Stops rest) :
    ∃ s', Arrives bound s s' ∧ At bound ⟨rest, tokens, depth, ready⟩ s' ∧
      s'.here = s.here.past gap ∧ s'.count = s.count ∧
      s'.possible = s.possible.filter (isFresh s'.here) := by
  have room := at'.room
  rw [List.length_append] at room
  obtain ⟨allowed, reached, keeps⟩ := toNextToken_past stops bound gap s blank at'.rest (by omega)
  have moved : At bound ⟨rest, tokens, depth, ready⟩
      ((s.moveTo (s.here.past gap)).allowKey allowed) :=
    { running := at'.running
      margin := at'.margin
      noBlocks := at'.noBlocks
      free := at'.free
      freeOuter := at'.freeOuter
      rest := Cursor.rest_past at'.rest
      tokens := at'.tokens
      depth := at'.depth
      ready := fun may => keeps (at'.ready may)
      unended := at'.unended
      room := by dsimp only; omega }
  refine ⟨_, ⟨?_, moved.fresh.unwind _⟩, moved.fresh, rfl, rfl, rfl⟩
  rw [reached]
  exact moved.dropStale

/-! Runs of steps. -/

/-- A state that is reached in steps, each of which takes a character at least. -/
inductive Reaches (bound : Nat) : ScanState → ScanState → Prop
  | refl (s : ScanState) : Reaches bound s s
  | step {s s' s'' : ScanState} (running : s.done = false) (goes : s.step bound = .ok s')
    (shorter : s'.here.rest.length < s.here.rest.length) (more : Reaches bound s' s'') :
    Reaches bound s s''

theorem Reaches.trans {s s' s'' : ScanState} (first : Reaches bound s s')
    (second : Reaches bound s' s'') : Reaches bound s s'' := by
  induction first with
  | refl => exact second
  | step running goes shorter _ inner => exact .step running goes shorter (inner second)

def Fails (bound : Nat) (s : ScanState) : Prop :=
  ∃ s' failure, Reaches bound s s' ∧ s'.done = false ∧ .streamEnd ∉ s'.reversed ∧
    s'.step bound = .error failure

/-- Scanning from one kind of state to another if a condition holds, and to a failure otherwise. -/
def Scans (bound : Nat) (before : ScanState → Prop) (clear : Prop) (after : ScanState → Prop) :
    Prop :=
  ∀ s, before s → (clear → ∃ s', Reaches bound s s' ∧ after s') ∧ (¬ clear → Fails bound s)

theorem Scans.trans {before middle after : ScanState → Prop} {clear clear' : Prop}
    (first : Scans bound before clear middle) (second : Scans bound middle clear' after) :
    Scans bound before (clear ∧ clear') after := by
  intro s holds
  obtain ⟨goes, stops⟩ := first s holds
  by_cases free : clear
  · obtain ⟨s', reached, holds'⟩ := goes free
    obtain ⟨goes', stops'⟩ := second s' holds'
    refine ⟨fun both => ?_, fun other => ?_⟩
    · obtain ⟨s'', reached', ends⟩ := goes' both.2
      exact ⟨s'', reached.trans reached', ends⟩
    · obtain ⟨s'', failure, reached', fails⟩ := stops' fun free' => other ⟨free, free'⟩
      exact ⟨s'', failure, reached.trans reached', fails⟩
  · exact ⟨fun both => absurd both.1 free, fun _ => stops free⟩

theorem Scans.of_iff {before after : ScanState → Prop} {clear clear' : Prop}
    (scans : Scans bound before clear after) (same : clear ↔ clear') :
    Scans bound before clear' after :=
  propext same ▸ scans

theorem eq_of_isSpace {c : Char} (blank : Json.isSpace c = true) (solid : c ≠ '\t') :
    c = ' ' ∨ c = '\n' ∨ c = '\r' := by
  simp only [Json.isSpace, Bool.or_eq_true, beq_iff_eq, or_assoc] at blank
  exact blank.imp_right fun rest => rest.resolve_left solid

theorem At.fails_of_first_tab {more : List Char} (at' : At bound ⟨gap ++ '\t' :: more, tokens, depth, ready⟩ s)
    (blank : ∀ c ∈ gap, c = ' ' ∨ c = '\n' ∨ c = '\r') : Fails bound s := by
  have stops : Stops ('\t' :: more) := by
    rintro _ ⟨⟩
    decide
  obtain ⟨s', ⟨arrives, unwound⟩, there, -⟩ := at'.arrives blank stops
  have head := Cursor.head_eq there.rest
  refine ⟨s, .malformed, .refl s, at'.running, ?_, ?_⟩
  · rw [at'.tokens, List.mem_reverse]
    exact at'.unended
  · have error : s.fetch bound = .error .malformed := by
      unfold fetch
      rw [arrives]
      simp only [Except.bind, Bind.bind, unwound]
      simp [head, startsPlain, blankOrEnd]
    rw [step, error]
    rfl

theorem At.fails_of_tab (at' : At bound ⟨gap ++ rest, tokens, depth, ready⟩ s)
    (blank : ∀ c ∈ gap, Json.isSpace c = true) (tab : '\t' ∈ gap) : Fails bound s := by
  obtain ⟨front, more, rfl, solid, first⟩ := exists_run (· != '\t') gap
  have usual : ∀ c ∈ front, c = ' ' ∨ c = '\n' ∨ c = '\r' := fun c member =>
    eq_of_isSpace (blank c (List.mem_append_left _ member)) (by simpa using solid c member)
  cases more with
  | nil =>
    rw [List.append_nil] at tab
    simpa using solid '\t' tab
  | cons c more =>
    obtain rfl : c = '\t' := by simpa using first c rfl
    rw [List.append_assoc] at at'
    exact at'.fails_of_first_tab usual

theorem scans_token_of {known after : ScanState → Prop} (blank : ∀ c ∈ gap, Json.isSpace c = true)
    (stops : Stops rest)
    (does : ∀ s s', At bound ⟨gap ++ rest, tokens, depth, ready⟩ s → known s → Arrives bound s s' →
      At bound ⟨rest, tokens, depth, ready⟩ s' → s'.here = s.here.past gap → s'.count = s.count →
      s'.possible = s.possible.filter (isFresh s'.here) →
        ∃ s'' q, s.fetch bound = .ok s'' ∧ At bound q s'' ∧ q.rest.length < rest.length ∧
          after s''.fresh) :
    Scans bound (fun s => At bound ⟨gap ++ rest, tokens, depth, ready⟩ s ∧ known s) ('\t' ∉ gap)
      after := by
  rintro s ⟨at', more⟩
  refine ⟨fun clear => ?_, fun tab => ?_⟩
  · have usual : ∀ c ∈ gap, c = ' ' ∨ c = '\n' ∨ c = '\r' := fun c member =>
      eq_of_isSpace (blank c member) fun same => clear (same ▸ member)
    obtain ⟨s', arrives, there, moved, count, possible⟩ := at'.arrives usual stops
    obtain ⟨s'', q, fetched, ends, shorter, holds⟩ :=
      does s s' at' more arrives there moved count possible
    refine ⟨s''.fresh, .step at'.running ?_ ?_ (.refl _), holds⟩
    · rw [step, fetched]
      simp only [Except.bind, Bind.bind, ends.running, Bool.false_eq_true, if_false]
      exact ends.dropStale
    · rw [ends.fresh.rest, at'.rest, List.length_append]
      omega
  · exact at'.fails_of_tab blank (Decidable.not_not.mp tab)

theorem scans_token {after : ScanState → Prop} (blank : ∀ c ∈ gap, Json.isSpace c = true)
    (stops : Stops rest)
    (does : ∀ s s', Arrives bound s s' → At bound ⟨rest, tokens, depth, ready⟩ s' →
      ∃ s'' q, s.fetch bound = .ok s'' ∧ At bound q s'' ∧ q.rest.length < rest.length ∧
        after s''.fresh) :
    Scans bound (At bound ⟨gap ++ rest, tokens, depth, ready⟩) ('\t' ∉ gap) after := by
  have scans := @scans_token_of bound depth ready gap rest tokens (fun _ => True) after blank stops
    fun s s' _ _ arrives there _ _ _ => does s s' arrives there
  exact fun s at' => scans s ⟨at', trivial⟩

/-! The signs of flow collections. -/

section

variable {c : Char} {token : Token}

theorem Arrives.fetch_flowStart (arrives : Arrives bound s s') (head : s'.here.head = some c)
    (sign : c = '[' ∧ token = .flowSequenceStart ∨ c = '\x7b' ∧ token = .flowMappingStart) :
    s.fetch bound = s'.fetchFlowStart token := by
  unfold fetch
  rw [arrives.1]
  simp only [Except.bind, Bind.bind, arrives.2]
  rcases sign with ⟨rfl, rfl⟩ | ⟨rfl, rfl⟩ <;> simp [head]

theorem Arrives.fetch_flowEnd (arrives : Arrives bound s s') (head : s'.here.head = some c)
    (sign : c = ']' ∧ token = .flowSequenceEnd ∨ c = '\x7d' ∧ token = .flowMappingEnd) :
    s.fetch bound = s'.fetchFlowEnd token := by
  unfold fetch
  rw [arrives.1]
  simp only [Except.bind, Bind.bind, arrives.2]
  rcases sign with ⟨rfl, rfl⟩ | ⟨rfl, rfl⟩ <;> simp [head]

theorem Arrives.fetch_flowEntry (arrives : Arrives bound s s') (head : s'.here.head = some ',') :
    s.fetch bound = s'.fetchFlowEntry := by
  unfold fetch
  rw [arrives.1]
  simp only [Except.bind, Bind.bind, arrives.2]
  simp [head]

theorem At.pass (text : List Char) (at' : At bound ⟨text ++ rest, tokens, depth, ready⟩ s)
    (solid : token ≠ .streamEnd) (allowed : Bool) {possible : Option PossibleKey}
    {outer : List (Option PossibleKey)} (free : IsOptional possible)
    (freeOuter : ∀ slot ∈ outer, IsOptional slot) :
    At bound ⟨rest, tokens ++ [token], outer.length, allowed⟩
      { ((s.allowKey allowed).moveTo (s.here.past text)).push token with
        possible := possible, outerPossible := outer } :=
  { running := at'.running
    margin := at'.margin
    noBlocks := at'.noBlocks
    free := free
    freeOuter := freeOuter
    rest := Cursor.rest_past at'.rest
    tokens := by simp [push, allowKey, moveTo, at'.tokens]
    depth := rfl
    ready := id
    unended := by simpa [at'.unended] using solid.symm
    room := by
      have room := at'.room
      rw [List.length_append] at room
      dsimp only
      omega }

theorem isOptional_none : IsOptional none :=
  nofun

theorem scans_flowStart (blank : ∀ c ∈ gap, Json.isSpace c = true)
    (sign : c = '[' ∧ token = .flowSequenceStart ∨ c = '\x7b' ∧ token = .flowMappingStart) :
    Scans bound (At bound ⟨gap ++ c :: rest, tokens, depth, ready⟩) ('\t' ∉ gap)
      (At bound ⟨rest, tokens ++ [token], depth + 1, true⟩) := by
  have stops : Stops (c :: rest) := by
    rintro _ ⟨⟩
    rcases sign with ⟨rfl, -⟩ | ⟨rfl, -⟩ <;> decide
  have solid : token ≠ .streamEnd := by
    rcases sign with ⟨-, rfl⟩ | ⟨-, rfl⟩ <;> decide
  refine scans_token blank stops fun s s' arrives there => ?_
  obtain ⟨slot, noted, free, -⟩ := there.noteKey
  have outer : ∀ other ∈ slot :: s'.outerPossible, IsOptional other :=
    List.forall_mem_cons.mpr ⟨free, there.freeOuter⟩
  have after := At.pass [c] there solid true isOptional_none outer
  rw [List.length_cons, there.depth] at after
  refine ⟨_, _, ?_, after, Nat.lt_succ_self _, after.fresh⟩
  rw [arrives.fetch_flowStart (Cursor.head_eq there.rest) sign, fetchFlowStart, noted]
  rfl

theorem scans_flowEnd (blank : ∀ c ∈ gap, Json.isSpace c = true)
    (sign : c = ']' ∧ token = .flowSequenceEnd ∨ c = '\x7d' ∧ token = .flowMappingEnd) :
    Scans bound (At bound ⟨gap ++ c :: rest, tokens, depth + 1, ready⟩) ('\t' ∉ gap)
      (At bound ⟨rest, tokens ++ [token], depth, false⟩) := by
  have stops : Stops (c :: rest) := by
    rintro _ ⟨⟩
    rcases sign with ⟨rfl, -⟩ | ⟨rfl, -⟩ <;> decide
  have solid : token ≠ .streamEnd := by
    rcases sign with ⟨-, rfl⟩ | ⟨-, rfl⟩ <;> decide
  refine scans_token blank stops fun s s' arrives there => ?_
  have deep := there.depth
  obtain ⟨slot, outer, around⟩ : ∃ slot outer, s'.outerPossible = slot :: outer :=
    List.exists_cons_of_length_eq_add_one deep
  obtain ⟨free, freeOuter⟩ := List.forall_mem_cons.mp (around ▸ there.freeOuter)
  have after := At.pass [c] there solid false free freeOuter
  rw [around] at deep
  rw [Nat.succ.inj deep] at after
  refine ⟨_, _, ?_, after, Nat.lt_succ_self _, after.fresh⟩
  rw [arrives.fetch_flowEnd (Cursor.head_eq there.rest) sign, fetchFlowEnd, there.dropKey]
  simp only [Except.bind, Bind.bind, around]
  rfl

theorem scans_flowEntry (blank : ∀ c ∈ gap, Json.isSpace c = true) :
    Scans bound (At bound ⟨gap ++ ',' :: rest, tokens, depth, ready⟩) ('\t' ∉ gap)
      (At bound ⟨rest, tokens ++ [.flowEntry], depth, true⟩) := by
  have stops : Stops (',' :: rest) := by
    rintro _ ⟨⟩
    decide
  refine scans_token blank stops fun s s' arrives there => ?_
  have after := At.pass [','] there (nofun : Token.flowEntry ≠ .streamEnd) true isOptional_none
    there.freeOuter
  rw [there.depth] at after
  refine ⟨_, _, ?_, after, Nat.lt_succ_self _, after.fresh⟩
  have loose : Loose (s'.allowKey true) :=
    ⟨there.running, there.margin, there.noBlocks, there.free, there.freeOuter⟩
  rw [arrives.fetch_flowEntry (Cursor.head_eq there.rest), fetchFlowEntry, loose.dropKey]
  rfl

end

end

end ScanState

end ApiCatalog.Yaml
