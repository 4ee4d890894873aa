import ApiCatalog.Yaml.ScalarText

/-!
The tokens of a YAML text. Indentation opens and closes block collections. A scalar or a flow
collection may turn out to be a key when a colon follows it on the same line; the key token is then
put before it.
-/

namespace ApiCatalog.Yaml

structure PossibleKey where
  /-- How many tokens stand before it. -/
  place : Nat
  /-- Whether the text is in error unless this is a key. -/
  required : Bool
  index : Nat
  line : Nat
  column : Nat

structure ScanState where
  here : Cursor
  /-- The tokens so far, the last one first. -/
  reversed : List Token
  count : Nat
  /-- The column of the innermost block collection. -/
  indent : Int
  outerIndents : List Int
  /-- Whether a key may begin here. -/
  keyAllowed : Bool
  /-- The possible key of the innermost flow collection. -/
  possible : Option PossibleKey
  /-- The possible keys of the collections around it, innermost first. -/
  outerPossible : List (Option PossibleKey)
  done : Bool

namespace ScanState

def start (text : List Char) : ScanState :=
  ⟨.start text, [], 0, -1, [], true, none, [], false⟩

def inFlow (s : ScanState) : Bool :=
  !s.outerPossible.isEmpty

def push (s : ScanState) (token : Token) : ScanState :=
  { s with reversed := token :: s.reversed, count := s.count + 1 }

def insertAt (s : ScanState) (place : Nat) (token : Token) : ScanState :=
  { s with
    reversed := s.reversed.insertIdx (s.count - place) token
    count := s.count + 1 }

def moveTo (s : ScanState) (there : Cursor) : ScanState :=
  { s with here := there }

def allowKey (s : ScanState) (allowed : Bool) : ScanState :=
  { s with keyAllowed := allowed }

def indentTo (s : ScanState) (column : Nat) : ScanState × Bool :=
  if s.indent < (column : Int) then
    ({ s with indent := (column : Int), outerIndents := s.indent :: s.outerIndents }, true)
  else (s, false)

def closeBlocks (column : Int) (indent : Int) (s : ScanState) : List Int → ScanState
  | [] => { s with indent := indent, outerIndents := [] }
  | outer :: more =>
    if column < indent then closeBlocks column outer (s.push .blockEnd) more
    else { s with indent := indent, outerIndents := outer :: more }

def unwind (s : ScanState) (column : Int) : ScanState :=
  if s.inFlow then s else closeBlocks column s.indent s s.outerIndents

def dropKey (s : ScanState) : Except Failure ScanState :=
  match s.possible with
  | none => .ok s
  | some key => if key.required then .error .malformed else .ok { s with possible := none }

def noteKey (s : ScanState) : Except Failure ScanState :=
  if s.keyAllowed then do
    let s ← s.dropKey
    return { s with
      -- At the column of a block collection nothing but a key can begin.
      possible := some ⟨s.count, !s.inFlow && s.indent == (s.here.column : Int), s.here.index,
        s.here.line, s.here.column⟩ }
  else .ok s

def freshKey (here : Cursor) : Option PossibleKey → Except Failure (Option PossibleKey)
  | none => .ok none
  | some key =>
    if key.line == here.line && decide (here.index ≤ key.index + 1024) then .ok (some key)
    else if key.required then .error .malformed
    else .ok none

def dropStale (s : ScanState) : Except Failure ScanState := do
  let outer ← s.outerPossible.mapM (freshKey s.here)
  let possible ← freshKey s.here s.possible
  return { s with possible := possible, outerPossible := outer }

/-- The place of the next token: behind spaces, comments and line breaks. A break outside flow
collections allows a key. -/
def toNextToken : Nat → ScanState → ScanState
  | 0, s => s
  | fuel + 1, s =>
    let there := s.here.skipSpaces.skipComment
    match there.lineBreak? with
    | none => s.moveTo there
    | some (_, there) => toNextToken fuel ((s.moveTo there).allowKey (s.keyAllowed || !s.inFlow))

def fetchEnd (s : ScanState) : Except Failure ScanState := do
  let s ← (s.unwind (-1)).dropKey
  return { (s.allowKey false).push .streamEnd with done := true }

def fetchDirective (fuel : Nat) (s : ScanState) : Except Failure ScanState := do
  let s ← (s.unwind (-1)).dropKey
  let (token, there) ← scanDirective fuel s.here
  return ((s.allowKey false).moveTo there).push token

def fetchSeparator (token : Token) (s : ScanState) : Except Failure ScanState := do
  let s ← (s.unwind (-1)).dropKey
  return ((s.allowKey false).moveTo (s.here.advance 3)).push token

def fetchFlowStart (token : Token) (s : ScanState) : Except Failure ScanState := do
  let s ← s.noteKey
  return { ((s.allowKey true).moveTo s.here.next).push token with
    possible := none, outerPossible := s.possible :: s.outerPossible }

def fetchFlowEnd (token : Token) (s : ScanState) : Except Failure ScanState := do
  let s ← s.dropKey
  match s.outerPossible with
  | [] => .error .malformed
  | possible :: outer =>
    return { ((s.allowKey false).moveTo s.here.next).push token with
      possible := possible, outerPossible := outer }

def fetchFlowEntry (s : ScanState) : Except Failure ScanState := do
  let s ← (s.allowKey true).dropKey
  return (s.moveTo s.here.next).push .flowEntry

def openBlock (token : Token) (s : ScanState) : ScanState :=
  let (indented, opened) := s.indentTo s.here.column
  if opened then indented.push token else s

def fetchBlockEntry (s : ScanState) : Except Failure ScanState := do
  let s ←
    if s.inFlow then pure s
    else if s.keyAllowed then pure (s.openBlock .blockSequenceStart)
    else .error .malformed
  let s ← (s.allowKey true).dropKey
  return (s.moveTo s.here.next).push .blockEntry

def fetchKey (s : ScanState) : Except Failure ScanState := do
  let s ←
    if s.inFlow then pure s
    else if s.keyAllowed then pure (s.openBlock .blockMappingStart)
    else .error .malformed
  let s ← (s.allowKey !s.inFlow).dropKey
  return (s.moveTo s.here.next).push .key

/-- The colon before a value. It makes a key of what may be one, or else follows a key of its
own. -/
def fetchValue (s : ScanState) : Except Failure ScanState := do
  match s.possible with
  | some key =>
    -- What stands at the place was a key after all, and a mapping begins there if none is open.
    let s := { s with possible := none }.insertAt key.place .key
    let s :=
      if s.inFlow then s
      else
        let (indented, opened) := s.indentTo key.column
        if opened then indented.insertAt key.place .blockMappingStart else s
    return ((s.allowKey false).moveTo s.here.next).push .value
  | none =>
    let s ←
      if s.inFlow then pure s
      else if s.keyAllowed then pure (s.openBlock .blockMappingStart)
      else .error .malformed
    return ((s.allowKey !s.inFlow).moveTo s.here.next).push .value

def fetchName (token : List Char → Token) (s : ScanState) : Except Failure ScanState := do
  let s ← s.noteKey
  let (name, there) ← scanName s.here.next
  return ((s.allowKey false).moveTo there).push (token name)

def fetchTag (fuel : Nat) (s : ScanState) : Except Failure ScanState := do
  let s ← s.noteKey
  let (token, there) ← scanTag fuel s.here
  return ((s.allowKey false).moveTo there).push token

def fetchBlockScalar (folded : Bool) (fuel : Nat) (s : ScanState) :
    Except Failure ScanState := do
  let s ← (s.allowKey true).dropKey
  let (text, there) ← scanBlockText folded s.indent fuel s.here.next
  return (s.moveTo there).push (.scalar false text)

def fetchQuoted (double : Bool) (fuel : Nat) (s : ScanState) : Except Failure ScanState := do
  let s ← s.noteKey
  let (text, there) ← scanQuotedText double fuel s.here.next
  return ((s.allowKey false).moveTo there).push (.scalar false text)

def fetchPlain (fuel : Nat) (s : ScanState) : Except Failure ScanState := do
  let s ← s.noteKey
  let (text, there, broken) := scanPlainText s.inFlow (s.indent + 1) [] false fuel s.here
  return ((s.allowKey broken).moveTo there).push (.scalar true text)

def fetch (fuel : Nat) (s : ScanState) : Except Failure ScanState := do
  let s ← (toNextToken fuel s).dropStale
  let s := s.unwind s.here.column
  let here := s.here
  let atMargin := here.column == 0
  match here.head with
  | none => s.fetchEnd
  | some c =>
    if c == '%' && atMargin then s.fetchDirective fuel
    else if c == '-' && atMargin && here.atSeparator then s.fetchSeparator .documentStart
    else if c == '.' && atMargin && here.atSeparator then s.fetchSeparator .documentEnd
    else if c == '[' then s.fetchFlowStart .flowSequenceStart
    else if c == '\x7b' then s.fetchFlowStart .flowMappingStart
    else if c == ']' then s.fetchFlowEnd .flowSequenceEnd
    else if c == '\x7d' then s.fetchFlowEnd .flowMappingEnd
    else if c == ',' then s.fetchFlowEntry
    else if c == '-' && blankOrEnd (here.peek 1) then s.fetchBlockEntry
    else if c == '?' && (s.inFlow || blankOrEnd (here.peek 1)) then s.fetchKey
    else if c == ':' && (s.inFlow || blankOrEnd (here.peek 1)) then s.fetchValue
    else if c == '*' then s.fetchName .alias
    else if c == '&' then s.fetchName .anchor
    else if c == '!' then s.fetchTag fuel
    else if c == '|' && !s.inFlow then s.fetchBlockScalar false fuel
    else if c == '>' && !s.inFlow then s.fetchBlockScalar true fuel
    else if c == '\'' then s.fetchQuoted false fuel
    else if c == '"' then s.fetchQuoted true fuel
    else if startsPlain s.inFlow here then s.fetchPlain fuel
    else .error .malformed

/-- How many tokens can be handed on. In front of a possible key another token may still go. -/
def settled (s : ScanState) : Nat :=
  let keys := (s.possible :: s.outerPossible).filterMap id
  keys.foldl (fun least key => min least key.place) s.count

def step (bound : Nat) (s : ScanState) : Except Failure ScanState := do
  let s ← s.fetch bound
  if s.done then return s else s.dropStale

/-- All further tokens in order, and why they end if they do not end with the text. A failure comes
before the tokens that are not settled. -/
def run (bound : Nat) : Nat → ScanState → List Token × Option Failure
  | 0, s => (s.reversed.reverse, some .malformed)
  | fuel + 1, s =>
    if s.done then (s.reversed.reverse, none)
    else
      match s.step bound with
      | .ok s => run bound fuel s
      | .error failure => (s.reversed.reverse.take s.settled, some failure)

end ScanState

def tokensOf (text : List Char) : List Token × Option Failure :=
  -- Every step but the last takes a character.
  let bound := text.length + 2
  let state := ScanState.start text
  let state := if state.here.isAt '\uFEFF' then state.moveTo state.here.next else state
  state.run bound bound

end ApiCatalog.Yaml
