import ApiCatalog.Yaml.Token

/-!
The texts of scalars: plain, quoted, and in blocks. Line breaks inside a scalar are folded: one
break becomes a space, and of several the first is left out. An escape for half of a surrogate pair
is read as U+FFFD, even where two halves make a pair; different halves become the same, and so do
keys that differ in nothing else.
-/

namespace ApiCatalog.Yaml

def scanBreaks (isBlank : Char → Bool) (mayFollow : Cursor → Bool) :
    Nat → Cursor → Option (List Char × Cursor)
  | 0, here => some ([], here)
  | fuel + 1, here =>
    let there := here.skip isBlank
    match there.lineBreak? with
    | none => some ([], there)
    | some (c, there) =>
      if mayFollow there then
        (scanBreaks isBlank mayFollow fuel there).map fun (more, last) => (c :: more, last)
      else none

def foldBreaks (first : Char) (more : List Char) : List Char :=
  if first != '\n' then first :: more else if more.isEmpty then [' '] else more

/-! Quoted scalars. -/

def isQuotedPlain (c : Char) : Bool :=
  !(c == '\'' || c == '"' || c == '\\' || c == ' ' || c == '\t' || isBreak c)

def escapedChar? (c : Char) : Option Char :=
  match c with
  | '0' => some '\x00'
  | 'a' => some '\x07'
  | 'b' => some '\x08'
  | 't' => some '\t'
  | '\t' => some '\t'
  | 'n' => some '\n'
  | 'v' => some '\x0b'
  | 'f' => some '\x0c'
  | 'r' => some '\r'
  | 'e' => some '\x1b'
  | ' ' => some ' '
  | '"' => some '"'
  | '\\' => some '\\'
  | '/' => some '/'
  | 'N' => some '\x85'
  | '_' => some '\xa0'
  | 'L' => some '\u2028'
  | 'P' => some '\u2029'
  | _ => none

def escapeWidth? (c : Char) : Option Nat :=
  match c with
  | 'x' => some 2
  | 'u' => some 4
  | 'U' => some 8
  | _ => none

/-- The character of a number; half of a pair has no character of its own. -/
def numberedChar (point : Nat) : Except Failure Char :=
  if 0x7FFFFFFF < point then .error (.fault .overflow)
  else if 0x10FFFF < point then .error (.fault .noValue)
  else if 0xD800 ≤ point ∧ point ≤ 0xDFFF then .ok '\uFFFD'
  else .ok (Char.ofNat point)

def scanQuotedBreaks (fuel : Nat) (here : Cursor) : Except Failure (List Char × Cursor) :=
  if here.atSeparator then .error .malformed
  else
    let isMargin (c : Char) := c == ' ' || c == '\t'
    match scanBreaks isMargin (fun there => !there.atSeparator) fuel here with
    | none => .error .malformed
    | some found => .ok found

def scanEscape (fuel : Nat) (here : Cursor) : Except Failure (List Char × Cursor) :=
  match here.head with
  | none => .error .malformed
  | some c =>
    match escapedChar? c, escapeWidth? c with
    | some escaped, _ => .ok ([escaped], here.next)
    | none, some width =>
      let digits := here.next.rest.take width
      match Text.hexNumber? digits with
      | none => .error .malformed
      | some point =>
        if digits.length < width then .error .malformed
        else do return ([← numberedChar point], here.advance (width + 1))
    | none, none =>
      if isBreak c then scanQuotedBreaks fuel here.skipBreak else .error .malformed

def scanQuotedSpaces (fuel : Nat) (here : Cursor) : Except Failure (List Char × Cursor) := do
  let (blanks, there) := here.span fun c => c == ' ' || c == '\t'
  match there.head, there.lineBreak? with
  | none, _ => .error .malformed
  | some _, none => return (blanks, there)
  | some _, some (first, there) =>
    let (more, there) ← scanQuotedBreaks fuel there
    return (foldBreaks first more, there)

def scanQuotedText (double : Bool) : Nat → Cursor → Except Failure (List Char × Cursor)
  | 0, _ => .error .malformed
  | fuel + 1, here => do
    let (plain, there) := here.span isQuotedPlain
    let (piece, there, closed) ←
      match there.head with
      | some '\'' =>
        if double then pure (['\''], there.next, false)
        -- Between single quotes, two of them stand for one.
        else if there.peek 1 == some '\'' then pure (['\''], there.advance 2, false)
        else pure ([], there.next, true)
      | some '"' => if double then pure ([], there.next, true) else pure (['"'], there.next, false)
      | some '\\' =>
        if double then do
          let (escaped, there) ← scanEscape fuel there.next
          pure (escaped, there, false)
        else pure (['\\'], there.next, false)
      | _ => do
        let (spaces, there) ← scanQuotedSpaces fuel there
        pure (spaces, there, false)
    if closed then return (plain, there)
    else
      let (more, there) ← scanQuotedText double fuel there
      return (plain ++ piece ++ more, there)

/-! Plain scalars. -/

def startsPlain (flow : Bool) (here : Cursor) : Bool :=
  match here.head with
  | none => false
  | some c =>
    if blankOrEnd (some c) || c.toNat == 0x60 then false
    else if "?:,[]\x7b\x7d-#&*!|>'\"%@".toList.contains c then
      !blankOrEnd (here.peek 1) && (c == '-' || (!flow && (c == '?' || c == ':')))
    else true

/-- A stretch of a plain scalar without blanks: up to a blank, to a colon that ends a key, and in
a flow collection to one of its signs. -/
def plainStretch (flow : Bool) : List Char → List Char
  | [] => []
  | c :: rest =>
    let follows := rest.head?
    let endsKey := c == ':' &&
      (blankOrEnd follows || (flow && follows.any ",[]\x7b\x7d".toList.contains))
    if blankOrEnd (some c) || endsKey || (flow && ",?[]\x7b\x7d".toList.contains c) then []
    else c :: plainStretch flow rest

/-- The blanks between two stretches of a plain scalar, and whether they break the line; none if
the scalar ends here. -/
def scanPlainSpaces (fuel : Nat) (here : Cursor) : List Char × Cursor × Bool :=
  let (blanks, there) := here.span (· == ' ')
  match there.lineBreak? with
  | none => (blanks, there, false)
  | some (first, there) =>
    if there.atSeparator then ([], there, true)
    else
      match scanBreaks (· == ' ') (fun place => !place.atSeparator) fuel there with
      | none => ([], there, true)
      | some (more, there) => (foldBreaks first more, there, true)

/-- The text of a plain scalar, the place behind it, and whether it ends with a line break; the
blanks before the first stretch are given. `indent` is the least column of its further lines. -/
def scanPlainText (flow : Bool) (indent : Int) (before : List Char) (broken : Bool) :
    Nat → Cursor → List Char × Cursor × Bool
  | 0, here => ([], here, broken)
  | fuel + 1, here =>
    let stretch := plainStretch flow here.rest
    if here.isAt '#' || stretch.isEmpty then ([], here, broken)
    else
      let (spaces, there, broken) := scanPlainSpaces fuel (here.advance stretch.length)
      -- Where no blank follows, the stretch ended at a colon, at a sign or with the text.
      if spaces.isEmpty || there.isAt '#' || (!flow && decide ((there.column : Int) < indent)) then
        (before ++ stretch, there, broken)
      else
        let (more, there, broken) := scanPlainText flow indent spaces broken fuel there
        (before ++ stretch ++ more, there, broken)

/-! Block scalars. -/

inductive Chomping
  | strip
  | clip
  | keep
deriving DecidableEq, Repr

def scanIncrement? (here : Cursor) : Except Failure (Option Nat × Cursor) :=
  match here.head with
  | some c =>
    if c == '0' then .error .malformed
    else if c.isDigit then .ok (some (c.toNat - 48), here.next)
    else .ok (none, here)
  | none => .ok (none, here)

def scanChomping? (here : Cursor) : Option Chomping × Cursor :=
  match here.head with
  | some '+' => (some .keep, here.next)
  | some '-' => (some .strip, here.next)
  | _ => (none, here)

def scanBlockHead (here : Cursor) : Except Failure (Chomping × Option Nat × Cursor) := do
  let (sign, there) := scanChomping? here
  let (increment, there) ← scanIncrement? there
  let (sign, there) := match sign, increment with
    | none, some _ => scanChomping? there
    | _, _ => (sign, there)
  if spaceOrEnd there.head then
    return (sign.getD .clip, increment, ← scanLineRest there)
  else .error .malformed

def skipToColumn (column : Nat) (here : Cursor) : Cursor :=
  let spaces := (here.rest.takeWhile (· == ' ')).length
  here.advance (min spaces (column - here.column))

def scanBlockBreaks (indent : Nat) : Nat → Cursor → List Char × Cursor
  | 0, here => ([], here)
  | fuel + 1, here =>
    let there := skipToColumn indent here
    match there.lineBreak? with
    | none => ([], there)
    | some (c, there) =>
      let (more, there) := scanBlockBreaks indent fuel there
      (c :: more, there)

def scanBlockIndent (widest : Nat) : Nat → Cursor → List Char × Nat × Cursor
  | 0, here => ([], widest, here)
  | fuel + 1, here =>
    let there := here.skipSpaces
    let widest := max widest there.column
    match there.lineBreak? with
    | none => ([], widest, there)
    | some (c, there) =>
      let (more, widest, there) := scanBlockIndent widest fuel there
      (c :: more, widest, there)

/-- The lines of a block scalar: each with the empty lines before it and its own break, then the
last break and the empty lines behind. -/
def scanBlockLines (folded : Bool) (indent : Nat) (breaks : List Char) :
    Nat → Cursor → List Char × List Char × List Char × Cursor
  | 0, here => ([], [], breaks, here)
  | fuel + 1, here =>
    if here.column != indent || here.rest.isEmpty then ([], [], breaks, here)
    else
      let startsDeep := here.isAt ' ' || here.isAt '\t'
      let (line, there) := here.span fun c => !isBreak c
      let (ending, there) := match there.lineBreak? with
        | some (c, there) => ([c], there)
        | none => ([], there)
      let (following, there) := scanBlockBreaks indent fuel there
      if there.column == indent && !there.rest.isEmpty then
        let nextDeep := there.isAt ' ' || there.isAt '\t'
        -- Between two lines that begin at the margin a single break becomes a space; before empty
        -- lines it is left out.
        let joint :=
          if folded && ending == ['\n'] && !startsDeep && !nextDeep then
            (if following.isEmpty then [' '] else [])
          else ending
        let (more, last, tail, there) := scanBlockLines folded indent following fuel there
        (breaks ++ line ++ joint ++ more, last, tail, there)
      else (breaks ++ line, ending, following, there)

def scanBlockText (folded : Bool) (outer : Int) (fuel : Nat) (here : Cursor) :
    Except Failure (List Char × Cursor) := do
  let (chomping, increment, there) ← scanBlockHead here
  let least := max 1 (outer + 1).toNat
  let (breaks, indent, there) := match increment with
    | none =>
      let (breaks, widest, there) := scanBlockIndent 0 fuel there
      (breaks, max least widest, there)
    | some more =>
      -- A written indentation counts from the collection around the scalar.
      let indent := least + more - 1
      let (breaks, there) := scanBlockBreaks indent fuel there
      (breaks, indent, there)
  let (text, last, tail, there) := scanBlockLines folded indent breaks fuel there
  return (text ++ (if chomping == .strip then [] else last) ++
    (if chomping == .keep then tail else []), there)

end ApiCatalog.Yaml
