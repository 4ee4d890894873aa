import ApiCatalog.Document.Fault

/-! A place in a YAML text: what is left of it, and the line and column where that begins. -/

namespace ApiCatalog.Yaml

inductive Failure
  | malformed
  | fault (fault : Fault)

structure Cursor where
  rest : List Char
  index : Nat
  line : Nat
  column : Nat

def isBreak (c : Char) : Bool :=
  c == '\n' || c == '\r' || c == '\x85' || c == '\u2028' || c == '\u2029'

def endsLine : Option Char → Bool
  | none => true
  | some c => isBreak c

def spaceOrEnd : Option Char → Bool
  | none => true
  | some c => c == ' ' || isBreak c

def blankOrEnd : Option Char → Bool
  | none => true
  | some c => c == ' ' || c == '\t' || isBreak c

def isNameChar (c : Char) : Bool :=
  c.isAlphanum || c == '-' || c == '_'

namespace Cursor

def start (text : List Char) : Cursor :=
  ⟨text, 0, 0, 0⟩

def peek (here : Cursor) (ahead : Nat) : Option Char :=
  here.rest[ahead]?

def head (here : Cursor) : Option Char :=
  here.rest.head?

def isAt (here : Cursor) (c : Char) : Bool :=
  here.head == some c

/-- The place behind the next character. A carriage return before a line feed does not end the
line, and a byte order mark takes no column. -/
def next (here : Cursor) : Cursor :=
  match here.rest with
  | [] => here
  | c :: rest =>
    if isBreak c && !(c == '\r' && rest.head? == some '\n') then
      ⟨rest, here.index + 1, here.line + 1, 0⟩
    else if c == '\uFEFF' then ⟨rest, here.index + 1, here.line, here.column⟩
    else ⟨rest, here.index + 1, here.line, here.column + 1⟩

def advance : Nat → Cursor → Cursor
  | 0, here => here
  | count + 1, here => advance count here.next

def span (test : Char → Bool) (here : Cursor) : List Char × Cursor :=
  let taken := here.rest.takeWhile test
  (taken, here.advance taken.length)

def skip (test : Char → Bool) (here : Cursor) : Cursor :=
  (here.span test).2

def skipSpaces (here : Cursor) : Cursor :=
  here.skip (· == ' ')

/-- A line break and the place behind it. The usual breaks all count as a line feed. -/
def lineBreak? (here : Cursor) : Option (Char × Cursor) :=
  match here.rest with
  | '\r' :: '\n' :: _ => some ('\n', here.advance 2)
  | c :: _ =>
    if c == '\n' || c == '\r' || c == '\x85' then some ('\n', here.next)
    else if c == '\u2028' || c == '\u2029' then some (c, here.next)
    else none
  | [] => none

def skipBreak (here : Cursor) : Cursor :=
  match here.lineBreak? with
  | some (_, there) => there
  | none => here

def skipComment (here : Cursor) : Cursor :=
  if here.isAt '#' then here.skip (fun c => !isBreak c) else here

def atSeparator (here : Cursor) : Bool :=
  (['-', '-', '-'].isPrefixOf here.rest || ['.', '.', '.'].isPrefixOf here.rest) &&
    blankOrEnd (here.peek 3)

end Cursor

end ApiCatalog.Yaml
