import ApiCatalog.Number.Integer
import ApiCatalog.Text.Escape
import ApiCatalog.Yaml.Cursor

/-! Tokens of YAML, and the reading of the simple ones among them. -/

namespace ApiCatalog.Yaml

inductive Directive
  | version (major : Nat)
  | tagHandle (handle lead : List Char)
  | other
deriving DecidableEq, Repr

inductive Token
  | streamEnd
  | directive (directive : Directive)
  | documentStart
  | documentEnd
  | blockSequenceStart
  | blockMappingStart
  | blockEnd
  | flowSequenceStart
  | flowSequenceEnd
  | flowMappingStart
  | flowMappingEnd
  | blockEntry
  | flowEntry
  | key
  | value
  | alias (name : List Char)
  | anchor (name : List Char)
  | tag (handle : Option (List Char)) (suffix : List Char)
  | scalar (plain : Bool) (text : List Char)
deriving DecidableEq, Repr

def scanName (here : Cursor) : Except Failure (List Char × Cursor) :=
  let (name, there) := here.span isNameChar
  let ends := match there.head with
    | none => true
    | some c => blankOrEnd (some c) || "?:,]\x7d%@".toList.contains c || c.toNat == 0x60
  if name.isEmpty || !ends then .error .malformed else .ok (name, there)

def isTagChar (c : Char) : Bool :=
  c.isAlphanum || "-;/?:@&=+$,_.!~*'()[]".toList.contains c

def scanEscapedBytes : Nat → Cursor → Except Failure (List UInt8 × Cursor)
  | 0, here => .ok ([], here)
  | fuel + 1, here =>
    match here.rest with
    | '%' :: a :: b :: _ => do
      match Text.hexNumber? [a, b] with
      | none => .error .malformed
      | some byte =>
        let (bytes, there) ← scanEscapedBytes fuel (here.advance 3)
        return (byte.toUInt8 :: bytes, there)
    | '%' :: _ => .error .malformed
    | _ => .ok ([], here)

def scanTagText : Nat → Cursor → Except Failure (List Char × Cursor)
  | 0, here => .ok ([], here)
  | fuel + 1, here => do
    let (plain, there) := here.span isTagChar
    if there.isAt '%' then
      let (bytes, there) ← scanEscapedBytes fuel there
      match Text.ofUtf8? bytes with
      | none => .error .malformed
      | some decoded =>
        let (more, there) ← scanTagText fuel there
        return (plain ++ decoded.toList ++ more, there)
    else return (plain, there)

def scanTagSuffix (fuel : Nat) (here : Cursor) : Except Failure (List Char × Cursor) := do
  let (suffix, there) ← scanTagText fuel here
  if there.index == here.index then .error .malformed else return (suffix, there)

def scanTagHandle (here : Cursor) : Except Failure (List Char × Cursor) :=
  if !here.isAt '!' then .error .malformed
  else if here.peek 1 == some ' ' then .ok (['!'], here.next)
  else
    let (name, there) := here.next.span isNameChar
    if there.isAt '!' then .ok ('!' :: name ++ ['!'], there.next) else .error .malformed

def hasSecondMark (text : List Char) : Bool :=
  (text.takeWhile fun c => !spaceOrEnd (some c)).contains '!'

def scanTag (fuel : Nat) (here : Cursor) : Except Failure (Token × Cursor) := do
  let (token, there) ←
    if here.peek 1 == some '<' then do
      let (suffix, there) ← scanTagSuffix fuel (here.advance 2)
      if there.isAt '>' then pure (Token.tag none suffix, there.next) else .error .malformed
    else if blankOrEnd (here.peek 1) then pure (Token.tag none ['!'], here.next)
    else do
      let (handle, there) ←
        if hasSecondMark here.next.rest then scanTagHandle here else pure (['!'], here.next)
      let (suffix, there) ← scanTagSuffix fuel there
      pure (Token.tag (some handle) suffix, there)
  if spaceOrEnd there.head then return (token, there) else .error .malformed

def scanVersionNumber (ends : Option Char → Bool) (here : Cursor) :
    Except Failure (Nat × Cursor) :=
  let (digits, there) := here.span Char.isDigit
  if digits.isEmpty then .error .malformed
  else if Number.digitLimit < digits.length then .error (.fault .noValue)
  else if !ends there.head then .error .malformed
  else .ok (Number.ofDigits digits, there)

def scanLineRest (here : Cursor) : Except Failure Cursor :=
  let there := here.skipSpaces.skipComment
  if endsLine there.head then .ok there.skipBreak else .error .malformed

def scanDirective (fuel : Nat) (here : Cursor) : Except Failure (Token × Cursor) := do
  let (name, there) := here.next.span isNameChar
  if name.isEmpty || !spaceOrEnd there.head then .error .malformed
  else if name = "YAML".toList then
    let (major, there) ← scanVersionNumber (· == some '.') there.skipSpaces
    let (_, there) ← scanVersionNumber spaceOrEnd there.next
    return (.directive (.version major), ← scanLineRest there)
  else if name = "TAG".toList then
    let (handle, there) ← scanTagHandle there.skipSpaces
    if !there.isAt ' ' then .error .malformed
    else
      let (lead, there) ← scanTagSuffix fuel there.skipSpaces
      if spaceOrEnd there.head then
        return (.directive (.tagHandle handle lead), ← scanLineRest there)
      else .error .malformed
  else return (.directive .other, ← scanLineRest (there.skip fun c => !isBreak c))

end ApiCatalog.Yaml
