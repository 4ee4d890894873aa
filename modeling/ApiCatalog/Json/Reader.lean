import ApiCatalog.Json.Basic
import ApiCatalog.Number.Literal
import ApiCatalog.Text.Escape

/-!
Reading JSON. Every reader takes the text that is left and returns a value and the text behind it;
a failure keeps the text at the place of the mistake. The constants for infinities and
not-a-number are read as well. Half of a surrogate pair is no character of a text and is read as
U+FFFD, so different halves become the same, and so do keys that differ in nothing else.
-/

namespace ApiCatalog.Json

/-- Why reading stopped: a mistake at the head of the text that is left, or a whole number with
more digits than numbers may have. -/
inductive ReadFault
  | mistake (what : Mistake) (left : List Char)
  | numberTooLong

abbrev Reading (α : Type) := Except ReadFault α

def isSpace (c : Char) : Bool :=
  c == ' ' || c == '\t' || c == '\n' || c == '\r'

def skipSpace (text : List Char) : List Char :=
  text.dropWhile isSpace

def loneHalf : Char := '\uFFFD'

def unitChar (point : Nat) : Char :=
  if 0xD800 ≤ point ∧ point ≤ 0xDFFF then loneHalf else Char.ofNat point

/-- The escape behind `\u`: four digits and at least one more character. Two such escapes may form
a pair. -/
def readUnicode (text : List Char) : Reading (Char × List Char) :=
  match text with
  | a :: b :: c :: d :: e :: rest =>
    match Text.hexNumber? [a, b, c, d] with
    | none => .error (.mistake .badUnicodeEscape ('u' :: text))
    | some high =>
      -- The second half counts only if a further character follows it.
      if 0xD800 ≤ high ∧ high ≤ 0xDBFF then
        match e :: rest with
        | '\\' :: 'u' :: a :: b :: c :: d :: e' :: rest' =>
          match Text.hexNumber? [a, b, c, d] with
          | none => .error (.mistake .badUnicodeEscape ('u' :: a :: b :: c :: d :: e' :: rest'))
          | some low =>
            if 0xDC00 ≤ low ∧ low ≤ 0xDFFF then
              .ok (Char.ofNat (0x10000 + (high - 0xD800) * 1024 + (low - 0xDC00)), e' :: rest')
            else .ok (loneHalf, e :: rest)
        | _ => .ok (loneHalf, e :: rest)
      else .ok (unitChar high, e :: rest)
  | _ => .error (.mistake .badUnicodeEscape ('u' :: text))

/-- The escape behind a backslash; `opening` is the text from the opening quote on. -/
def readEscape (opening text : List Char) : Reading (Char × List Char) :=
  match text with
  | [] => .error (.mistake .unterminatedString opening)
  | 'u' :: rest => readUnicode rest
  | '"' :: rest => .ok ('"', rest)
  | '\\' :: rest => .ok ('\\', rest)
  | '/' :: rest => .ok ('/', rest)
  | 'b' :: rest => .ok ('\x08', rest)
  | 'f' :: rest => .ok ('\x0c', rest)
  | 'n' :: rest => .ok ('\n', rest)
  | 'r' :: rest => .ok ('\r', rest)
  | 't' :: rest => .ok ('\t', rest)
  | _ => .error (.mistake .badEscape ('\\' :: text))

def readChars (opening : List Char) : Nat → List Char → Reading (List Char × List Char)
  | 0, _ => .error (.mistake .unterminatedString opening)
  | fuel + 1, text =>
    match text with
    | [] => .error (.mistake .unterminatedString opening)
    | '"' :: rest => .ok ([], rest)
    | '\\' :: rest => do
      let (c, rest) ← readEscape opening rest
      let (cs, rest) ← readChars opening fuel rest
      return (c :: cs, rest)
    | c :: rest =>
      if c.toNat ≤ 0x1f then .error (.mistake .controlCharacter text)
      else do
        let (cs, rest) ← readChars opening fuel rest
        return (c :: cs, rest)

def readString (text : List Char) : Reading (String × List Char) := do
  let (cs, rest) ← readChars ('"' :: text) (text.length + 1) text
  return (String.ofList cs, rest)

def splitFraction (text : List Char) : List Char × List Char :=
  match text with
  | '.' :: rest =>
    let digits := rest.takeWhile Char.isDigit
    if digits.isEmpty then ([], text) else (digits, rest.dropWhile Char.isDigit)
  | _ => ([], text)

def splitExponent (text : List Char) : Option Int × List Char :=
  match text with
  | mark :: rest =>
    if mark = 'e' ∨ mark = 'E' then
      let (negative, unsigned) := Number.splitSign rest
      let digits := unsigned.takeWhile Char.isDigit
      if digits.isEmpty then (none, text)
      else
        let size : Int := (Number.ofDigits digits : Nat)
        (some (if negative then -size else size), unsigned.dropWhile Char.isDigit)
    else (none, text)
  | [] => (none, [])

def finishNumber (negative : Bool) (whole text : List Char) : Reading (Json × List Char) :=
  let (fraction, rest) := splitFraction text
  let (exponent, rest) := splitExponent rest
  -- Digits alone make a whole number, which is exact.
  if fraction.isEmpty && exponent.isNone then
    if Number.digitLimit < whole.length then .error .numberTooLong
    else
      let size : Int := (Number.ofDigits whole : Nat)
      .ok (.int (if negative then -size else size), rest)
  else
    .ok (.float (Number.Double.ofDecimal negative (Number.ofDigits (whole ++ fraction))
      (exponent.getD 0 - fraction.length)), rest)

def readNumber (text : List Char) : Reading (Json × List Char) :=
  let (negative, unsigned) := match text with
    | '-' :: rest => (true, rest)
    | _ => (false, text)
  match unsigned with
  | '0' :: rest => finishNumber negative ['0'] rest
  | c :: _ =>
    if c.isDigit then
      finishNumber negative (unsigned.takeWhile Char.isDigit) (unsigned.dropWhile Char.isDigit)
    else .error (.mistake .expectingValue text)
  | [] => .error (.mistake .expectingValue text)

def readScalar (text : List Char) : Reading (Json × List Char) :=
  match text with
  | '"' :: rest => do
    let (s, rest) ← readString rest
    return (.string s, rest)
  | 'n' :: 'u' :: 'l' :: 'l' :: rest => .ok (.null, rest)
  | 't' :: 'r' :: 'u' :: 'e' :: rest => .ok (.bool true, rest)
  | 'f' :: 'a' :: 'l' :: 's' :: 'e' :: rest => .ok (.bool false, rest)
  | 'N' :: 'a' :: 'N' :: rest => .ok (.float .nan, rest)
  | 'I' :: 'n' :: 'f' :: 'i' :: 'n' :: 'i' :: 't' :: 'y' :: rest =>
    .ok (.float (.infinite false), rest)
  | '-' :: 'I' :: 'n' :: 'f' :: 'i' :: 'n' :: 'i' :: 't' :: 'y' :: rest =>
    .ok (.float (.infinite true), rest)
  | _ => readNumber text

mutual

def readValue : Nat → List Char → Reading (Json × List Char)
  | 0, text => .error (.mistake .expectingValue text)
  | fuel + 1, text =>
    match text with
    | '[' :: rest =>
      match skipSpace rest with
      | ']' :: rest => .ok (.list [], rest)
      | rest => do
        let (items, rest) ← readItems fuel rest
        return (.list items, rest)
    | '\x7b' :: rest =>
      match skipSpace rest with
      | '\x7d' :: rest => .ok (.object [], rest)
      | rest => do
        let (members, rest) ← readMembers fuel rest
        return (.object (collectEntries (· == ·) members), rest)
    | _ => readScalar text

def readItems : Nat → List Char → Reading (List Json × List Char)
  | 0, text => .error (.mistake .expectingValue text)
  | fuel + 1, text => do
    let (item, rest) ← readValue fuel text
    match skipSpace rest with
    | ']' :: rest => return ([item], rest)
    | ',' :: rest =>
      let (items, rest) ← readItems fuel (skipSpace rest)
      return (item :: items, rest)
    | rest => .error (.mistake .expectingComma rest)

def readMembers : Nat → List Char → Reading (List (String × Json) × List Char)
  | 0, text => .error (.mistake .expectingName text)
  | fuel + 1, text =>
    match text with
    | '"' :: rest => do
      let (name, rest) ← readString rest
      match skipSpace rest with
      | ':' :: rest =>
        let (value, rest) ← readValue fuel (skipSpace rest)
        match skipSpace rest with
        | '\x7d' :: rest => return ([(name, value)], rest)
        | ',' :: rest =>
          let (members, rest) ← readMembers fuel (skipSpace rest)
          return ((name, value) :: members, rest)
        | rest => .error (.mistake .expectingComma rest)
      | rest => .error (.mistake .expectingColon rest)
    | _ => .error (.mistake .expectingName text)

end

inductive ParseError
  | malformed (error : SyntaxError)
  | numberTooLong

def readDocument (text : List Char) : Except ReadFault Json :=
  match text with
  | '\uFEFF' :: _ => .error (.mistake .byteOrderMark text)
  | _ => do
    -- Two steps go one level deeper, and every level opens with a bracket.
    let (value, rest) ← readValue (2 * text.length + 2) (skipSpace text)
    match skipSpace rest with
    | [] => .ok value
    | rest => .error (.mistake .extraData rest)

def parse (text : List Char) : Except ParseError Json :=
  match readDocument text with
  | .ok value => .ok value
  | .error .numberTooLong => .error .numberTooLong
  | .error (.mistake what left) =>
    .error (.malformed (.after what (text.take (text.length - left.length))))

end ApiCatalog.Json
