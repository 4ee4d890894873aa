import ApiCatalog.Document.Value
import ApiCatalog.Text.Casing
import ApiCatalog.Text.Escape
import ApiCatalog.Yaml.Cursor
import ApiCatalog.Yaml.Resolve

/-!
The values of YAML scalars: what a text means by its tag, which may be written and then need not fit
the text.
-/

namespace ApiCatalog.Yaml

def digitIn? (base : Nat) (c : Char) : Option Nat := do
  let value ← Text.hexValue? c
  if value < base then some value else none

def digitsIn? (base : Nat) (digits : List Char) : Option Nat :=
  if digits.isEmpty then none
  else digits.foldl (fun value c => do return (← value) * base + (← digitIn? base c)) (some 0)

def baseLetter? (base : Nat) : Option Char :=
  if base = 2 then some 'b' else if base = 8 then some 'o' else if base = 16 then some 'x' else none

def dropBaseMark (base : Nat) (digits : List Char) : List Char :=
  match digits with
  | '0' :: letter :: rest => if baseLetter? base = some letter.toLower then rest else digits
  | _ => digits

def wholeNumber (base : Nat) (text : List Char) : Except Failure Int :=
  let (negative, unsigned) := Number.splitSign (Number.asciiText text)
  let digits := dropBaseMark base unsigned
  match digitsIn? base digits with
  | none => .error (.fault .noValue)
  | some size =>
    if base = 10 ∧ Number.digitLimit < digits.length then .error (.fault .noValue)
    else .ok (if negative then -(size : Int) else (size : Int))

def sexagesimal (places : List Int) : Int :=
  places.foldl (fun value place => value * 60 + place) 0

/-- The text of a number without its sign, and whether it is negative. Where a sign or a digit is
needed, some character has to be. -/
def signOf (text : List Char) : Except Failure (Bool × List Char) :=
  match text with
  | [] => .error (.fault .noCharacter)
  | _ => .ok (Number.splitSign text)

def intOf (text : List Char) : Except Failure Int := do
  let (negative, digits) ← signOf (text.filter (· != '_'))
  let size ←
    match digits with
    | [] => .error (.fault .noCharacter)
    | ['0'] => pure 0
    | '0' :: 'b' :: digits => wholeNumber 2 digits
    | '0' :: 'x' :: digits => wholeNumber 16 digits
    | '0' :: _ => wholeNumber 8 digits
    | _ =>
      if digits.contains ':' then
        sexagesimal <$> (digits.splitOn ':').mapM (wholeNumber 10)
      else wholeNumber 10 digits
  return if negative then -size else size

def weightedSum (weight? : Nat → Option Number.Double) (power : Nat) :
    List Number.Double → Number.Double → Except Failure Number.Double
  | [], sum => .ok sum
  | place :: places, sum =>
    match weight? power with
    | none => .error (.fault .overflow)
    | some weight => weightedSum weight? (power + 1) places (sum.add (place.mul weight))

def sexagesimalDouble (places : List Number.Double) : Except Failure Number.Double :=
  weightedSum (fun power => Number.Double.ofInt? (Int.ofNat (Nat.pow 60 power))) 0 places.reverse
    (.zero false)

def floatDigits (text : List Char) : Except Failure (Bool × List Char) :=
  signOf (Text.lower (text.filter (· != '_')))

def isNanWord (text : List Char) : Bool :=
  match floatDigits text with
  | .ok (_, digits) => digits == ".nan".toList
  | .error _ => false

def floatOf (text : List Char) : Except Failure Number.Double := do
  let (negative, digits) ← floatDigits text
  let read (digits : List Char) : Except Failure Number.Double :=
    match Number.doubleOfText? digits with
    | some x => .ok x
    | none => .error (.fault .noValue)
  let size ←
    if digits = ".inf".toList then pure (.infinite false)
    else if digits = ".nan".toList then pure .nan
    else if digits.contains ':' then do
      let places ← (digits.splitOn ':').mapM read
      sexagesimalDouble places
    else read digits
  return if negative then size.neg else size

def boolOf (text : List Char) : Except Failure Bool :=
  match findEntry (· == Text.lower text) boolWords with
  | some b => .ok b
  | none => .error (.fault .unknownWord)

def timestampOf (text : List Char) : Except Failure Value :=
  match readTimestamp? ((Text.dropEnd? ['\n'] text).getD text) with
  | none => .error (.fault .noOperation)
  | some stamp =>
    match stamp.clock with
    | none => if stamp.date.isValid then .ok (.date stamp.date) else .error (.fault .noValue)
    | some (hour, minute, second, micro) =>
      let moment : Moment := ⟨stamp.date, hour, minute, second, micro, stamp.offset⟩
      if moment.isValid then .ok (.moment moment) else .error (.fault .noValue)

def sixBits? (c : Char) : Option Nat :=
  if 'A' ≤ c ∧ c ≤ 'Z' then some (c.toNat - 65)
  else if 'a' ≤ c ∧ c ≤ 'z' then some (c.toNat - 71)
  else if '0' ≤ c ∧ c ≤ '9' then some (c.toNat + 4)
  else if c = '+' then some 62
  else if c = '/' then some 63
  else none

/-- The bytes of a text in base sixty-four. `place` counts the characters of the group begun,
`left` is what they left over, and `pads` counts the signs that fill a group up. -/
def decodeBytes (place left pads : Nat) : List Char → Option (List UInt8)
  | [] => if place = 0 then some [] else none
  | c :: rest =>
    if c = '=' then
      -- Filling signs count from the third place of a group on, and end the text when it is full.
      if 2 ≤ place then
        if 4 ≤ place + (pads + 1) then some [] else decodeBytes place left (pads + 1) rest
      else decodeBytes place left pads rest
    else
      match sixBits? c with
      -- Other characters are passed over.
      | none => decodeBytes place left pads rest
      | some bits =>
        match place with
        | 0 => decodeBytes 1 bits 0 rest
        | 1 => (decodeBytes 2 (bits % 16) 0 rest).map ((left * 4 + bits / 16).toUInt8 :: ·)
        | 2 => (decodeBytes 3 (bits % 4) 0 rest).map ((left * 16 + bits / 4).toUInt8 :: ·)
        | _ => (decodeBytes 0 0 0 rest).map ((left * 64 + bits).toUInt8 :: ·)

def bytesOf (text : List Char) : Except Failure Value :=
  if text.any fun c => 127 < c.toNat then .error .malformed
  else
    match decodeBytes 0 0 0 text with
    | some content => .ok (.bytes content)
    | none => .error .malformed

def scalarValue (kind : Kind) (text : List Char) : Except Failure Value :=
  match kind with
  | .null => .ok .null
  | .bool => Value.bool <$> boolOf text
  | .int => Value.int <$> intOf text
  | .float => Value.float <$> floatOf text
  | .binary => bytesOf text
  | .timestamp => timestampOf text
  | .text => .ok (.text (String.ofList text))
  | _ => .error .malformed

end ApiCatalog.Yaml
