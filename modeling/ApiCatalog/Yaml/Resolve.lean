import ApiCatalog.Document.Calendar
import ApiCatalog.Number.Literal
import ApiCatalog.Text.Pieces

/-!
What the text of a plain scalar means: a truth value, a number in one of several notations, a day
or a moment, null, or else itself.
-/

namespace ApiCatalog.Yaml

inductive Kind
  | null
  | bool
  | int
  | float
  | binary
  | timestamp
  | orderedMap
  | pairs
  | set
  | text
  | sequence
  | mapping
  | merge
  | defaultValue
  | indicator
deriving DecidableEq, Repr

inductive Tag
  | core (kind : Kind)
  | other
deriving DecidableEq, Repr

def coreLead : List Char := "tag:yaml.org,2002:".toList

def coreNames : List (List Char × Kind) :=
  [("null".toList, .null), ("bool".toList, .bool), ("int".toList, .int), ("float".toList, .float),
    ("binary".toList, .binary), ("timestamp".toList, .timestamp), ("omap".toList, .orderedMap),
    ("pairs".toList, .pairs), ("set".toList, .set), ("str".toList, .text),
    ("seq".toList, .sequence), ("map".toList, .mapping), ("merge".toList, .merge),
    ("value".toList, .defaultValue), ("yaml".toList, .indicator)]

def Tag.ofName (name : List Char) : Tag :=
  match (Text.dropStart? coreLead name).bind fun short => coreNames.find? (·.1 == short) with
  | some (_, kind) => .core kind
  | none => .other

def boolWords : List (List Char × Bool) :=
  [("yes".toList, true), ("no".toList, false), ("true".toList, true), ("false".toList, false),
    ("on".toList, true), ("off".toList, false)]

def spellings (word : List Char) : List (List Char) :=
  [word, (word.take 1).map Char.toUpper ++ word.drop 1, word.map Char.toUpper]

def isBoolText (text : List Char) : Bool :=
  boolWords.any fun entry => (spellings entry.1).contains text

def isNullText (text : List Char) : Bool :=
  text == ['~'] || (spellings "null".toList).contains text

def isGrouped (c : Char) : Bool :=
  c.isDigit || c == '_'

def dropSign (text : List Char) : List Char :=
  (Number.splitSign text).2

def allOf (test : Char → Bool) (text : List Char) : Bool :=
  !text.isEmpty && text.all test

def isExponent : List Char → Bool
  | [] => true
  | mark :: sign :: digits =>
    (mark == 'e' || mark == 'E') && (sign == '+' || sign == '-') && allOf Char.isDigit digits
  | _ => false

def isSixtieth (text : List Char) : Bool :=
  match text with
  | [c] => c.isDigit
  | [c, d] => decide ('0' ≤ c) && decide (c ≤ '5') && d.isDigit
  | _ => false

def isGroupedNumber : List Char → Bool
  | c :: rest => c.isDigit && rest.all isGrouped
  | [] => false

def isPointNumber (text : List Char) : Bool :=
  let unsigned := dropSign text
  let whole := unsigned.takeWhile isGrouped
  match unsigned.dropWhile isGrouped with
  | '.' :: rest =>
    (isGroupedNumber whole || (whole.isEmpty && isGroupedNumber (rest.takeWhile isGrouped) &&
      unsigned.length == text.length)) && isExponent (rest.dropWhile isGrouped)
  | _ => false

def isSexagesimal (pointed : Bool) (text : List Char) : Bool :=
  match (dropSign text).splitOn ':' with
  | first :: places@(_ :: _) =>
    let (last, rest) := (places.getLastD [], places.dropLast)
    isGroupedNumber first && (pointed || first.head? != some '0') && rest.all isSixtieth &&
      (if pointed then
        isSixtieth (Text.before '.' last) &&
          match last.dropWhile (· != '.') with
          | _ :: fraction => fraction.all isGrouped
          | [] => false
      else isSixtieth last)
  | _ => false

def isSpecialFloat (text : List Char) : Bool :=
  [".inf".toList, ".Inf".toList, ".INF".toList].contains (dropSign text) ||
    [".nan".toList, ".NaN".toList, ".NAN".toList].contains text

def isFloatText (text : List Char) : Bool :=
  isPointNumber text || isSexagesimal true text || isSpecialFloat text

def isIntText (text : List Char) : Bool :=
  isSexagesimal false text ||
    match dropSign text with
    | ['0'] => true
    | '0' :: 'b' :: digits => allOf (fun c => c == '0' || c == '1' || c == '_') digits
    | '0' :: 'x' :: digits =>
      allOf (fun c => c.isDigit || (decide ('a' ≤ c) && decide (c ≤ 'f')) ||
        (decide ('A' ≤ c) && decide (c ≤ 'F')) || c == '_') digits
    | '0' :: digits => allOf (fun c => (decide ('0' ≤ c) && decide (c ≤ '7')) || c == '_') digits
    | digits => isGroupedNumber digits

structure Timestamp where
  date : Date
  /-- Whether month and day have two digits. -/
  wide : Bool
  clock : Option (Nat × Nat × Nat × Nat)
  offset : Option Int
deriving DecidableEq, Repr

/-- The number of one or two digits, which may have to be two, and how many there are. -/
def readPair? (exact : Bool) (text : List Char) : Option (Nat × Nat × List Char) :=
  let digits := (text.take 2).takeWhile Char.isDigit
  if digits.isEmpty || (exact && digits.length != 2) then none
  else some (Number.ofDigits digits, digits.length, text.drop digits.length)

def readChar? (c : Char) (text : List Char) : Option (List Char) :=
  Text.dropStart? [c] text

def microseconds (digits : List Char) : Nat :=
  Number.ofDigits ((digits ++ List.replicate 6 '0').take 6)

def isSpaceTab (c : Char) : Bool :=
  c == ' ' || c == '\t'

/-- The zone that ends a moment, as minutes from universal time; none inside if there is none. -/
def readZone? (text : List Char) : Option (Option Int) :=
  if text.isEmpty then some none
  else
    match text.dropWhile isSpaceTab with
    | ['Z'] => some (some 0)
    | sign :: rest =>
      if sign = '+' ∨ sign = '-' then do
        let (hours, _, rest) ← readPair? false rest
        let minutes ←
          match rest with
          | [] => some 0
          | ':' :: rest => do
            let (minutes, _, rest) ← readPair? true rest
            if rest.isEmpty then some minutes else none
          | _ => none
        let size : Int := (hours * 60 + minutes : Nat)
        some (some (if sign = '-' then -size else size))
      else none
    | [] => none

def readClock? (text : List Char) : Option ((Nat × Nat × Nat × Nat) × Option Int) := do
  let (hour, _, rest) ← readPair? false text
  let (minute, _, rest) ← readPair? true (← readChar? ':' rest)
  let (second, _, rest) ← readPair? true (← readChar? ':' rest)
  let (fraction, rest) := match rest with
    | '.' :: rest => (rest.takeWhile Char.isDigit, rest.dropWhile Char.isDigit)
    | _ => ([], rest)
  some ((hour, minute, second, microseconds fraction), ← readZone? rest)

def readTimestamp? (text : List Char) : Option Timestamp := do
  let year := text.takeWhile Char.isDigit
  if year.length != 4 then none
  else
    let (month, monthWidth, rest) ← readPair? false (← readChar? '-' (text.drop 4))
    let (day, dayWidth, rest) ← readPair? false (← readChar? '-' rest)
    let date : Date := ⟨Number.ofDigits year, month, day⟩
    let wide := monthWidth == 2 && dayWidth == 2
    match rest with
    | [] => some ⟨date, wide, none, none⟩
    | c :: more =>
      let clockText ←
        if c = 'T' ∨ c = 't' then some more
        else if isSpaceTab c then some (more.dropWhile isSpaceTab)
        else none
      let (clock, offset) ← readClock? clockText
      some ⟨date, wide, some clock, offset⟩

def isTimestampText (text : List Char) : Bool :=
  match readTimestamp? text with
  | some stamp => stamp.wide || stamp.clock.isSome
  | none => false

/-- The kind of value that a plain text implies. One final line break does not count. -/
def impliedKind (text : List Char) : Kind :=
  -- No pattern begins with a line break.
  let body := (Text.dropEnd? ['\n'] text).getD text
  match text with
  | [] => .null
  | '\n' :: _ => .text
  | _ =>
    if isBoolText body then .bool
    else if isFloatText body then .float
    else if isIntText body then .int
    else if body == ['<', '<'] then .merge
    else if isNullText body then .null
    else if isTimestampText body then .timestamp
    else if body == ['='] then .defaultValue
    else if body == ['!'] || body == ['&'] || body == ['*'] then .indicator
    else .text

end ApiCatalog.Yaml
