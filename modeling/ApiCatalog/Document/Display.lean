import ApiCatalog.Document.Value
import ApiCatalog.Number.Decimal
import ApiCatalog.Text.Escape
import ApiCatalog.Text.Printable

/-!
Document values in running text, as messages show them. A text on its own stands as it is; inside
a collection it is quoted.
-/

namespace ApiCatalog

/-- Doubles are shown positionally from `0.0001` up to sixteen digits before the point, and with a
signed exponent of at least two digits elsewhere. -/
def messageLayout : Number.DecimalLayout :=
  ⟨-4, 16, 2, ['n', 'a', 'n'], ['i', 'n', 'f']⟩

def commaSeparated (parts : List (List Char)) : List Char :=
  List.intercalate [',', ' '] parts

def callForm (name : String) (arguments : List (List Char)) : List Char :=
  name.toList ++ '(' :: (commaSeparated arguments ++ [')'])

def Date.parts (d : Date) : List Nat :=
  [d.year, d.month, d.day]

def offsetForm (minutes : Int) : List Char :=
  if minutes = 0 then "datetime.timezone.utc".toList
  else
    let days := Int.fdiv minutes 1440
    let seconds := (minutes - days * 1440) * 60
    let arguments :=
      (if days = 0 then [] else ["days=".toList ++ Number.integerText days]) ++
        (if seconds = 0 then [] else ["seconds=".toList ++ Number.integerText seconds])
    callForm "datetime.timezone" [callForm "datetime.timedelta" arguments]

def Moment.form (m : Moment) : List Char :=
  let clock := [m.hour, m.minute] ++
    (if m.second = 0 ∧ m.microsecond = 0 then [] else [m.second]) ++
    (if m.microsecond = 0 then [] else [m.microsecond])
  callForm "datetime.datetime" ((m.date.parts ++ clock).map Number.digitsOf ++
    match m.offset with
    | none => []
    | some minutes => ["tzinfo=".toList ++ offsetForm minutes])

def bytesForm (content : List UInt8) : List Char :=
  'b' :: Text.quoted (fun c => decide (32 ≤ c.toNat) && decide (c.toNat < 127))
    (content.map fun byte => Char.ofNat byte.toNat)

namespace Value

def shortForm : Value → List Char
  | .list _ => "[...]".toList
  | _ => ['\x7b', '.', '.', '.', '\x7d']

mutual

/-- A value as part of another one. `around` gives what is shown of the knots around it. -/
def form (around : List (Nat × List Char)) : Value → List Char
  | .null => "None".toList
  | .bool b => (if b then "True" else "False").toList
  | .int n => Number.integerText n
  | .float x => messageLayout.text x
  | .text s => Text.quoted Text.isPrintable s.toList
  | .date d => callForm "datetime.date" (d.parts.map Number.digitsOf)
  | .moment m => m.form
  | .bytes content => bytesForm content
  | .list items => '[' :: (commaSeparated (itemForms around items) ++ [']'])
  | .pair first second => callForm "" [form around first, form around second]
  | .set [] => callForm "set" []
  | .set (member :: members) =>
    '\x7b' :: (commaSeparated (form around member :: itemForms around members) ++ ['\x7d'])
  | .map entries => '\x7b' :: (commaSeparated (entryForms around entries) ++ ['\x7d'])
  | .knot label body =>
    match findEntry (· == label) around with
    | some short => short
    | none => form ((label, shortForm body) :: around) body
  | .again label => (findEntry (· == label) around).getD []

def itemForms (around : List (Nat × List Char)) : List Value → List (List Char)
  | [] => []
  | item :: items => form around item :: itemForms around items

def entryForms (around : List (Nat × List Char)) : List (Value × Value) → List (List Char)
  | [] => []
  | (key, value) :: entries =>
    (form around key ++ ':' :: ' ' :: form around value) :: entryForms around entries

end

def display : Value → List Char
  | .text s => s.toList
  | .date d => d.text
  | .moment m => m.text ' '
  | value => value.form []

def shown (value : Value) : String :=
  String.ofList value.display

end Value
end ApiCatalog
