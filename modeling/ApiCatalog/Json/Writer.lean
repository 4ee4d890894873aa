import ApiCatalog.Json.Basic
import ApiCatalog.Number.Decimal
import ApiCatalog.Text.Escape

/-!
Writing JSON, compact or indented, with all or only the necessary characters escaped. Doubles that
are no numbers become null.
-/

namespace ApiCatalog.Json

/-- How a JSON text looks: the width of one level of indentation, none for a text on one line
without spaces, and whether it keeps to ASCII. -/
structure Style where
  indent : Option Nat
  ascii : Bool
deriving DecidableEq, Repr

/-- Doubles are written positionally from `0.00001` up to sixteen digits before the point, and
with an exponent without leading zeros elsewhere. -/
def numberLayout : Number.DecimalLayout :=
  ⟨-5, 16, 1, ['n', 'u', 'l', 'l'], ['n', 'u', 'l', 'l']⟩

def unitEscape (point : Nat) : List Char :=
  '\\' :: 'u' :: Text.hexDigits 4 point

def unicodeEscape (c : Char) : List Char :=
  if c.toNat < 0x10000 then unitEscape c.toNat
  else unitEscape (0xD800 + (c.toNat - 0x10000) / 1024) ++
    unitEscape (0xDC00 + (c.toNat - 0x10000) % 1024)

def escapeChar (ascii : Bool) (c : Char) : List Char :=
  if c = '"' then ['\\', '"']
  else if c = '\\' then ['\\', '\\']
  else if c = '\n' then ['\\', 'n']
  else if c = '\r' then ['\\', 'r']
  else if c = '\t' then ['\\', 't']
  else if c = '\x08' then ['\\', 'b']
  else if c = '\x0c' then ['\\', 'f']
  else if c.toNat < 0x20 ∨ (ascii = true ∧ 0x7f ≤ c.toNat) then unicodeEscape c
  else [c]

def quote (ascii : Bool) (s : String) : List Char :=
  '"' :: (s.toList.flatMap (escapeChar ascii) ++ ['"'])

def Style.lineBreak (style : Style) (depth : Nat) : List Char :=
  match style.indent with
  | none => []
  | some width => '\n' :: List.replicate (width * depth) ' '

def Style.colon (style : Style) : List Char :=
  if style.indent.isSome then [':', ' '] else [':']

def floatText : Number.Double → List Char
  | .finite negative magnitude => numberLayout.text (.finite negative magnitude)
  | _ => ['n', 'u', 'l', 'l']

mutual

def write (style : Style) (depth : Nat) : Json → List Char
  | .null => ['n', 'u', 'l', 'l']
  | .bool true => ['t', 'r', 'u', 'e']
  | .bool false => ['f', 'a', 'l', 's', 'e']
  | .int n => Number.integerText n
  | .float x => floatText x
  | .string s => quote style.ascii s
  | .list [] => ['[', ']']
  | .list (item :: items) =>
    '[' :: (style.lineBreak (depth + 1) ++ write style (depth + 1) item ++
      writeItems style (depth + 1) items ++ style.lineBreak depth ++ [']'])
  | .object [] => ['\x7b', '\x7d']
  | .object ((name, value) :: members) =>
    '\x7b' :: (style.lineBreak (depth + 1) ++ quote style.ascii name ++ style.colon ++
      write style (depth + 1) value ++ writeMembers style (depth + 1) members ++
      style.lineBreak depth ++ ['\x7d'])

def writeItems (style : Style) (depth : Nat) : List Json → List Char
  | [] => []
  | item :: items =>
    ',' :: (style.lineBreak depth ++ write style depth item ++ writeItems style depth items)

def writeMembers (style : Style) (depth : Nat) : List (String × Json) → List Char
  | [] => []
  | (name, value) :: members =>
    ',' :: (style.lineBreak depth ++ quote style.ascii name ++ style.colon ++
      write style depth value ++ writeMembers style depth members)

end

def render (style : Style) (value : Json) : String :=
  String.ofList (write style 0 value)

end ApiCatalog.Json
