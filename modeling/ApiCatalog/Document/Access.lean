import ApiCatalog.Document.Fault
import ApiCatalog.Document.Value
import ApiCatalog.Text.Pieces

/-! Looking into document values. What a value does not offer is a fault. -/

namespace ApiCatalog.Value

def lookup? (value : Value) (key : Value) : Except Fault (Option Value) :=
  match value.opened with
  | .map entries => .ok (findEntry (Value.same key) entries)
  | _ => .error .noOperation

def fieldOr (value : Value) (name : String) (absent : Value) : Except Fault Value :=
  (·.getD absent) <$> value.lookup? (.text name)

def field (value : Value) (name : String) : Except Fault Value :=
  value.fieldOr name .null

def entries (value : Value) : Except Fault (List (Value × Value)) :=
  match value.opened with
  | .map entries => .ok entries
  | _ => .error .noOperation

def members (value : Value) : Except Fault (List Value) :=
  match value.opened with
  | .list items | .set items => .ok items
  | .pair first second => .ok [first, second]
  | .map entries => .ok (entries.map (·.1))
  | .text s => .ok (s.toList.map fun c => .text (String.ofList [c]))
  | .bytes content => .ok (content.map fun byte => .int byte.toNat)
  | _ => .error .wrongKind

def holdsByte (content : List UInt8) (n : Int) : Except Fault Bool :=
  if 0 ≤ n ∧ n < 256 then .ok (content.any fun byte => n == byte.toNat) else .error .noValue

def holds (value key : Value) : Except Fault Bool :=
  match value.opened, key with
  | .list items, _ => .ok (items.any (Value.same key))
  | .pair first second, _ => .ok (Value.same key first || Value.same key second)
  | .set items, _ => if key.isKey then .ok (items.any (Value.same key)) else .error .wrongKind
  | .map entries, _ =>
    if key.isKey then .ok (entries.any fun entry => Value.same key entry.1) else .error .wrongKind
  | .text s, .text part => .ok (Text.occursIn part.toList s.toList)
  | .bytes content, .bytes part => .ok (Text.occursIn part content)
  | .bytes content, .int n => holdsByte content n
  | .bytes content, .bool b => holdsByte content (if b then 1 else 0)
  | _, _ => .error .wrongKind

/-- The text that an operation on texts is asked of. Bytes offer the operation but do not take
a text for its operand. -/
def asText : Value → Except Fault String
  | .text s => .ok s
  | .bytes _ => .error .wrongKind
  | _ => .error .noOperation

/-- The text in which an operation is to replace parts. Days and moments offer an operation of that
name which takes numbers. -/
def asReplaceable : Value → Except Fault String
  | .date _ | .moment _ => .error .wrongKind
  | value => value.asText

def isMap (value : Value) : Bool :=
  match value.opened with
  | .map _ => true
  | _ => false

def ofChars (cs : List Char) : Value := .text (String.ofList cs)

def emptyMap : Value := .map []

def emptyList : Value := .list []

def emptyText : Value := .text ""

end ApiCatalog.Value
