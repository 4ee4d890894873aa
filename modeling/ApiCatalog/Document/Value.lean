import ApiCatalog.Document.Calendar
import ApiCatalog.Json.Basic

/-!
The values of a raw document. Keys of a mapping are values themselves, since a document may be
keyed by numbers; the entries stand in document order. A collection may occur within itself: such a
knot has a label, under which its body refers back to it.
-/

namespace ApiCatalog

inductive Value
  | null
  | bool (b : Bool)
  | int (n : Int)
  | float (x : Number.Double)
  | text (s : String)
  | date (d : Date)
  | moment (m : Moment)
  | bytes (content : List UInt8)
  | list (items : List Value)
  | pair (first second : Value)
  | set (members : List Value)
  | map (entries : List (Value × Value))
  /-- A collection that occurs within itself. -/
  | knot (label : Nat) (body : Value)
  /-- The knot of a given label, within itself. -/
  | again (label : Nat)
deriving Inhabited

namespace Value

mutual

def fill (label : Nat) (knot : Value) : Value → Value
  | .again other => if other = label then knot else .again other
  | .knot other body =>
    if other = label then .knot other body else .knot other (fill label knot body)
  | .list items => .list (fillItems label knot items)
  | .pair first second => .pair (fill label knot first) (fill label knot second)
  | .map entries => .map (fillEntries label knot entries)
  | value => value

def fillItems (label : Nat) (knot : Value) : List Value → List Value
  | [] => []
  | item :: items => fill label knot item :: fillItems label knot items

def fillEntries (label : Nat) (knot : Value) : List (Value × Value) → List (Value × Value)
  | [] => []
  | (key, value) :: entries => (key, fill label knot value) :: fillEntries label knot entries

end

/-- A value of which the outermost collection is no knot any more. -/
def opened : Value → Value
  | .knot label body => fill label (.knot label body) body
  | value => value

/-- Equality of simple values. Truth values count as the numbers zero and one, and numbers are
equal when they denote the same quantity. Collections equal nothing here. -/
def same : Value → Value → Bool
  | .null, .null => true
  | .bool a, .bool b => a == b
  | .bool a, .int n | .int n, .bool a => n == (if a then 1 else 0)
  | .bool a, .float x | .float x, .bool a => x.isInt (if a then 1 else 0)
  | .int n, .int m => n == m
  | .int n, .float x | .float x, .int n => x.isInt n
  | .float x, .float y => x.sameNumber y
  | .text s, .text t => s == t
  | .date a, .date b => a == b
  | .moment a, .moment b => a.same b
  | .bytes a, .bytes b => a == b
  | _, _ => false

def truthy : Value → Bool
  | .null => false
  | .bool b => b
  | .int n => n != 0
  | .float x => !x.isZero
  | .text s => s != ""
  | .bytes content => !content.isEmpty
  | .list items | .set items => !items.isEmpty
  | .map entries => !entries.isEmpty
  | .date _ | .moment _ | .pair _ _ | .knot _ _ | .again _ => true

def orElse (value other : Value) : Value :=
  if value.truthy then value else other

def isKey : Value → Bool
  | .list _ | .set _ | .map _ | .knot _ _ | .again _ => false
  | .pair first second => first.isKey && second.isKey
  | _ => true

def kindName (value : Value) : String :=
  match value.opened with
  | .null => "empty document"
  | .bool _ => "bool"
  | .int _ => "int"
  | .float _ => "float"
  | .text _ => "str"
  | .date _ => "date"
  | .moment _ => "datetime"
  | .bytes _ => "bytes"
  | .list _ => "list"
  | .pair _ _ => "tuple"
  | .set _ => "set"
  | .map _ | .knot _ _ | .again _ => "mapping"

def ofJson : Json → Value
  | .null => .null
  | .bool b => .bool b
  | .int n => .int n
  | .float x => .float x
  | .string s => .text s
  | .list items => .list (ofItems items)
  | .object members => .map (ofMembers members)
where
  ofItems : List Json → List Value
    | [] => []
    | item :: items => ofJson item :: ofItems items
  ofMembers : List (String × Json) → List (Value × Value)
    | [] => []
    | (name, value) :: members => (.text name, ofJson value) :: ofMembers members

end Value
end ApiCatalog
