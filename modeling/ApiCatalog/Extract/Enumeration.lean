import ApiCatalog.Document.Access
import ApiCatalog.Model.DataType
import ApiCatalog.Number.Decimal
import ApiCatalog.Number.Literal
import ApiCatalog.Document.Display

/-!
Enumerations made fit for identifiers. Members that denote a number get a numeric twin, since a
member may be sent as its text or as its number; then members whose text is no identifier are
dropped.
-/

namespace ApiCatalog

namespace EnumMember

def ofValue? : Value → Option EnumMember
  | .null => some (.text "null")
  | .text s => some (.text s)
  | .bool b => some (.bool b)
  | .int n => some (.int n)
  | .float x => some (.float x)
  | _ => none

def label : EnumMember → List Char
  | .text s => s.toList
  | .bool b => (if b then "true" else "false").toList
  | .int n => Number.integerText n
  | .float x => messageLayout.text x

def isLabelChar (c : Char) : Bool :=
  (decide ('0' ≤ c) && decide (c ≤ '9')) || (decide ('a' ≤ c) && decide (c ≤ 'z')) ||
    (decide ('A' ≤ c) && decide (c ≤ 'Z')) || c == '_' || c == '-' || c == '$'

def isSafe (member : EnumMember) : Bool :=
  !member.label.isEmpty && member.label.all isLabelChar

def ofDouble? (x : Number.Double) : Option EnumMember :=
  match x.toInt? with
  | some n => some (.int n)
  | none => if x.isFinite then some (.float x) else none

/-- The number that a member denotes, as a double holds it. A whole number beyond the range of
doubles is a fault. Texts with a low line denote none. -/
def number? : EnumMember → Except Fault (Option EnumMember)
  | .bool _ => .ok none
  | .int n => (Number.Double.ofInt? n).elim (.error .overflow) fun x => .ok (ofDouble? x)
  | .float x => .ok (ofDouble? x)
  | .text s =>
    if s.toList.contains '_' then .ok none
    else .ok ((Number.doubleOfText? s.toList).bind ofDouble?)

def sameNumber : EnumMember → EnumMember → Bool
  | .int n, .int m => n == m
  | .int n, .float x | .float x, .int n => x.isInt n
  | .float x, .float y => x.sameNumber y
  | _, _ => false

def addTwin (known : List EnumMember) (member : EnumMember) : Except Fault (List EnumMember) := do
  match ← member.number? with
  | none => return known
  | some number => return if known.any (sameNumber number) then known else known ++ [number]

def sanitize (members : List EnumMember) : Except Fault (List EnumMember) := do
  -- Twins go behind all members, so that the written order stays.
  let combined ← members.foldlM addTwin members
  return combined.filter isSafe

end EnumMember

def EnumMember.ofListed (listed : Value) : Except Fault (Option (List EnumMember)) :=
  match listed with
  | .null => .ok none
  | _ => do
    let members ← listed.members
    some <$> EnumMember.sanitize (members.filterMap EnumMember.ofValue?)

end ApiCatalog
