import ApiCatalog.Document.Value
import ApiCatalog.Model.Catalog
import ApiCatalog.Model.Flaw
import ApiCatalog.Text.Escape

/-!
Records read from document values. A record is a mapping; other keys are passed over, absent
fields take their default, and every flaw is reported with its place.
-/

namespace ApiCatalog.Check

def text : Value → Checked String
  | .text s => .valid s
  | .bytes content =>
    match Text.ofUtf8? content with
    | some s => .valid s
    | none => .flaw .undecodableText
  | _ => .flaw .notText

def falseWords : List String := ["0", "off", "f", "false", "n", "no"]

def trueWords : List String := ["1", "on", "t", "true", "y", "yes"]

/-- A truth value given as zero or one. Numbers of more than sixty-four bits are of another kind;
the rest are numbers that mean nothing. -/
def boolOfInt (n : Int) : Checked Bool :=
  if !Number.isWord n then .flaw .notBool
  else if n = 0 then .valid false
  else if n = 1 then .valid true
  else .flaw .unreadableBool

def boolOfText (s : String) : Checked Bool :=
  let word := String.ofList (s.toList.map Char.toLower)
  if word ∈ falseWords then .valid false
  else if word ∈ trueWords then .valid true
  else .flaw .unreadableBool

def bool : Value → Checked Bool
  | .bool b => .valid b
  | .int n => boolOfInt n
  | .float x =>
    match x.toInt? with
    -- The least number of sixty-four bits does not count as one when it is given as a double.
    | some n => if n = -Int.ofNat (Nat.pow 2 63) then .flaw .notBool else boolOfInt n
    | none => .flaw .notBool
  | .text s => boolOfText s
  | .bytes content =>
    match Text.ofUtf8? content with
    | some s => boolOfText s
    | none => .flaw .unreadableBool
  | _ => .flaw .notBool

def list {α : Type} (check : Value → Checked α) (value : Value) : Checked (List α) :=
  match value.opened with
  | .list items | .set items => Checked.eachFrom check 0 items
  | .pair first second => Checked.eachFrom check 0 [first, second]
  | _ => .flaw .notList

def optional {α : Type} (check : Value → Checked α) : Value → Checked (Option α)
  | .null => .valid none
  | value => some <$> check value

def choice {α : Type} (ofName? : String → Option α) : Value → Checked α
  | .text s =>
    match ofName? s with
    | some x => .valid x
    | none => .flaw .notChoice
  | _ => .flaw .notChoice

def record {α : Type} (read : List (Value × Value) → Checked α) (value : Value) : Checked α :=
  match value.opened with
  | .map entries => read entries
  | _ => .flaw .notRecord

def field {α : Type} (entries : List (Value × Value)) (name : String) (absent : α)
    (check : Value → Checked α) : Checked α :=
  match findEntry (Value.same (.text name)) entries with
  | some value => (check value).under (.field name)
  | none => .valid absent

def requiredField {α : Type} (entries : List (Value × Value)) (name : String)
    (check : Value → Checked α) : Checked α :=
  match findEntry (Value.same (.text name)) entries with
  | some value => (check value).under (.field name)
  | none => .flawed [⟨[.field name], .missing⟩]

/-- A member of an enumeration. A value of another kind is none of the four admitted kinds, and
each of them is reported. -/
def enumMember : Value → Checked EnumMember
  | .text s => .valid (.text s)
  | .bool b => .valid (.bool b)
  | .int n => .valid (.int n)
  | .float x => .valid (.float x)
  | _ => .flawed [⟨[.field "str"], .notText⟩, ⟨[.field "bool"], .notBool⟩,
      ⟨[.field "int"], .notInt⟩, ⟨[.field "float"], .notFloat⟩]

def dataType : Value → Checked DataType :=
  record fun entries =>
    DataType.mk
      <$> field entries "is_array" false bool
      <*> field entries "primitive_type" .empty (choice Primitive.ofName?)
      <*> field entries "reference" "" text
      <*> field entries "enum" none (optional (list enumMember))

def property : Value → Checked Property :=
  record fun entries =>
    Property.mk
      <$> requiredField entries "name" text
      <*> field entries "description" "" text
      <*> field entries "required" false bool
      <*> field entries "data_type" .blank dataType
      <*> field entries "location" none (optional (choice Location.ofName?))

def interface : Value → Checked Interface :=
  record fun entries =>
    Interface.mk
      <$> requiredField entries "name" text
      <*> field entries "description" "" text
      <*> requiredField entries "method" text
      <*> requiredField entries "path" text
      <*> field entries "consumes" [] (list text)
      <*> field entries "response" .blank dataType
      <*> field entries "parameters" [] (list property)

def apiModule : Value → Checked ApiModule :=
  record fun entries =>
    ApiModule.mk
      <$> requiredField entries "name" text
      <*> field entries "description" "" text
      <*> field entries "interfaces" [] (list interface)

def baseClass : Value → Checked BaseClass :=
  record fun entries =>
    BaseClass.mk
      <$> requiredField entries "name" text
      <*> field entries "description" "" text
      <*> field entries "properties" [] (list property)

def catalog : Value → Checked Catalog :=
  record fun entries =>
    Catalog.mk
      <$> field entries "name" "" text
      <*> field entries "mods" [] (list apiModule)
      <*> field entries "base_classes" [] (list baseClass)

end ApiCatalog.Check
