import ApiCatalog.Number.Double

/-! Types of values as a catalogue describes them. -/

namespace ApiCatalog

/-- The primitive shapes. The empty shape stands for no value, and for a type that is described by
its reference alone. -/
inductive Primitive
  | empty
  | string
  | number
  | boolean
  | file
  | object
  | any
deriving DecidableEq, Repr

def Primitive.name : Primitive → String
  | .empty => ""
  | .string => "string"
  | .number => "number"
  | .boolean => "boolean"
  | .file => "File"
  | .object => "object"
  | .any => "any"

def Primitive.all : List Primitive :=
  [.empty, .string, .number, .boolean, .file, .object, .any]

def Primitive.ofName? (name : String) : Option Primitive :=
  Primitive.all.find? fun primitive => primitive.name == name

theorem Primitive.ofName?_name (primitive : Primitive) :
    Primitive.ofName? primitive.name = some primitive := by
  cases primitive <;> decide

inductive EnumMember
  | text (s : String)
  | bool (b : Bool)
  | int (n : Int)
  | float (x : Number.Double)
deriving DecidableEq

structure DataType where
  isArray : Bool
  primitive : Primitive
  reference : String
  enumeration : Option (List EnumMember)
deriving DecidableEq

def DataType.blank : DataType :=
  ⟨false, .empty, "", none⟩

end ApiCatalog
