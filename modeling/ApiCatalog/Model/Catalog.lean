import ApiCatalog.Model.DataType
import ApiCatalog.Text.Pieces

/-! The catalogue of an interface description: modules of operations, and the classes they use. -/

namespace ApiCatalog

inductive Location
  | query
  | path
  | body
  | header
  | formData
deriving DecidableEq, Repr

def Location.name : Location → String
  | .query => "query"
  | .path => "path"
  | .body => "body"
  | .header => "header"
  | .formData => "formData"

def Location.all : List Location :=
  [.query, .path, .body, .header, .formData]

def Location.ofName? (name : String) : Option Location :=
  Location.all.find? fun location => location.name == name

theorem Location.ofName?_name (location : Location) :
    Location.ofName? location.name = some location := by
  cases location <;> decide

structure Property where
  name : String
  description : String
  required : Bool
  dataType : DataType
  location : Option Location
deriving DecidableEq

structure Interface where
  name : String
  description : String
  method : String
  path : String
  consumes : List String
  response : DataType
  parameters : List Property
deriving DecidableEq

structure ApiModule where
  name : String
  description : String
  interfaces : List Interface
deriving DecidableEq

structure BaseClass where
  name : String
  description : String
  properties : List Property
deriving DecidableEq

def justName (name : String) : String :=
  String.ofList (Text.before '<' name.toList)

def BaseClass.justName (base : BaseClass) : String :=
  ApiCatalog.justName base.name

structure Catalog where
  name : String
  modules : List ApiModule
  baseClasses : List BaseClass
deriving DecidableEq

end ApiCatalog
