import ApiCatalog.Document.Access
import ApiCatalog.Document.Display
import ApiCatalog.Json.Reader
import ApiCatalog.Yaml.Document

/-! Documents read from text, as JSON or as YAML. -/

namespace ApiCatalog.Load

inductive Hint
  | json
  | yaml
  | unknown
deriving DecidableEq, Repr

def Hint.ofWord (word : String) : Hint :=
  if word = "json" then .json else if word = "yaml" then .yaml else .unknown

def asDocument (value : Value) : Except Fault Value :=
  if value.isMap then .ok value else .error (.document (.notMapping value.kindName))

def readYaml (json : Option Json.SyntaxError) (text : String) : Except Fault Value :=
  match Yaml.load text.toList with
  | .ok value => asDocument value
  | .error .malformed => .error (.document (.unreadable json))
  | .error (.fault fault) => .error fault

def readDocument (text : String) (hint : Hint) : Except Fault Value :=
  if hint = .yaml then readYaml none text
  else
    match Json.parse text.toList with
    | .ok json => asDocument (Value.ofJson json)
    | .error .numberTooLong => .error .noValue
    | .error (.malformed error) =>
      if hint = .json then .error (.document (.badJson error)) else readYaml (some error) text

mutual

def withinLimits : Value → Bool
  | .int n => Number.withinDigitLimit n
  | .list items | .set items => allWithinLimits items
  | .pair first second => withinLimits first && withinLimits second
  | .map entries => entriesWithinLimits entries
  | .knot _ body => withinLimits body
  | _ => true

def allWithinLimits : List Value → Bool
  | [] => true
  | item :: items => withinLimits item && allWithinLimits items

def entriesWithinLimits : List (Value × Value) → Bool
  | [] => true
  | (key, value) :: entries =>
    withinLimits key && withinLimits value && entriesWithinLimits entries

end

def declaredVersion (document : Value) : Except Fault (Option String) := do
  match ← document.field "swagger" with
  | .null => return none
  | version => if withinLimits version then return some version.shown else .error .noValue

end ApiCatalog.Load
