import ApiCatalog.Json.Basic
import ApiCatalog.Model.Flaw

/-! Why an operation on a document fails, as causes; the wording of the reported problems. -/

namespace ApiCatalog

inductive DocumentProblem
  | missing (path : String)
  | blank (path : String)
  | badJson (error : Json.SyntaxError)
  | unreadable (json : Option Json.SyntaxError)
  | notMapping (kind : String)

inductive ConfigProblem
  | missing (path : String)
  | badJson (path : String) (error : Json.SyntaxError)
  | badYaml (path : String)
  | invalid (path : String) (details : List Detail)

inductive Fault
  /-- A value does not offer the operation asked of it. -/
  | noOperation
  /-- An operation meets an operand of a kind that it does not take. -/
  | wrongKind
  /-- A whole number is beyond the range of doubles. -/
  | overflow
  /-- A number or a date has no value: too many digits, or outside its range. -/
  | noValue
  /-- Bytes are no UTF-8 text. -/
  | notUtf8
  /-- A word stands for no truth value. -/
  | unknownWord
  /-- A text ends where a character is needed. -/
  | noCharacter
  /-- A record has flaws. -/
  | invalid (kind : RecordKind) (details : List Detail)
  | document (problem : DocumentProblem)
  | config (problem : ConfigProblem)

inductive Cause
  | json
  | yaml
  | record (details : List Detail)

def DocumentProblem.message : DocumentProblem → String
  | .missing path => "Swagger file not found: " ++ path
  | .blank path => "Swagger file is empty: " ++ path
  | .badJson error => "Invalid JSON: " ++ error.message
  | .unreadable json =>
    "Failed to parse document as JSON or YAML" ++
      (match json with
        | none => ""
        | some error => "\n  JSON error: " ++ error.message) ++ "\n  YAML error: "
  | .notMapping kind => "Swagger document must be a JSON/YAML object (got " ++ kind ++ ")"

def DocumentProblem.cause? : DocumentProblem → Option Cause
  | .badJson _ => some .json
  | .unreadable _ => some .yaml
  | _ => none

def ConfigProblem.message : ConfigProblem → String
  | .missing path => "Config file not found: " ++ path
  | .badJson path error => "Invalid config at " ++ path ++ ": " ++ error.message
  | .badYaml path => "Invalid config at " ++ path ++ ": "
  | .invalid path _ => "Invalid config at " ++ path ++ ": "

def ConfigProblem.cause? : ConfigProblem → Option Cause
  | .missing _ => none
  | .badJson _ _ => some .json
  | .badYaml _ => some .yaml
  | .invalid _ details => some (.record details)

def Checked.orFault {α : Type} (kind : RecordKind) : Checked α → Except Fault α
  | .valid value => .ok value
  | .flawed details => .error (.invalid kind details)

end ApiCatalog
