import ApiCatalog.Number.Double

/-!
JSON texts as trees, what can be wrong with a text, and lists of entries in the order in which keys
first appear. Whole numbers and doubles are told apart.
-/

namespace ApiCatalog

/-- Gives a key a value: in place if the key is present, at the end if not. The first key stays. -/
def putEntry {κ α : Type} (same : κ → κ → Bool) (key : κ) (value : α) : List (κ × α) → List (κ × α)
  | [] => [(key, value)]
  | (k, v) :: rest =>
    if same k key then (k, value) :: rest else (k, v) :: putEntry same key value rest

def findEntry {κ α : Type} (test : κ → Bool) (entries : List (κ × α)) : Option α :=
  (entries.find? fun entry => test entry.1).map (·.2)

/-- Entries written one after another, so that the last value of a key stands at its first place. -/
def collectEntries {κ α : Type} (same : κ → κ → Bool) (entries : List (κ × α)) : List (κ × α) :=
  entries.foldl (fun kept entry => putEntry same entry.1 entry.2 kept) []

inductive Json
  | null
  | bool (b : Bool)
  | int (n : Int)
  | float (x : Number.Double)
  | string (s : String)
  | list (items : List Json)
  | object (members : List (String × Json))
deriving Inhabited

namespace Json

inductive Mistake
  | expectingValue
  | expectingName
  | expectingColon
  | expectingComma
  | extraData
  | unterminatedString
  | controlCharacter
  | badEscape
  | badUnicodeEscape
  | byteOrderMark
deriving DecidableEq, Repr

def Mistake.message : Mistake → String
  | .expectingValue => "Expecting value"
  | .expectingName => "Expecting property name enclosed in double quotes"
  | .expectingColon => "Expecting ':' delimiter"
  | .expectingComma => "Expecting ',' delimiter"
  | .extraData => "Extra data"
  | .unterminatedString => "Unterminated string starting at"
  | .controlCharacter => "Invalid control character at"
  | .badEscape => "Invalid \\escape"
  | .badUnicodeEscape => "Invalid \\uXXXX escape"
  | .byteOrderMark => "Unexpected UTF-8 BOM (decode using utf-8-sig)"

structure SyntaxError where
  mistake : Mistake
  line : Nat
  column : Nat
  offset : Nat
deriving DecidableEq, Repr

def SyntaxError.after (mistake : Mistake) (read : List Char) : SyntaxError where
  mistake := mistake
  line := read.count '\n' + 1
  column := (read.reverse.takeWhile (· != '\n')).length + 1
  offset := read.length

def SyntaxError.message (e : SyntaxError) : String :=
  e.mistake.message ++ ": line " ++ toString e.line ++ " column " ++ toString e.column ++
    " (char " ++ toString e.offset ++ ")"

end Json
end ApiCatalog
