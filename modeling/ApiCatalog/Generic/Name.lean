import ApiCatalog.Generic.Notation
import ApiCatalog.Number.Integer

/-!
Names of types in their two forms. The use form of a generic name is a type expression in angle
brackets whose parts are qualified by the origin of the document; the declaration form numbers the
parameters.
-/

namespace ApiCatalog.Generic

def definitionsLead : List Char := "#/definitions/".toList

def namespaceLead : List Char := "defs.".toList

def definitionName (name : List Char) : List Char :=
  (Text.dropStart? definitionsLead name).getD name

def qualify (origin name : List Char) : List Char :=
  if origin.isEmpty then namespaceLead ++ name else namespaceLead ++ origin ++ '.' :: name

def isQualified (name : List Char) : Bool :=
  namespaceLead.isPrefixOf name

def unqualify (origin reference : List Char) : List Char :=
  match Text.dropStart? namespaceLead reference with
  | none => reference
  | some name =>
    if origin.isEmpty then name else (Text.dropStart? (origin ++ ['.']) name).getD name

def bracket (outer : List Char) (arguments : List (List Char)) : List Char :=
  outer ++ '<' :: (List.intercalate [','] arguments ++ ['>'])

def declarationForm (outer : List Char) (arity : Nat) : List Char :=
  bracket outer ((List.range arity).map fun index => 'T' :: Number.digitsOf index)

def listName : List Char := "List".toList

def plainNames : List (List Char) :=
  ["string".toList, "number".toList, "boolean".toList, "object".toList, "any".toList]

def useOuter (origin outer : List Char) : List Char :=
  if outer = listName then "Array".toList
  else if isQualified outer then outer
  else qualify origin outer

def useLeaf (origin argument : List Char) : List Char :=
  if argument = "long".toList then "number".toList
  else if argument ∈ plainNames ∨ isQualified argument = true then argument
  else qualify origin argument

theorem length_definitionName_le (name : List Char) :
    (definitionName name).length ≤ name.length := by
  unfold definitionName
  cases cut : Text.dropStart? definitionsLead name with
  | none => simp
  | some rest => simp [(Text.dropStart?_eq_some_iff _ _ _).mp cut]

/-- The use form of a name. A name that is no generic one stays as it is, but for the lead of a
reference. -/
def useName (origin name : List Char) : List Char :=
  match _parted : parts (definitionName name) with
  | none => definitionName name
  | some (outer, arguments) =>
    bracket (useOuter origin outer) (arguments.attach.map fun ⟨argument, _member⟩ =>
      if (split argument).isSome then useName origin argument else useLeaf origin argument)
termination_by name.length
decreasing_by
  -- An argument lies inside the guillemets, so it is shorter than the name.
  exact Nat.lt_of_lt_of_le (length_lt_of_parts _parted argument _member)
    (length_definitionName_le name)

def declarationName (name : List Char) : List Char :=
  match parts (definitionName name) with
  | none => definitionName name
  | some (outer, arguments) => declarationForm outer arguments.length

/-- The argument of a generic definition to which its properties may refer back. The argument of
a list in the place of the payload counts instead of the list. -/
def selfArgument (name : List Char) : List Char :=
  match split name with
  | none => []
  | some (_, payload) =>
    match split payload with
    | some (outer, inner) => if outer = listName then inner else payload
    | none => payload

end ApiCatalog.Generic
