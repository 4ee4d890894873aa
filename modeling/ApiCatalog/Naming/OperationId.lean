import ApiCatalog.Text.Pieces

/-!
Names taken from operation ids. Generators that meet an id twice add a clause `Using` with the
method to it; the name is what stands before the last such clause.
-/

namespace ApiCatalog.Naming

def clauseWord : List Char := ['U', 's', 'i', 'n', 'g']

def opensClause (text : List Char) : Bool :=
  match Text.dropStart? clauseWord text with
  | some (_ :: _) => true
  | _ => false

def beforeLastClause : List Char → Option (List Char)
  | [] => none
  | c :: rest =>
    match beforeLastClause rest with
    | some front => some (c :: front)
    | none => if opensClause (c :: rest) then some [] else none

def dropClause : List Char → List Char
  | [] => []
  | c :: rest => c :: (beforeLastClause rest).getD rest

/-- The name that an operation id gives. A final line break is kept; a text of several lines is no
id and stays as it is. -/
def operationName (id : List Char) : List Char :=
  match Text.dropEnd? ['\n'] id with
  | some line => if line.contains '\n' then id else dropClause line ++ ['\n']
  | none => if id.contains '\n' then id else dropClause id

end ApiCatalog.Naming
