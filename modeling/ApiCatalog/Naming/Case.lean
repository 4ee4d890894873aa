import ApiCatalog.Text.Casing
import ApiCatalog.Text.Pieces

/-! Spellings of a name: capitalised, in camel case, and in small letters joined by dashes. -/

namespace ApiCatalog.Naming

def capitalize : List Char → List Char
  | [] => []
  | c :: rest => Text.upperChar c ++ rest

def uncapitalize : List Char → List Char
  | [] => []
  | c :: rest => Text.lower [c] ++ rest

def wordsOf (name : List Char) : List (List Char) :=
  if name.contains '-' then name.splitOn '-'
  else if name.contains ' ' then name.splitOn ' '
  else [name]

def camelCase (name : List Char) : List Char :=
  uncapitalize (((wordsOf name).filter fun word => !word.isEmpty).flatMap capitalize)

def isAsciiCapital (c : Char) : Bool :=
  decide ('A' ≤ c) && decide (c ≤ 'Z')

def dashCapitals (name : List Char) : List Char :=
  name.flatMap fun c => if isAsciiCapital c then ['-', c.toLower] else [c]

def dropLeadingDash : List Char → List Char
  | '-' :: rest => rest
  | text => text

def dashCase (name : List Char) : List Char :=
  dropLeadingDash (dashCapitals (name.filter (· != ' ')))

def dashDefault (name ending : List Char) : List Char :=
  (Text.dropEnd? ending (dashCase name)).getD (dashCase name)

def hasNonLatin (text : List Char) : Bool :=
  text.any fun c => Text.isLetter c && !Text.isLatinLetter c

end ApiCatalog.Naming
