import ApiCatalog.Text.CaseTable
import ApiCatalog.Text.CharClass

/-!
Capital and small letters. A character may have a capital of several characters, and a capital
sigma at the end of a word becomes the final small sigma.
-/

namespace ApiCatalog.Text

def mapCase (sequences : List (Nat × List Nat)) (runs : List CaseRun) (c : Char) : List Char :=
  match sequences.find? (·.1 == c.toNat) with
  | some (_, points) => points.map Char.ofNat
  | none => [((runs.findSome? (·.image? c.toNat)).map Char.ofNat).getD c]

def upperChar (c : Char) : List Char :=
  if c.toNat < 128 then [c.toUpper] else mapCase upperSequences upperRuns c

def lowerChar (c : Char) : List Char :=
  if c.toNat < 128 then [c.toLower] else mapCase lowerSequences lowerRuns c

def isCased (c : Char) : Bool :=
  if c.toNat < 128 then isAsciiLetter c else casedRanges.has c.toNat

def isCaseIgnorable (c : Char) : Bool :=
  if c.toNat < 128 then
    c.toNat == 0x27 || c == '.' || c == ':' || c == '^' || c.toNat == 0x60
  else caseIgnorableRanges.has c.toNat

def upper (cs : List Char) : List Char :=
  cs.flatMap upperChar

def casedAhead (cs : List Char) : Bool :=
  match cs.dropWhile isCaseIgnorable with
  | [] => false
  | c :: _ => isCased c

/-- Small letters for the rest of a text; `casedBehind` says whether the last character that
counts before it has a case. -/
def lowerAfter (casedBehind : Bool) : List Char → List Char
  | [] => []
  | c :: rest =>
    -- A sigma is final if a letter stands before it and none behind.
    (if c = 'Σ' then [if casedBehind && !casedAhead rest then 'ς' else 'σ'] else lowerChar c) ++
      lowerAfter (if isCaseIgnorable c then casedBehind else isCased c) rest

def lower (cs : List Char) : List Char :=
  lowerAfter false cs

end ApiCatalog.Text
