import ApiCatalog.Naming.Case
import ApiCatalog.Text.CharClass

/-!
Names taken from paths. A path is a row of segments between slashes; operations of one module
share a leading row, which their names leave out.
-/

namespace ApiCatalog.Naming

def segments (path : List Char) : List (List Char) :=
  (path.splitOn '/').filter fun segment => !segment.isEmpty

def dropLead (path lead : List Char) : List Char :=
  match segments lead with
  | [] => path
  | row =>
    match Text.dropStart? row (segments path) with
    | some rest => '/' :: List.intercalate ['/'] rest
    | none => path

/-- Runs dashed words together: dashes before a letter, a numeral or a low line vanish and make it
a capital; others stay. `dashes` counts the dashes just read. -/
def joinDashed (dashes : Nat) : List Char → List Char
  | [] => List.replicate dashes '-'
  | c :: rest =>
    if c = '-' then joinDashed (dashes + 1) rest
    else if dashes = 0 then c :: joinDashed 0 rest
    else if Text.isWordChar c then Text.upperChar c ++ joinDashed 0 rest
    else List.replicate dashes '-' ++ c :: joinDashed 0 rest

def parameterName? (segment : List Char) : Option (List Char) :=
  match Text.dropStart? ['\x7b'] segment with
  | some rest => Text.dropEnd? ['\x7d'] rest
  | none => none

def segmentWord (segment : List Char) : List Char :=
  -- Dashes are joined inside the braces as well.
  let joined := joinDashed 0 segment
  match parameterName? joined with
  | some name => 'B' :: 'y' :: capitalize name
  | none => capitalize joined

def routeWords (path lead : List Char) : List Char :=
  (segments (Text.before '.' (dropLead path lead))).flatMap segmentWord

def routeName (path method lead : List Char) : List Char :=
  method ++ routeWords path lead

/-- The longest row that starts a row of segments and all others, and is shorter than each. -/
def sharedRow : List (List Char) → List (List (List Char)) → List (List Char)
  | segment :: next :: row, others =>
    -- A segment is shared only if every path goes on behind it.
    if others.all fun other => decide (2 ≤ other.length) && other.head? == some segment then
      segment :: sharedRow (next :: row) (others.map List.tail)
    else []
  | _, _ => []

/-- The leading path that all paths share. No path's last segment is part of it. -/
def commonLead (paths : List (List Char)) : List Char :=
  match paths.map fun path => path.splitOn '/' with
  | [] => []
  | first :: others => List.intercalate ['/'] (sharedRow first others)

def dropSlash : List Char → List Char
  | '/' :: rest => rest
  | path => path

end ApiCatalog.Naming
