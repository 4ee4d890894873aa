import ApiCatalog.Extract.Catalog
import ApiCatalog.Load.Content
import ApiCatalog.Text.Casing

/-!
Documents and settings read from files, and the names of files: the form in which they are shown,
and their endings.
-/

namespace ApiCatalog.Load

def pathParts (path : List Char) : List (List Char) :=
  (path.splitOn '/').filter fun part => !(part.isEmpty || part == ['.'])

/-- The root of a path: one slash, or exactly two if there are two. -/
def pathRoot (path : List Char) : List Char :=
  match (path.takeWhile (· == '/')).length with
  | 0 => []
  | 2 => ['/', '/']
  | _ => ['/']

def shownPath (path : String) : String :=
  let shown := pathRoot path.toList ++ List.intercalate ['/'] (pathParts path.toList)
  if shown.isEmpty then "." else String.ofList shown

/-- The ending of a file name in small letters: from the last point on, if something stands before
and behind it. -/
def fileEnding (path : String) : String :=
  let name := (pathParts path.toList).getLastD []
  let tail := (name.reverse.takeWhile (· != '.')).reverse
  -- A point at the beginning of a name belongs to the name.
  let front := name.length - tail.length - 1
  if tail.isEmpty || front = 0 then "" else String.ofList (Text.lower ('.' :: tail))

inductive Source
  | absent
  | bytes (content : ByteArray)

def unifyBreaks : List Char → List Char
  | [] => []
  | '\r' :: '\n' :: rest => '\n' :: unifyBreaks rest
  | '\r' :: rest => '\n' :: unifyBreaks rest
  | c :: rest => c :: unifyBreaks rest

def fileText (content : ByteArray) : Except Fault String :=
  match String.fromUTF8? content with
  | some text => .ok (String.ofList (unifyBreaks text.toList))
  | none => .error .notUtf8

def endingHint (path : String) : Hint :=
  let ending := fileEnding path
  if ending = ".json" then .json
  else if ending = ".yaml" ∨ ending = ".yml" then .yaml
  else .unknown

def document (path : String) (source : Source) : Except Fault Value :=
  match source with
  | .absent => .error (.document (.missing path))
  | .bytes content => do
    let text ← fileText content
    if Text.allBlank text.toList then .error (.document (.blank path))
    else readDocument text (endingHint path)

def settingsValue (path text : String) : Except Fault Value :=
  if fileEnding path = ".json" then
    match Json.parse text.toList with
    | .ok json => .ok (Value.ofJson json)
    | .error .numberTooLong => .error .noValue
    | .error (.malformed error) => .error (.config (.badJson (shownPath path) error))
  else
    match Yaml.load text.toList with
    | .ok value => .ok value
    | .error .malformed => .error (.config (.badYaml (shownPath path)))
    | .error (.fault fault) => .error fault

def settings (path : String) (source : Source) : Except Fault Settings :=
  match source with
  | .absent => .error (.config (.missing (shownPath path)))
  | .bytes content => do
    let text ← fileText content
    let value ← settingsValue path text
    -- An empty file, or one that says null, false or zero, changes nothing.
    match Settings.check (value.orElse .emptyMap) with
    | .valid settings => return settings
    | .flawed details => .error (.config (.invalid (shownPath path) details))

def catalog (settings : Settings) (path : String) (source : Source) : Traced Catalog := do
  Catalog.ofDocument settings (← document path source)

end ApiCatalog.Load
