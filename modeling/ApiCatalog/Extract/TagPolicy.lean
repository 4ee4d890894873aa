import ApiCatalog.Document.Access
import ApiCatalog.Model.Check
import ApiCatalog.Naming.Case

/-!
The rules by which tags become modules. Documents name their tags in various ways: some repeat the
name as the description, some tag operations with a variant of it, and some put a label in another
script in the place of the name.
-/

namespace ApiCatalog

structure TagPolicy where
  /-- Leaves out tags whose description only repeats the name. -/
  skipPlaceholders : Bool
  /-- The ending that does not count when name and description are compared. -/
  controllerSuffix : String
  matchName : Bool
  matchLowerName : Bool
  matchLowerDescription : Bool
  matchDashDescription : Bool
  /-- Takes the description for the name where the name is in another script. -/
  swapNonLatin : Bool
deriving DecidableEq

namespace TagPolicy

def standard : TagPolicy :=
  ⟨true, "-controller", true, true, true, true, true⟩

def check : Value → Checked TagPolicy :=
  Check.record fun entries =>
    TagPolicy.mk
      <$> Check.field entries "skip_placeholder_tags" true Check.bool
      <*> Check.field entries "controller_suffix" "-controller" Check.text
      <*> Check.field entries "match_name" true Check.bool
      <*> Check.field entries "match_lower_name" true Check.bool
      <*> Check.field entries "match_lower_description" true Check.bool
      <*> Check.field entries "match_dash_description" true Check.bool
      <*> Check.field entries "swap_non_latin_names" true Check.bool

def toJson (policy : TagPolicy) : Json :=
  .object [("skip_placeholder_tags", .bool policy.skipPlaceholders),
    ("controller_suffix", .string policy.controllerSuffix),
    ("match_name", .bool policy.matchName), ("match_lower_name", .bool policy.matchLowerName),
    ("match_lower_description", .bool policy.matchLowerDescription),
    ("match_dash_description", .bool policy.matchDashDescription),
    ("swap_non_latin_names", .bool policy.swapNonLatin)]

end TagPolicy

namespace Tag

def name (tag : Value) : Except Fault Value :=
  (·.orElse .emptyText) <$> tag.field "name"

def description (tag : Value) : Except Fault Value :=
  (·.orElse .emptyText) <$> tag.field "description"

def dashForm (value : Value) : Except Fault Value := do
  return .ofChars (Naming.dashCase (← value.asReplaceable).toList)

def bareForm (ending : String) (value : Value) : Except Fault (List Char) := do
  return Naming.dashDefault (← value.asReplaceable).toList ending.toList

def lowerForm : Value → Except Fault Value
  | .text s => .ok (.ofChars (Text.lower s.toList))
  | .bytes content =>
    .ok (.bytes (content.map fun byte => if 65 ≤ byte ∧ byte ≤ 90 then byte + 32 else byte))
  | _ => .error .noOperation

/-- Whether a member of a name is a text of letters only, and of another script. A member of
several characters has no script. -/
def nonLatinMember : Value → Except Fault Bool
  | .text s =>
    if s = "" || !s.toList.all Text.isLetter then .ok false
    else if s.length = 1 then .ok (Naming.hasNonLatin s.toList)
    else .error .wrongKind
  -- Bytes can be asked whether they are letters, but not of what script.
  | .bytes content =>
    if !content.isEmpty && content.all fun byte => (Char.ofNat byte.toNat).isAlpha then
      .error .wrongKind
    else .ok false
  | _ => .error .noOperation

def anyNonLatin : List Value → Except Fault Bool
  | [] => .ok false
  | member :: rest => do if ← nonLatinMember member then return true else anyNonLatin rest

def hasNonLatin (value : Value) : Except Fault Bool := do
  anyNonLatin (← value.members)

def camelForm (value : Value) : Except Fault String :=
  match value.opened with
  | .text s => .ok (String.ofList (Naming.camelCase s.toList))
  | .list _ => .error .noOperation
  | .set members => camelFault members
  | .map entries => camelFault (entries.map (·.1))
  | _ => .error .wrongKind
where
  /-- The fault of a collection: one that holds a joint of words is asked for its words. -/
  camelFault (members : List Value) : Except Fault String :=
    if members.any fun member => Value.same (.text "-") member || Value.same (.text " ") member then
      .error .noOperation
    else .error .wrongKind

end Tag

namespace TagPolicy

def isPlaceholder (policy : TagPolicy) (tag : Value) : Except Fault Bool := do
  if !policy.skipPlaceholders then return false
  else
    let name ← Tag.name tag
    let description ← Tag.description tag
    let bareName ← Tag.bareForm policy.controllerSuffix name
    let bareDescription ← Tag.bareForm policy.controllerSuffix description
    return bareName == bareDescription

def matchKeys (policy : TagPolicy) (tag : Value) : Except Fault (List Value) := do
  let name ← Tag.name tag
  let description ← Tag.description tag
  let plain ←
    if policy.matchName then (if name.isKey then .ok [name] else .error .wrongKind) else .ok []
  let lower ← if policy.matchLowerName then List.singleton <$> Tag.lowerForm name else .ok []
  let lowerDescription ←
    if policy.matchLowerDescription && description.truthy then
      List.singleton <$> Tag.lowerForm description
    else .ok []
  let dashDescription ←
    if policy.matchDashDescription && description.truthy then
      List.singleton <$> Tag.dashForm description
    else .ok []
  return plain ++ lower ++ lowerDescription ++ dashDescription

def identify (policy : TagPolicy) (tag : Value) : Except Fault (String × Value) := do
  let name ← Tag.name tag
  let description ← Tag.description tag
  let swapped ←
    if policy.swapNonLatin && description.truthy then Tag.hasNonLatin name else .ok false
  -- The label in the other script becomes the description.
  if swapped then return (← Tag.camelForm description, name)
  else return (← Tag.camelForm name, description)

end TagPolicy

end ApiCatalog
