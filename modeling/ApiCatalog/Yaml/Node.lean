import ApiCatalog.Json.Basic
import ApiCatalog.Yaml.Resolve
import ApiCatalog.Yaml.TokenStream

/-!
The nodes of a YAML document, read from its tokens. Nodes are numbered in the order in which they
begin, and collections refer to their members by number. An alias stands for the node that its
anchor names, which may be a collection around it.
-/

namespace ApiCatalog.Yaml

inductive Node
  | scalar (tag : Tag) (text : List Char)
  | sequence (tag : Tag) (items : List Nat)
  | mapping (tag : Tag) (entries : List (Nat × Nat))

def Node.tag : Node → Tag
  | .scalar tag _ | .sequence tag _ | .mapping tag _ => tag

def Node.withTag (tag : Tag) : Node → Node
  | .scalar _ text => .scalar tag text
  | .sequence _ items => .sequence tag items
  | .mapping _ entries => .mapping tag entries

structure ReadState where
  tokens : List Token
  /-- Why the tokens end if they do not end with the text. -/
  failure : Option Failure
  nodes : Array Node
  /-- The anchors with the numbers of the nodes that they name. -/
  anchors : List (List Char × Nat)
  handles : List (List Char × List Char)

abbrev Read (α : Type) := StateT ReadState (Except Failure) α

def malformed {α : Type} : Read α :=
  throw .malformed

def peekToken : Read Token := do
  let s ← get
  match s.tokens with
  | token :: _ => return token
  | [] => throw (s.failure.getD .malformed)

def skipToken : Read Unit := do
  discard peekToken
  modify fun s => { s with tokens := s.tokens.tail }

def expectToken (token : Token) : Read Unit := do
  if (← peekToken) = token then skipToken else malformed

def tagOf (handle : Option (List Char)) (suffix : List Char) : Read (List Char) := do
  match handle with
  | none => return suffix
  | some handle =>
    match findEntry (· == handle) (← get).handles with
    | some lead => return lead ++ suffix
    | none => malformed

def readTag : Read (Option (Option (List Char) × List Char)) := do
  match ← peekToken with
  | .tag handle suffix =>
    skipToken
    return some (handle, suffix)
  | _ => return none

def readAnchor : Read (Option (List Char)) := do
  match ← peekToken with
  | .anchor name =>
    skipToken
    return some name
  | _ => return none

def readProperties : Read (Option (List Char) × Option (List Char)) := do
  let anchor ← readAnchor
  let tag ← readTag
  -- An anchor may also stand behind the tag, but not on both sides of it.
  let anchor ← if anchor.isNone && tag.isSome then readAnchor else pure anchor
  return (anchor, ← tag.mapM fun (handle, suffix) => tagOf handle suffix)

def addNode (anchor : Option (List Char)) (node : Node) : Read Nat := do
  let number := (← get).nodes.size
  match anchor with
  | none => pure ()
  | some name =>
    if (← get).anchors.any (·.1 == name) then malformed
    else modify fun s => { s with anchors := (name, number) :: s.anchors }
  modify fun s => { s with nodes := s.nodes.push node }
  return number

def complete (number : Nat) (node : Node) : Read Nat := do
  modify fun s => { s with nodes := s.nodes.setIfInBounds number node }
  return number

def addEmpty : Read Nat :=
  addNode none (.scalar (.core .null) [])

def aliasNode (name : List Char) : Read Nat := do
  match findEntry (· == name) (← get).anchors with
  | some number => return number
  | none => malformed

def scalarTag (tag : Option (List Char)) (plain : Bool) (text : List Char) : Tag :=
  match tag with
  | none => if plain then .core (impliedKind text) else .core .text
  | some written => if written = ['!'] then .core (impliedKind text) else Tag.ofName written

def collectionTag (tag : Option (List Char)) (kind : Kind) : Tag :=
  match tag with
  | none => .core kind
  | some written => if written = ['!'] then .core kind else Tag.ofName written

/-- Reads the items of a sequence. The node begins before them, so that they can refer to it. -/
def addSequence (anchor tag : Option (List Char)) (readItems : Read (List Nat)) : Read Nat := do
  let tag := collectionTag tag .sequence
  let number ← addNode anchor (.sequence tag [])
  complete number (.sequence tag (← readItems))

def addMapping (anchor tag : Option (List Char)) (readEntries : Read (List (Nat × Nat))) :
    Read Nat := do
  let tag := collectionTag tag .mapping
  let number ← addNode anchor (.mapping tag [])
  complete number (.mapping tag (← readEntries))

def noContent (anchor tag : Option (List Char)) : Read Nat :=
  if anchor.isSome || tag.isSome then addNode anchor (.scalar (scalarTag tag true []) [])
  else malformed

mutual

/-- A node. `block` admits block collections, `indentless` a sequence that is not indented. -/
def readNode : Nat → Bool → Bool → Read Nat
  | 0, _, _ => malformed
  | fuel + 1, block, indentless => do
    match ← peekToken with
    | .alias name =>
      skipToken
      aliasNode name
    | _ =>
      let (anchor, tag) ← readProperties
      match ← peekToken with
      | .scalar plain text =>
        skipToken
        addNode anchor (.scalar (scalarTag tag plain text) text)
      | .flowSequenceStart => addSequence anchor tag do
        skipToken
        readFlowItems fuel true
      | .flowMappingStart => addMapping anchor tag do
        skipToken
        readFlowEntries fuel true
      | .blockSequenceStart =>
        if block then
          addSequence anchor tag do
            skipToken
            readBlockItems fuel
        else noContent anchor tag
      | .blockMappingStart =>
        if block then
          addMapping anchor tag do
            skipToken
            readBlockEntries fuel
        else noContent anchor tag
      | .blockEntry =>
        if indentless then addSequence anchor tag (readIndentlessItems fuel)
        else noContent anchor tag
      | _ => noContent anchor tag

def readBlockItems : Nat → Read (List Nat)
  | 0 => malformed
  | fuel + 1 => do
    match ← peekToken with
    | .blockEntry =>
      skipToken
      let item ←
        match ← peekToken with
        | .blockEntry | .blockEnd => addEmpty
        | _ => readNode fuel true false
      return item :: (← readBlockItems fuel)
    | _ =>
      expectToken .blockEnd
      return []

def readIndentlessItems : Nat → Read (List Nat)
  | 0 => malformed
  | fuel + 1 => do
    match ← peekToken with
    | .blockEntry =>
      skipToken
      let item ←
        match ← peekToken with
        | .blockEntry | .key | .value | .blockEnd => addEmpty
        | _ => readNode fuel true false
      return item :: (← readIndentlessItems fuel)
    | _ => return []

def readBlockEntries : Nat → Read (List (Nat × Nat))
  | 0 => malformed
  | fuel + 1 => do
    match ← peekToken with
    | .key =>
      skipToken
      let key ←
        match ← peekToken with
        | .key | .value | .blockEnd => addEmpty
        | _ => readNode fuel true true
      let value ← readBlockValue fuel
      return (key, value) :: (← readBlockEntries fuel)
    | _ =>
      expectToken .blockEnd
      return []

def readBlockValue : Nat → Read Nat
  | 0 => malformed
  | fuel + 1 => do
    match ← peekToken with
    | .value =>
      skipToken
      match ← peekToken with
      | .key | .value | .blockEnd => addEmpty
      | _ => readNode fuel true true
    | _ => addEmpty

def readFlowItems : Nat → Bool → Read (List Nat)
  | 0, _ => malformed
  | fuel + 1, first => do
    match ← peekToken with
    | .flowSequenceEnd =>
      skipToken
      return []
    | _ =>
      if !first then expectToken .flowEntry
      match ← peekToken with
      | .flowSequenceEnd =>
        skipToken
        return []
      | .key =>
        skipToken
        let item ← addMapping none none do
          let key ←
            match ← peekToken with
            | .value | .flowEntry | .flowSequenceEnd => addEmpty
            | _ => readNode fuel false false
          return [(key, ← readFlowValue fuel)]
        return item :: (← readFlowItems fuel false)
      | _ =>
        let item ← readNode fuel false false
        return item :: (← readFlowItems fuel false)

def readFlowValue : Nat → Read Nat
  | 0 => malformed
  | fuel + 1 => do
    match ← peekToken with
    | .value =>
      skipToken
      match ← peekToken with
      | .flowEntry | .flowSequenceEnd | .flowMappingEnd => addEmpty
      | _ => readNode fuel false false
    | _ => addEmpty

def readFlowEntries : Nat → Bool → Read (List (Nat × Nat))
  | 0, _ => malformed
  | fuel + 1, first => do
    match ← peekToken with
    | .flowMappingEnd =>
      skipToken
      return []
    | _ =>
      if !first then expectToken .flowEntry
      match ← peekToken with
      | .flowMappingEnd =>
        skipToken
        return []
      | .key =>
        skipToken
        let key ←
          match ← peekToken with
          | .value | .flowEntry | .flowMappingEnd => addEmpty
          | _ => readNode fuel false false
        let value ← readFlowValue fuel
        return (key, value) :: (← readFlowEntries fuel false)
      | _ =>
        let key ← readNode fuel false false
        let value ← addEmpty
        return (key, value) :: (← readFlowEntries fuel false)

end

def standardHandles : List (List Char × List Char) :=
  [(['!'], ['!']), (['!', '!'], coreLead)]

def readDirectives (versioned : Bool) (handles : List (List Char × List Char)) :
    List Token → Except Failure (List (List Char × List Char) × List Token)
  | .directive (.version major) :: rest =>
    if versioned || major != 1 then .error .malformed else readDirectives true handles rest
  | .directive (.tagHandle handle lead) :: rest =>
    if handles.any (·.1 == handle) then .error .malformed
    else readDirectives versioned ((handle, lead) :: handles) rest
  | .directive .other :: rest => readDirectives versioned handles rest
  | rest => .ok (handles, rest)

def readStart : Read Unit := do
  let s ← get
  let (handles, rest) ← readDirectives false [] s.tokens
  set { s with tokens := rest, handles := handles ++ standardHandles }
  expectToken .documentStart

def readContent (fuel : Nat) : Read Nat := do
  match ← peekToken with
  | .directive _ | .documentStart | .documentEnd | .streamEnd => addEmpty
  | _ => readNode fuel true false

def readRoot (fuel : Nat) : Read (Option Nat) := do
  match ← peekToken with
  | .streamEnd => return none
  | .directive _ | .documentStart =>
    readStart
    some <$> readContent fuel
  | _ => some <$> readNode fuel true false

def readStream (fuel : Nat) : Read (Option Nat) := do
  let root ← readRoot fuel
  modify fun s => { s with tokens := s.tokens.dropWhile (· == .documentEnd) }
  match ← peekToken with
  | .streamEnd => return root
  | _ =>
    -- A second document is one too many as soon as it has begun.
    readStart
    malformed

def Node.ofText (text : List Char) : Except Failure (Option Nat × Array Node) := do
  let (tokens, failure) := tokensOf text
  let (root, s) ←
    (readStream (4 * tokens.length + 4)).run ⟨tokens, failure, #[], [], standardHandles⟩
  return (root, s.nodes)

end ApiCatalog.Yaml
