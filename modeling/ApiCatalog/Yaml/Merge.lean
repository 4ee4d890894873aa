import ApiCatalog.Yaml.Node

/-!
Merge keys: a mapping takes over the entries of other mappings, in front of its own. A mapping may
merge one that is about to merge it, so the nodes change one entry at a time.
-/

namespace ApiCatalog.Yaml

abbrev Editing (α : Type) := StateT (Array Node) (Except Failure) α

def tagAt (nodes : Array Node) (number : Nat) : Option Tag :=
  nodes[number]?.map Node.tag

def entriesAt (number : Nat) : Editing (List (Nat × Nat)) := do
  match (← get)[number]? with
  | some (.mapping _ entries) => return entries
  | _ => throw .malformed

def setEntries (number : Nat) (entries : List (Nat × Nat)) : Editing Unit :=
  modify fun nodes => nodes.modify number fun node => .mapping node.tag entries

def isMergeEntry (nodes : Array Node) (entry : Nat × Nat) : Bool :=
  tagAt nodes entry.1 == some (.core .merge)

def mergeCount (nodes : Array Node) : Nat :=
  (nodes.toList.map fun node =>
    match node with
    | .mapping _ entries => (entries.filter (isMergeEntry nodes)).length
    | _ => 0).foldr (· + ·) 0

def settleKey (entry : Nat × Nat) : Editing Unit := do
  if tagAt (← get) entry.1 == some (.core .defaultValue) then
    modify fun nodes => nodes.modify entry.1 (Node.withTag (.core .text))

/-- The entries that a source of a merge gives: those of a mapping, or of the mappings of a
sequence, the last one first. `settle` resolves the merges of a mapping. -/
def sourceEntries (settle : Nat → Editing Unit) (source : Nat) :
    Editing (List (Nat × Nat)) := do
  match (← get)[source]? with
  | some (.sequence _ items) =>
    let found ← items.mapM fun item => do
      discard (entriesAt item)
      settle item
      entriesAt item
    return found.reverse.flatten
  | _ =>
    discard (entriesAt source)
    settle source
    entriesAt source

/-- Resolves the merges of a mapping. `merged` holds what was taken over so far; of equal keys the
last entry wins, so the own entries of the mapping go behind. -/
def settleMerges : Nat → List (Nat × Nat) → Nat → Editing Unit
  | 0, _, _ => throw .malformed
  | fuel + 1, merged, number => do
    let entries ← entriesAt number
    let nodes ← get
    match entries.span fun entry => !isMergeEntry nodes entry with
    | (_, []) =>
      if !merged.isEmpty then setEntries number (merged ++ entries)
      entries.forM settleKey
    | (before, entry :: behind) =>
      -- The entry goes first: its source may lead back to this mapping.
      setEntries number (before ++ behind)
      let found ← sourceEntries (settleMerges fuel []) entry.2
      settleMerges fuel (merged ++ found) number

def settledEntries (number : Nat) : Editing (List (Nat × Nat)) := do
  let nodes ← get
  -- Every step but the last takes a merging entry away, and none is ever added.
  let merges := if (← entriesAt number).any (isMergeEntry nodes) then mergeCount nodes else 0
  settleMerges (merges + 1) [] number
  entriesAt number

end ApiCatalog.Yaml
