import ApiCatalog.Yaml.Merge
import ApiCatalog.Yaml.Scalar

/-!
The document values of YAML nodes. Collections are begun where they occur and completed one round
after another, so that of several faults the one nearest to the root counts, and of those of one
round the first. What was found for each node is then put together, with a knot wherever a
collection occurs within itself.
-/

namespace ApiCatalog.Yaml

/-- What a node gives: a value of its own, or a collection of other nodes. What is no number equals
nothing by its value, and as a key it is known by its identity. -/
inductive Shape
  | value (value : Value) (identity : Nat)
  | list (items : List Nat)
  | pairs (entries : List (Nat × Nat))
  | set (members : List Value)
  | map (entries : List (Value × Nat))

/-- The nodes, what was found for them, and the collections that were begun in this round, the last
one first. -/
structure BuildState where
  nodes : Array Node
  shapes : Array (Option Shape)
  begun : List Nat

def shapeAt? (shapes : Array (Option Shape)) (number : Nat) : Option Shape :=
  shapes[number]?.join

abbrev Building (α : Type) := StateT BuildState (Except Failure) α

def isScalarAt (nodes : Array Node) (number : Nat) : Bool :=
  match nodes[number]? with
  | some (.scalar _ _) => true
  | _ => false

/-- The text of a node that is to be read as a scalar. A mapping may give one under the key for
its default value. -/
def scalarText (nodes : Array Node) : Nat → Nat → Except Failure (List Char)
  | 0, _ => .error .malformed
  | fuel + 1, number =>
    match nodes[number]? with
    | some (.scalar _ text) => .ok text
    | some (.mapping _ entries) =>
      match entries.find? fun entry => tagAt nodes entry.1 == some (.core .defaultValue) with
      | some entry => scalarText nodes fuel entry.2
      | none => .error .malformed
    | _ => .error .malformed

def emptyShape? : Tag → Option Shape
  | .core .sequence => some (.list [])
  | .core .orderedMap | .core .pairs => some (.pairs [])
  | .core .set => some (.set [])
  | .core .mapping => some (.map [])
  | _ => none

def setShape (number : Nat) (shape : Shape) : Building Unit :=
  modify fun s => { s with shapes := s.shapes.setIfInBounds number (some shape) }

/-- Begins a node, unless it was begun before: the value of a scalar is found at once, a collection
waits for the next round. -/
def beginNode (number : Nat) : Building Unit := do
  let s ← get
  if (shapeAt? s.shapes number).isNone then
    match tagAt s.nodes number with
    | none | some .other => throw .malformed
    | some (.core kind) =>
      match emptyShape? (.core kind) with
      | some shape =>
        set { s with begun := number :: s.begun }
        setShape number shape
      | none =>
        let text ← scalarText s.nodes (s.nodes.size + 1) number
        -- A timestamp does not take its text from a mapping.
        if kind = .timestamp ∧ !isScalarAt s.nodes number then throw (.fault .wrongKind)
        -- The word for what is no number has one identity, other notations have that of their node.
        let identity := if kind = .float ∧ isNanWord text then s.nodes.size else number
        setShape number (.value (← scalarValue kind text) identity)

abbrev Key := Value × Nat

def Key.same (a b : Key) : Bool :=
  a.2 == b.2 || Value.same a.1 b.1

def keyOf (number : Nat) : Building Key := do
  beginNode number
  match shapeAt? (← get).shapes number with
  | some (.value value identity) => return (value, identity)
  | _ => throw .malformed

def itemsOf (number : Nat) : Building (List Nat) := do
  match (← get).nodes[number]? with
  | some (.sequence _ items) => return items
  | _ => throw .malformed

def entriesOf (number : Nat) : Building (List (Value × Nat)) := do
  let s ← get
  let (entries, nodes) ← (settledEntries number).run s.nodes
  set { s with nodes := nodes }
  let found ← entries.mapM fun (key, value) => do
    let key ← keyOf key
    beginNode value
    return (key, value)
  return (collectEntries Key.same found).map fun (key, value) => (key.1, value)

def pairOf (item : Nat) : Building (Nat × Nat) := do
  match (← get).nodes[item]? with
  | some (.mapping _ [(key, value)]) =>
    beginNode key
    beginNode value
    return (key, value)
  | _ => throw .malformed

def completeNode (number : Nat) : Building Unit := do
  match shapeAt? (← get).shapes number with
  | some (.list _) =>
    let items ← itemsOf number
    items.forM beginNode
    setShape number (.list items)
  | some (.pairs _) => setShape number (.pairs (← (← itemsOf number).mapM pairOf))
  | some (.set _) => setShape number (.set ((← entriesOf number).map (·.1)))
  | some (.map _) => setShape number (.map (← entriesOf number))
  | _ => return ()

def completeRounds : Nat → Building Unit
  | 0 => return ()
  | fuel + 1 => do
    let s ← get
    if !s.begun.isEmpty then
      set { s with begun := [] }
      s.begun.reverse.forM completeNode
      completeRounds fuel

/-- A collection as a value, with the labels to which it refers outside itself. One that occurs
within itself, or within a collection around it that it refers to, is a knot. -/
def tie (number : Nat) (body : Value) (loose : List Nat) : Value × List Nat :=
  if loose.isEmpty then (body, []) else (.knot number body, loose.filter (· != number))

def unfold (shapes : Array (Option Shape)) : Nat → List Nat → Nat → Value × List Nat
  | 0, _, _ => (.null, [])
  | fuel + 1, around, number =>
    let inner := unfold shapes fuel (number :: around)
    if around.contains number then (.again number, [number])
    else
      match shapeAt? shapes number with
      | none => (.null, [])
      | some (.value value _) => (value, [])
      | some (.set members) => (.set members, [])
      | some (.list items) =>
        let parts := items.map inner
        tie number (.list (parts.map (·.1))) (parts.flatMap (·.2))
      | some (.pairs entries) =>
        let parts := entries.map fun (key, value) => (inner key, inner value)
        tie number (.list (parts.map fun (key, value) => .pair key.1 value.1))
          (parts.flatMap fun (key, value) => key.2 ++ value.2)
      | some (.map entries) =>
        let parts := entries.map fun (key, value) => (key, inner value)
        tie number (.map (parts.map fun (key, value) => (key, value.1)))
          (parts.flatMap fun (_, value) => value.2)

def build (nodes : Array Node) (root : Nat) : Except Failure Value := do
  let start : BuildState := ⟨nodes, Array.replicate nodes.size none, []⟩
  let ((), s) ← (do beginNode root; completeRounds nodes.size : Building Unit).run start
  return (unfold s.shapes (nodes.size + 1) [] root).1

def isAdmitted (c : Char) : Bool :=
  let point := c.toNat
  c == '\t' || c == '\n' || c == '\r' || (decide (0x20 ≤ point) && decide (point ≤ 0x7e)) ||
    point == 0x85 || (decide (0xa0 ≤ point) && decide (point ≤ 0xfffd)) ||
    decide (0x10000 ≤ point)

def load (text : List Char) : Except Failure Value :=
  if !text.all isAdmitted then .error .malformed
  else do
    match ← Node.ofText text with
    | (none, _) => return .null
    | (some root, nodes) => build nodes root

end ApiCatalog.Yaml
