import ApiCatalog.Proofs.Yaml.ScalarFault

/-!
Faults of documents. Beyond its tokens, a document is at fault only where the tag of one of its
nodes asks for a value that a text does not give. Merges move entries between the nodes of a
document, but they change no text, and no tag but to that of a text.
-/

namespace ApiCatalog.Yaml

def Node.text? : Node → Option (List Char)
  | .scalar _ text => some text
  | _ => none

def textAt? (nodes : Array Node) (number : Nat) : Option (List Char) :=
  nodes[number]?.bind Node.text?

/-- Why a value of nodes has a fault. -/
inductive ValueFault (nodes : Array Node) : Fault → Prop
  | text {number holder : Nat} {kind : Kind} {text : List Char} {fault : Fault}
    (tagged : tagAt nodes number = some (.core kind)) (held : textAt? nodes holder = some text)
    (fails : scalarValue kind text = .error (.fault fault)) : ValueFault nodes fault
  | timestamp {number : Nat} (tagged : tagAt nodes number = some (.core .timestamp))
    (none : textAt? nodes number = none) : ValueFault nodes .wrongKind

/-! What merges leave as it is. -/

/-- A node with the text of another, and with its tag or that of a text. -/
def Node.StemsFrom (node source : Node) : Prop :=
  node.text? = source.text? ∧ (node.tag = source.tag ∨ node.tag = .core .text)

def Stems (original nodes : Array Node) : Prop :=
  ∀ (number : Nat) (node : Node), nodes[number]? = some node →
    ∃ source, original[number]? = some source ∧ node.StemsFrom source

section

variable {original nodes : Array Node}

theorem stems_self : Stems nodes nodes :=
  fun _ node found => ⟨node, found, rfl, .inl rfl⟩

theorem Stems.modify (stems : Stems original nodes) {number : Nat} {change : Node → Node}
    (each : ∀ node source, nodes[number]? = some node → node.StemsFrom source →
      (change node).StemsFrom source) : Stems original (nodes.modify number change) := by
  intro other node found
  rw [Array.getElem?_modify] at found
  split at found
  case isFalse => exact stems other node found
  case isTrue same =>
    subst same
    obtain ⟨before, held, rfl⟩ := Option.map_eq_some_iff.mp found
    obtain ⟨source, known, from_⟩ := stems number before held
    exact ⟨source, known, each before source held from_⟩

theorem Stems.textAt? (stems : Stems original nodes) {number : Nat} {node : Node}
    (found : nodes[number]? = some node) : Yaml.textAt? original number = node.text? := by
  obtain ⟨source, known, same, -⟩ := stems number node found
  simp [Yaml.textAt?, known, same]

theorem Stems.tagAt (stems : Stems original nodes) {number : Nat} {tag : Tag}
    (tagged : Yaml.tagAt nodes number = some tag) (other : tag ≠ .core .text) :
    Yaml.tagAt original number = some tag := by
  obtain ⟨node, found, rfl⟩ := Option.map_eq_some_iff.mp tagged
  obtain ⟨source, known, -, same | changed⟩ := stems number node found
  · simp [Yaml.tagAt, known, same]
  · exact absurd changed other

end

/-! Merges. -/

section

variable {original : Array Node} {cause : Fault → Prop}

theorem keeps_entriesAt (number : Nat) : Keeps (Stems original) cause (entriesAt number) := by
  refine keeps_get_bind fun nodes _ => ?_
  split
  · exact keeps_pure _
  · exact keeps_malformed

theorem keeps_entriesAt_bind {α : Type} {number : Nat}
    {next : List (Nat × Nat) → Editing α}
    (second : ∀ nodes tag entries, Stems original nodes →
      nodes[number]? = some (.mapping tag entries) →
        KeepsFrom nodes (Stems original) cause (next entries)) :
    Keeps (Stems original) cause (entriesAt number >>= next) := by
  intro nodes stems
  unfold KeepsFrom entriesAt
  rw [StateT.run_bind, StateT.run_bind, StateT.run_get]
  simp only [pure_bind]
  split
  case h_1 tag entries found => exact second nodes tag entries stems found
  case h_2 => exact ⟨failsOnly_malformed, nofun⟩

theorem keepsFrom_setEntries {nodes : Array Node} {number : Nat} {tag : Tag}
    {before entries : List (Nat × Nat)} (stems : Stems original nodes)
    (found : nodes[number]? = some (.mapping tag before)) :
    KeepsFrom nodes (Stems original) cause (setEntries number entries) := by
  refine ⟨failsOnly_ok _, ?_⟩
  rintro _ _ ⟨⟩
  refine stems.modify fun node source held from_ => ?_
  cases found.symm.trans held
  exact from_

theorem keeps_settleKey (entry : Nat × Nat) : Keeps (Stems original) cause (settleKey entry) := by
  refine keeps_get_bind fun nodes _ => .ite ?_ (keeps_pure _)
  refine keeps_modify fun nodes stems => stems.modify fun node source _ from_ => ?_
  cases node <;> exact ⟨from_.1, .inr rfl⟩

theorem keeps_sourceEntries {settle : Nat → Editing Unit}
    (settles : ∀ number, Keeps (Stems original) cause (settle number)) (source : Nat) :
    Keeps (Stems original) cause (sourceEntries settle source) := by
  have each (number : Nat) : Keeps (Stems original) cause (do
      discard (entriesAt number)
      settle number
      entriesAt number) :=
    ((keeps_entriesAt number).map _).bind fun _ => (settles number).bind fun _ =>
      keeps_entriesAt number
  refine keeps_get_bind fun nodes _ => ?_
  split
  · exact (Keeps.mapM each _).bind fun _ => keeps_pure _
  · exact each source

theorem keeps_settleMerges (fuel : Nat) (merged : List (Nat × Nat)) (number : Nat) :
    Keeps (Stems original) cause (settleMerges fuel merged number) := by
  induction fuel generalizing merged number with
  | zero => exact keeps_malformed
  | succ fuel inner =>
    unfold settleMerges
    refine keeps_entriesAt_bind fun nodes tag entries stems found => .get_bind ?_
    -- The node is the mapping that was found, so its entries may be replaced.
    have replaced (entries : List (Nat × Nat)) :
        KeepsFrom nodes (Stems original) cause (setEntries number entries) :=
      keepsFrom_setEntries stems found
    have settled := @Keeps.forM _ _ (Stems original) cause settleKey keeps_settleKey entries
    split
    · split
      · exact (replaced _).bind fun _ => settled
      · exact settled nodes stems
    · refine (replaced _).bind fun _ => ?_
      refine (keeps_sourceEntries (inner []) _).bind fun found => ?_
      exact inner _ number

theorem keeps_settledEntries (number : Nat) :
    Keeps (Stems original) cause (settledEntries number) := by
  refine keeps_get_bind fun nodes _ => (keeps_entriesAt number).bind fun entries => ?_
  exact (keeps_settleMerges _ [] number).bind fun _ => keeps_entriesAt number

end

/-! Values. -/

theorem failsOnly_scalarText {cause : Fault → Prop} (nodes : Array Node) (fuel number : Nat) :
    FailsOnly cause (scalarText nodes fuel number) := by
  fun_induction scalarText nodes fuel number with
  | case1 | case4 | case5 => exact failsOnly_malformed
  | case2 => exact failsOnly_ok _
  | case3 _ _ _ _ _ _ _ inner => exact inner

theorem textAt?_of_scalarText {nodes : Array Node} {fuel number : Nat} {text : List Char} :
    scalarText nodes fuel number = .ok text →
      ∃ (holder : Nat) (node : Node), nodes[holder]? = some node ∧ node.text? = some text := by
  fun_induction scalarText nodes fuel number with
  | case1 | case4 | case5 => exact nofun
  | case2 _ number _ _ found =>
    rintro ⟨⟩
    exact ⟨number, _, found, rfl⟩
  | case3 _ _ _ _ _ _ _ inner => exact inner

section

variable {original : Array Node}

theorem valueFault_of_scalarValue {nodes : Array Node} (stems : Stems original nodes)
    {number bound : Nat} {kind : Kind} {text : List Char}
    (tagged : tagAt nodes number = some (.core kind))
    (read : scalarText nodes bound number = .ok text) :
    FailsOnly (ValueFault original) (scalarValue kind text) := by
  intro fault fails
  obtain ⟨holder, node, found, held⟩ := textAt?_of_scalarText read
  refine .text (stems.tagAt tagged ?_) ((stems.textAt? found).trans held) fails
  rintro ⟨⟩
  cases fails

theorem valueFault_of_timestamp {nodes : Array Node} (stems : Stems original nodes)
    {number : Nat} (tagged : tagAt nodes number = some (.core .timestamp))
    (other : isScalarAt nodes number = false) : ValueFault original .wrongKind := by
  refine .timestamp (stems.tagAt tagged (by decide)) ?_
  obtain ⟨node, found, -⟩ := Option.map_eq_some_iff.mp tagged
  rw [stems.textAt? found]
  cases node with
  | scalar => simp [isScalarAt, found] at other
  | sequence | mapping => rfl

abbrev Builds {α : Type} (original : Array Node) (step : Building α) : Prop :=
  Keeps (fun s => Stems original s.nodes) (ValueFault original) step

theorem builds_setShape (number : Nat) (shape : Shape) :
    Builds original (setShape number shape) :=
  keeps_modify fun _ stems => stems

theorem builds_beginNode (number : Nat) : Builds original (beginNode number) := by
  refine keeps_get_bind fun s stems => .ite ?_ (keeps_pure _)
  split
  case h_1 => exact keeps_malformed
  case h_2 => exact keeps_malformed
  case h_3 kind tagged =>
    split
    · refine Keeps.bind ?_ fun _ => builds_setShape number _
      exact keeps_set stems
    refine keeps_lift_bind (failsOnly_scalarText _ _ _) fun text read => ?_
    extract_lets identity found
    have each (checked : Unit) : Builds original (found checked) :=
      keeps_lift_bind (valueFault_of_scalarValue stems tagged read) fun value _ =>
        builds_setShape number _
    split
    case isFalse => exact each ()
    case isTrue misused =>
      obtain ⟨rfl, other⟩ := misused
      refine Keeps.bind (keeps_throw ?_) each
      rintro _ ⟨⟩
      exact valueFault_of_timestamp stems tagged (by simpa using other)

theorem builds_keyOf (number : Nat) : Builds original (keyOf number) := by
  refine (builds_beginNode number).bind fun _ => keeps_get_bind fun s _ => ?_
  split
  · exact keeps_pure _
  · exact keeps_malformed

theorem builds_itemsOf (number : Nat) : Builds original (itemsOf number) := by
  refine keeps_get_bind fun s _ => ?_
  split
  · exact keeps_pure _
  · exact keeps_malformed

theorem builds_entriesOf (number : Nat) : Builds original (entriesOf number) := by
  refine keeps_get_bind fun s stems => ?_
  obtain ⟨fails, keeps⟩ := keeps_settledEntries number s.nodes stems
  refine keeps_lift_bind fails fun (entries, nodes) settled => ?_
  refine Keeps.bind (keeps_set (keeps entries nodes settled)) fun _ => ?_
  refine Keeps.bind (Keeps.mapM (fun entry => ?_) entries) fun found => keeps_pure _
  exact (builds_keyOf entry.1).bind fun _ => (builds_beginNode entry.2).bind fun _ =>
    keeps_pure _

theorem builds_pairOf (item : Nat) : Builds original (pairOf item) := by
  refine keeps_get_bind fun s _ => ?_
  split
  · exact (builds_beginNode _).bind fun _ => (builds_beginNode _).bind fun _ => keeps_pure _
  · exact keeps_malformed

theorem builds_completeNode (number : Nat) : Builds original (completeNode number) := by
  refine keeps_get_bind fun s _ => ?_
  split
  · refine (builds_itemsOf number).bind fun items => ?_
    exact (Keeps.forM builds_beginNode items).bind fun _ => builds_setShape number _
  · refine (builds_itemsOf number).bind fun items => ?_
    exact (Keeps.mapM builds_pairOf items).bind fun _ => builds_setShape number _
  · exact (builds_entriesOf number).bind fun _ => builds_setShape number _
  · exact (builds_entriesOf number).bind fun _ => builds_setShape number _
  · exact keeps_pure _

theorem builds_completeRounds (fuel : Nat) : Builds original (completeRounds fuel) := by
  induction fuel with
  | zero => exact keeps_pure _
  | succ fuel inner =>
    refine keeps_get_bind fun s stems => .ite ?_ (keeps_pure _)
    refine Keeps.bind (keeps_set stems) fun _ => ?_
    exact (Keeps.forM builds_completeNode _).bind fun _ => inner

theorem failsOnly_build (nodes : Array Node) (root : Nat) :
    FailsOnly (ValueFault nodes) (build nodes root) := by
  refine FailsOnly.bind ?_ fun _ => failsOnly_pure _
  refine ((builds_beginNode root).bind fun _ => builds_completeRounds nodes.size) _ ?_ |>.1
  exact stems_self

end

/-! Documents. -/

/-- Why the document of a text has a fault: its tokens end at one, or a node has no value. -/
inductive DocumentFault (text : List Char) (fault : Fault) : Prop
  | token (ends : (tokensOf text).2 = some (.fault fault))
  | value {root : Nat} {nodes : Array Node} (read : Node.ofText text = .ok (some root, nodes))
    (fails : ValueFault nodes fault)

theorem failsOnly_load (text : List Char) : FailsOnly (DocumentFault text) (load text) := by
  refine .ite failsOnly_malformed ?_
  cases read : Node.ofText text with
  | error failure =>
    intro fault same
    cases same
    exact .token (failsOnly_ofText text fault read)
  | ok result =>
    obtain ⟨root, nodes⟩ := result
    cases root with
    | none => exact failsOnly_pure _
    | some root => exact fun fault fails => .value read (failsOnly_build nodes root fault fails)

def IsReadFault : Fault → Prop
  | .noOperation | .wrongKind | .overflow | .noValue | .unknownWord | .noCharacter => True
  | _ => False

theorem Kind.Admits.isReadFault {kind : Kind} {fault : Fault} (admits : kind.Admits fault) :
    IsReadFault fault := by
  cases kind with
  | bool => obtain rfl := admits; trivial
  | int => obtain rfl | rfl := admits <;> trivial
  | float => obtain rfl | rfl | rfl := admits <;> trivial
  | timestamp => obtain rfl | rfl := admits <;> trivial
  | _ => exact False.elim admits

theorem DocumentFault.isReadFault {text : List Char} {fault : Fault}
    (caused : DocumentFault text fault) : IsReadFault fault := by
  cases caused with
  | token ends =>
    obtain rfl | rfl := isNumberFault_of_tokensOf ends
    · trivial
    · trivial
  | value _ fails =>
    cases fails with
    | text _ _ fails => exact (failsOnly_scalarValue _ _ _ fails).isReadFault
    | timestamp => trivial

end ApiCatalog.Yaml
