import ApiCatalog.Proofs.Yaml.TokenFault
import ApiCatalog.Yaml.Node

/-!
Faults of nodes. Reading nodes from tokens has no fault of its own: it stops at a fault only where
the tokens do.
-/

namespace ApiCatalog.Yaml

/-- A step that leaves the end of the tokens as it is, and has no fault but the one they end at. If
the end of the text is not among the tokens, it is not afterwards. -/
def PassesOn {α : Type} (failure : Option Failure) (ended : Prop) (step : Read α) : Prop :=
  Keeps (fun s => s.failure = failure ∧ (.streamEnd ∈ s.tokens → ended))
    (fun fault => failure = some (.fault fault)) step

section

variable {failure : Option Failure} {ended : Prop}

theorem passesOn_malformed {α : Type} : PassesOn failure ended (malformed : Read α) :=
  keeps_malformed

theorem passesOn_peekToken : PassesOn failure ended peekToken := by
  refine keeps_get_bind fun s same => ?_
  split
  · exact keeps_pure _
  · refine keeps_throw fun fault ends => ?_
    rw [same.1] at ends
    cases failure with
    | none => cases ends
    | some found => exact congrArg some ends

theorem passesOn_skipToken : PassesOn failure ended skipToken :=
  (passesOn_peekToken.map _).bind fun _ =>
    keeps_modify fun _ same => ⟨same.1, fun member => same.2 (List.mem_of_mem_tail member)⟩

theorem passesOn_expectToken (token : Token) : PassesOn failure ended (expectToken token) :=
  passesOn_peekToken.bind fun _ => .ite passesOn_skipToken passesOn_malformed

theorem passesOn_tagOf (handle : Option (List Char)) (suffix : List Char) :
    PassesOn failure ended (tagOf handle suffix) := by
  unfold tagOf
  split
  · exact keeps_pure _
  · refine keeps_get_bind fun s _ => ?_
    split
    · exact keeps_pure _
    · exact passesOn_malformed

theorem passesOn_readTag : PassesOn failure ended readTag := by
  refine passesOn_peekToken.bind fun token => ?_
  split
  · exact passesOn_skipToken.bind fun _ => keeps_pure _
  · exact keeps_pure _

theorem passesOn_readAnchor : PassesOn failure ended readAnchor := by
  refine passesOn_peekToken.bind fun token => ?_
  split
  · exact passesOn_skipToken.bind fun _ => keeps_pure _
  · exact keeps_pure _

theorem passesOn_readProperties : PassesOn failure ended readProperties := by
  refine passesOn_readAnchor.bind fun anchor => passesOn_readTag.bind fun tag => ?_
  extract_lets tagged
  have each (anchor : Option (List Char)) : PassesOn failure ended (tagged anchor) := by
    refine Keeps.bind ?_ fun _ => keeps_pure _
    cases tag with
    | none => exact keeps_pure _
    | some written => exact (passesOn_tagOf written.1 written.2).map some
  exact .ite (passesOn_readAnchor.bind each) (Keeps.bind (keeps_pure _) each)

theorem passesOn_addNode (anchor : Option (List Char)) (node : Node) :
    PassesOn failure ended (addNode anchor node) := by
  refine keeps_get_bind fun s _ => ?_
  extract_lets number added
  have each (named : Unit) : PassesOn failure ended (added named) :=
    Keeps.bind (keeps_modify fun _ same => same) fun _ => keeps_pure _
  split
  · exact each ()
  · refine keeps_get_bind fun s _ => ?_
    exact .ite (passesOn_malformed.bind each) (Keeps.bind (keeps_modify fun _ same => same) each)

theorem passesOn_aliasNode (name : List Char) : PassesOn failure ended (aliasNode name) := by
  refine keeps_get_bind fun s _ => ?_
  split
  · exact keeps_pure _
  · exact passesOn_malformed

theorem passesOn_complete (number : Nat) (node : Node) : PassesOn failure ended (complete number node) :=
  Keeps.bind (keeps_modify fun _ same => same) fun _ => keeps_pure _

theorem passesOn_addEmpty : PassesOn failure ended addEmpty :=
  passesOn_addNode _ _

theorem passesOn_addSequence (anchor tag : Option (List Char)) {items : Read (List Nat)}
    (inner : PassesOn failure ended items) : PassesOn failure ended (addSequence anchor tag items) :=
  (passesOn_addNode _ _).bind fun _ => inner.bind fun _ => passesOn_complete _ _

theorem passesOn_addMapping (anchor tag : Option (List Char)) {entries : Read (List (Nat × Nat))}
    (inner : PassesOn failure ended entries) : PassesOn failure ended (addMapping anchor tag entries) :=
  (passesOn_addNode _ _).bind fun _ => inner.bind fun _ => passesOn_complete _ _

theorem passesOn_noContent (anchor tag : Option (List Char)) :
    PassesOn failure ended (noContent anchor tag) :=
  .ite (passesOn_addNode _ _) passesOn_malformed

structure ReadersPassOn (failure : Option Failure) (ended : Prop) (fuel : Nat) : Prop where
  node : ∀ block indentless, PassesOn failure ended (readNode fuel block indentless)
  blockItems : PassesOn failure ended (readBlockItems fuel)
  indentlessItems : PassesOn failure ended (readIndentlessItems fuel)
  blockEntries : PassesOn failure ended (readBlockEntries fuel)
  blockValue : PassesOn failure ended (readBlockValue fuel)
  flowItems : ∀ first, PassesOn failure ended (readFlowItems fuel first)
  flowValue : PassesOn failure ended (readFlowValue fuel)
  flowEntries : ∀ first, PassesOn failure ended (readFlowEntries fuel first)

theorem passesOn_readNode {fuel : Nat} (inner : ReadersPassOn failure ended fuel)
    (block indentless : Bool) : PassesOn failure ended (readNode (fuel + 1) block indentless) := by
  unfold readNode
  refine passesOn_peekToken.bind fun token => ?_
  split
  · exact passesOn_skipToken.bind fun _ => passesOn_aliasNode _
  refine passesOn_readProperties.bind fun properties => passesOn_peekToken.bind fun token => ?_
  have none := @passesOn_noContent failure ended properties.1 properties.2
  split
  · exact passesOn_skipToken.bind fun _ => passesOn_addNode _ _
  · exact passesOn_addSequence _ _ (passesOn_skipToken.bind fun _ => inner.flowItems true)
  · exact passesOn_addMapping _ _ (passesOn_skipToken.bind fun _ => inner.flowEntries true)
  · exact .ite (passesOn_addSequence _ _ (passesOn_skipToken.bind fun _ => inner.blockItems)) none
  · exact .ite (passesOn_addMapping _ _ (passesOn_skipToken.bind fun _ => inner.blockEntries)) none
  · exact .ite (passesOn_addSequence _ _ inner.indentlessItems) none
  · exact none

/-! A member of a collection is a node, or empty before certain tokens. -/

theorem passesOn_readBlockItems {fuel : Nat} (inner : ReadersPassOn failure ended fuel) :
    PassesOn failure ended (readBlockItems (fuel + 1)) := by
  unfold readBlockItems
  refine passesOn_peekToken.bind fun token => ?_
  split
  · refine passesOn_skipToken.bind fun _ => passesOn_peekToken.bind fun token => ?_
    extract_lets goesOn
    have each (item : Nat) : PassesOn failure ended (goesOn item) :=
      inner.blockItems.bind fun _ => keeps_pure _
    split
    · exact passesOn_addEmpty.bind each
    · exact passesOn_addEmpty.bind each
    · exact (inner.node true false).bind each
  · exact (passesOn_expectToken _).bind fun _ => keeps_pure _

theorem passesOn_readIndentlessItems {fuel : Nat} (inner : ReadersPassOn failure ended fuel) :
    PassesOn failure ended (readIndentlessItems (fuel + 1)) := by
  unfold readIndentlessItems
  refine passesOn_peekToken.bind fun token => ?_
  split
  · refine passesOn_skipToken.bind fun _ => passesOn_peekToken.bind fun token => ?_
    extract_lets goesOn
    have each (item : Nat) : PassesOn failure ended (goesOn item) :=
      inner.indentlessItems.bind fun _ => keeps_pure _
    have empty := passesOn_addEmpty.bind each
    split
    · exact empty
    · exact empty
    · exact empty
    · exact empty
    · exact (inner.node true false).bind each
  · exact keeps_pure _

theorem passesOn_readBlockEntries {fuel : Nat} (inner : ReadersPassOn failure ended fuel) :
    PassesOn failure ended (readBlockEntries (fuel + 1)) := by
  unfold readBlockEntries
  refine passesOn_peekToken.bind fun token => ?_
  split
  · refine passesOn_skipToken.bind fun _ => passesOn_peekToken.bind fun token => ?_
    extract_lets goesOn
    have each (key : Nat) : PassesOn failure ended (goesOn key) :=
      inner.blockValue.bind fun _ => inner.blockEntries.bind fun _ => keeps_pure _
    have empty := passesOn_addEmpty.bind each
    split
    · exact empty
    · exact empty
    · exact empty
    · exact (inner.node true true).bind each
  · exact (passesOn_expectToken _).bind fun _ => keeps_pure _

theorem passesOn_readBlockValue {fuel : Nat} (inner : ReadersPassOn failure ended fuel) :
    PassesOn failure ended (readBlockValue (fuel + 1)) := by
  unfold readBlockValue
  refine passesOn_peekToken.bind fun token => ?_
  split
  · refine passesOn_skipToken.bind fun _ => passesOn_peekToken.bind fun token => ?_
    split
    · exact passesOn_addEmpty
    · exact passesOn_addEmpty
    · exact passesOn_addEmpty
    · exact inner.node true true
  · exact passesOn_addEmpty

theorem passesOn_readFlowValue {fuel : Nat} (inner : ReadersPassOn failure ended fuel) :
    PassesOn failure ended (readFlowValue (fuel + 1)) := by
  unfold readFlowValue
  refine passesOn_peekToken.bind fun token => ?_
  split
  · refine passesOn_skipToken.bind fun _ => passesOn_peekToken.bind fun token => ?_
    split
    · exact passesOn_addEmpty
    · exact passesOn_addEmpty
    · exact passesOn_addEmpty
    · exact inner.node false false
  · exact passesOn_addEmpty

theorem passesOn_readFlowItems {fuel : Nat} (inner : ReadersPassOn failure ended fuel) (first : Bool) :
    PassesOn failure ended (readFlowItems (fuel + 1) first) := by
  unfold readFlowItems
  refine passesOn_peekToken.bind fun token => ?_
  split
  · exact passesOn_skipToken.bind fun _ => keeps_pure _
  extract_lets goesOn entry
  have each (separated : Unit) : PassesOn failure ended (entry separated) := by
    refine passesOn_peekToken.bind fun token => ?_
    split
    · exact passesOn_skipToken.bind fun _ => keeps_pure _
    · refine passesOn_skipToken.bind fun _ => ?_
      refine (passesOn_addMapping _ _ (passesOn_peekToken.bind fun token => ?_)).bind fun _ =>
        (inner.flowItems false).bind fun _ => keeps_pure _
      have paired (key : Nat) : PassesOn failure ended (goesOn key) :=
        inner.flowValue.bind fun _ => keeps_pure _
      have empty := passesOn_addEmpty.bind paired
      split
      · exact empty
      · exact empty
      · exact empty
      · exact (inner.node false false).bind paired
    · exact (inner.node false false).bind fun _ =>
        (inner.flowItems false).bind fun _ => keeps_pure _
  exact .ite ((passesOn_expectToken _).bind each) (each ())

theorem passesOn_readFlowEntries {fuel : Nat} (inner : ReadersPassOn failure ended fuel)
    (first : Bool) : PassesOn failure ended (readFlowEntries (fuel + 1) first) := by
  unfold readFlowEntries
  refine passesOn_peekToken.bind fun token => ?_
  split
  · exact passesOn_skipToken.bind fun _ => keeps_pure _
  extract_lets goesOn entry
  have each (separated : Unit) : PassesOn failure ended (entry separated) := by
    refine passesOn_peekToken.bind fun token => ?_
    split
    · exact passesOn_skipToken.bind fun _ => keeps_pure _
    · refine passesOn_skipToken.bind fun _ => passesOn_peekToken.bind fun token => ?_
      have paired (key : Nat) : PassesOn failure ended (goesOn key) :=
        inner.flowValue.bind fun _ => (inner.flowEntries false).bind fun _ => keeps_pure _
      have empty := passesOn_addEmpty.bind paired
      split
      · exact empty
      · exact empty
      · exact empty
      · exact (inner.node false false).bind paired
    · exact (inner.node false false).bind fun _ => passesOn_addEmpty.bind fun _ =>
        (inner.flowEntries false).bind fun _ => keeps_pure _
  exact .ite ((passesOn_expectToken _).bind each) (each ())

theorem readersPassOn (fuel : Nat) : ReadersPassOn failure ended fuel := by
  induction fuel with
  | zero =>
    have stops {α : Type} : PassesOn failure ended (malformed : Read α) := passesOn_malformed
    exact ⟨fun _ _ => stops, stops, stops, stops, stops, fun _ => stops, stops, fun _ => stops⟩
  | succ fuel inner =>
    exact ⟨passesOn_readNode inner, passesOn_readBlockItems inner,
      passesOn_readIndentlessItems inner, passesOn_readBlockEntries inner,
      passesOn_readBlockValue inner, passesOn_readFlowItems inner, passesOn_readFlowValue inner,
      passesOn_readFlowEntries inner⟩

theorem failsOnly_readDirectives {cause : Fault → Prop} (versioned : Bool)
    (handles : List (List Char × List Char)) (tokens : List Token) :
    FailsOnly cause (readDirectives versioned handles tokens) := by
  fun_induction readDirectives versioned handles tokens with
  | case1 | case3 => exact failsOnly_malformed
  | case2 _ _ _ _ _ inner | case4 _ _ _ _ _ _ inner | case5 _ _ _ inner => exact inner
  | case6 => exact failsOnly_ok _

theorem suffix_of_readDirectives {versioned : Bool} {handles : List (List Char × List Char)}
    {tokens : List Token} {found : List (List Char × List Char) × List Token} :
    readDirectives versioned handles tokens = .ok found → found.2 <:+ tokens := by
  fun_induction readDirectives versioned handles tokens with
  | case1 | case3 => exact nofun
  | case2 _ _ _ _ _ inner | case4 _ _ _ _ _ _ inner | case5 _ _ _ inner =>
    exact fun read => (inner read).trans (List.suffix_cons _ _)
  | case6 =>
    rintro ⟨⟩
    exact List.suffix_rfl

theorem passesOn_readStart : PassesOn failure ended readStart := by
  refine keeps_get_bind fun s same => ?_
  refine keeps_lift_bind (failsOnly_readDirectives false [] s.tokens) fun found read => ?_
  refine Keeps.bind ?_ fun _ => passesOn_expectToken _
  exact keeps_set ⟨same.1, fun member => same.2 ((suffix_of_readDirectives read).subset member)⟩

theorem passesOn_readContent (fuel : Nat) : PassesOn failure ended (readContent fuel) := by
  refine passesOn_peekToken.bind fun token => ?_
  split
  · exact passesOn_addEmpty
  · exact passesOn_addEmpty
  · exact passesOn_addEmpty
  · exact passesOn_addEmpty
  · exact (readersPassOn fuel).node true false

theorem passesOn_readRoot (fuel : Nat) : PassesOn failure ended (readRoot fuel) := by
  have content := (@passesOn_readContent failure ended fuel).map some
  refine passesOn_peekToken.bind fun token => ?_
  split
  · exact keeps_pure _
  · exact passesOn_readStart.bind fun _ => content
  · exact passesOn_readStart.bind fun _ => content
  · exact ((readersPassOn fuel).node true false).map some

theorem passesOn_readStream (fuel : Nat) : PassesOn failure ended (readStream fuel) := by
  refine (passesOn_readRoot fuel).bind fun root => ?_
  refine Keeps.bind (keeps_modify fun s same => ⟨same.1, fun member => same.2 ?_⟩) fun _ =>
    passesOn_peekToken.bind fun _ => ?_
  · exact (List.dropWhile_suffix _).subset member
  split
  · exact keeps_pure _
  · exact passesOn_readStart.bind fun _ => passesOn_malformed

end

theorem failsOnly_ofText (text : List Char) :
    FailsOnly (fun fault => (tokensOf text).2 = some (.fault fault)) (Node.ofText text) := by
  unfold Node.ofText
  refine FailsOnly.bind ?_ fun _ => failsOnly_pure _
  exact (@passesOn_readStream _ True _ _ ⟨rfl, fun _ => trivial⟩).1

theorem exists_of_run_bind {α β : Type} {first : Read α} {next : α → Read β} {s : ReadState}
    {result : β × ReadState} (done : (first >>= next).run s = .ok result) :
    ∃ value s', first.run s = .ok (value, s') ∧ (next value).run s' = .ok result := by
  rw [StateT.run_bind] at done
  cases found : first.run s with
  | error failure =>
    rw [found] at done
    cases done
  | ok read =>
    rw [found] at done
    exact ⟨read.1, read.2, rfl, done⟩

theorem mem_of_peekToken {s s' : ReadState} {token : Token}
    (peeked : peekToken.run s = .ok (token, s')) : token ∈ s.tokens := by
  obtain ⟨tokens, failure, nodes, anchors, handles⟩ := s
  cases tokens with
  | nil => cases peeked
  | cons first more =>
    cases peeked
    exact List.mem_cons_self

theorem mem_of_readStream {fuel : Nat} {s s' : ReadState} {root : Option Nat}
    (read : (readStream fuel).run s = .ok (root, s')) : .streamEnd ∈ s.tokens := by
  unfold readStream at read
  obtain ⟨first, behind, found, rest⟩ := exists_of_run_bind read
  obtain ⟨_, moved, step, peeks⟩ := exists_of_run_bind rest
  obtain ⟨token, last, peeked, ends⟩ := exists_of_run_bind peeks
  have kept := @passesOn_readRoot s.failure (.streamEnd ∈ s.tokens) fuel s ⟨rfl, id⟩
  refine (kept.2 first behind found).2 ((List.dropWhile_suffix (· == .documentEnd)).subset ?_)
  cases step
  have member := mem_of_peekToken peeked
  split at ends
  · exact member
  · obtain ⟨_, _, -, stops⟩ := exists_of_run_bind ends
    cases stops

theorem exists_error_of_unended {text : List Char} (unended : .streamEnd ∉ (tokensOf text).1) :
    ∃ failure, Node.ofText text = .error failure := by
  unfold Node.ofText
  generalize tokensOf text = found at unended ⊢
  obtain ⟨tokens, failure⟩ := found
  dsimp only at unended ⊢
  cases read : (readStream (4 * tokens.length + 4)).run ⟨tokens, failure, #[], [], standardHandles⟩ with
  | error failure => exact ⟨failure, rfl⟩
  | ok result => exact absurd (mem_of_readStream read) unended

end ApiCatalog.Yaml
