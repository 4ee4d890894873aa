import ApiCatalog.Yaml.Node

/-!
Flow collections as trees. A tree has its tokens, and its nodes in the order in which they begin;
reading the tokens adds these nodes, unless a key lacks the token before it.
-/

namespace ApiCatalog.Yaml

mutual

inductive Flow
  | scalar (plain : Bool) (text : List Char)
  | sequence (items : FlowItems)
  | mapping (entries : FlowEntries)

inductive FlowItems
  | nil
  | cons (item : Flow) (rest : FlowItems)

/-- A key is marked if a token before it says that it is one. -/
inductive FlowEntries
  | nil
  | cons (key : List Char) (marked : Bool) (value : Flow) (rest : FlowEntries)

end

mutual

def Flow.tokens : Flow → List Token
  | .scalar plain text => [.scalar plain text]
  | .sequence items => .flowSequenceStart :: items.tokens true
  | .mapping entries => .flowMappingStart :: entries.tokens true

def FlowItems.tokens (first : Bool) : FlowItems → List Token
  | .nil => [.flowSequenceEnd]
  | .cons item rest => (if first then [] else [.flowEntry]) ++ (item.tokens ++ rest.tokens false)

def FlowEntries.tokens (first : Bool) : FlowEntries → List Token
  | .nil => [.flowMappingEnd]
  | .cons key marked value rest =>
    (if first then [] else [.flowEntry]) ++ ((if marked then [.key] else []) ++
      .scalar false key :: .value :: (value.tokens ++ rest.tokens false))

end

mutual

def Flow.count : Flow → Nat
  | .scalar _ _ => 1
  | .sequence items => items.count + 1
  | .mapping entries => entries.count + 1

def FlowItems.count : FlowItems → Nat
  | .nil => 0
  | .cons item rest => item.count + rest.count

def FlowEntries.count : FlowEntries → Nat
  | .nil => 0
  | .cons _ _ value rest => 1 + value.count + rest.count

end

def FlowItems.numbers (base : Nat) : FlowItems → List Nat
  | .nil => []
  | .cons item rest => base :: rest.numbers (base + item.count)

def FlowEntries.numbers (base : Nat) : FlowEntries → List (Nat × Nat)
  | .nil => []
  | .cons _ _ value rest => (base, base + 1) :: rest.numbers (base + 1 + value.count)

mutual

def Flow.nodes (base : Nat) : Flow → List Node
  | .scalar plain text => [.scalar (scalarTag none plain text) text]
  | .sequence items =>
    .sequence (.core .sequence) (items.numbers (base + 1)) :: items.nodes (base + 1)
  | .mapping entries =>
    .mapping (.core .mapping) (entries.numbers (base + 1)) :: entries.nodes (base + 1)

def FlowItems.nodes (base : Nat) : FlowItems → List Node
  | .nil => []
  | .cons item rest => item.nodes base ++ rest.nodes (base + item.count)

def FlowEntries.nodes (base : Nat) : FlowEntries → List Node
  | .nil => []
  | .cons key _ value rest => .scalar (.core .text) key ::
      (value.nodes (base + 1) ++ rest.nodes (base + 1 + value.count))

end

mutual

def Flow.Marked : Flow → Prop
  | .scalar _ _ => True
  | .sequence items => items.Marked
  | .mapping entries => entries.Marked

def FlowItems.Marked : FlowItems → Prop
  | .nil => True
  | .cons item rest => item.Marked ∧ rest.Marked

def FlowEntries.Marked : FlowEntries → Prop
  | .nil => True
  | .cons _ marked value rest => marked = true ∧ value.Marked ∧ rest.Marked

end

mutual

theorem Flow.length_nodes (base : Nat) : (tree : Flow) → (tree.nodes base).length = tree.count
  | .scalar _ _ => rfl
  | .sequence items => by
    rw [Flow.nodes, Flow.count, List.length_cons, items.length_nodes]
  | .mapping entries => by
    rw [Flow.nodes, Flow.count, List.length_cons, entries.length_nodes]

theorem FlowItems.length_nodes (base : Nat) :
    (items : FlowItems) → (items.nodes base).length = items.count
  | .nil => rfl
  | .cons item rest => by
    rw [FlowItems.nodes, FlowItems.count, List.length_append, item.length_nodes, rest.length_nodes]

theorem FlowEntries.length_nodes (base : Nat) :
    (entries : FlowEntries) → (entries.nodes base).length = entries.count
  | .nil => rfl
  | .cons _ _ value rest => by
    rw [FlowEntries.nodes, FlowEntries.count, List.length_cons, List.length_append, value.length_nodes,
      rest.length_nodes]
    omega

end

theorem Flow.exists_tokens (tree : Flow) : ∃ first more, tree.tokens = first :: more ∧
    (first = .flowSequenceStart ∨ first = .flowMappingStart ∨
      ∃ plain text, first = .scalar plain text) := by
  cases tree with
  | scalar plain text => exact ⟨_, _, rfl, .inr (.inr ⟨plain, text, rfl⟩)⟩
  | sequence items => exact ⟨_, _, rfl, .inl rfl⟩
  | mapping entries => exact ⟨_, _, rfl, .inr (.inl rfl)⟩

theorem Flow.tokens_ne_nil (tree : Flow) : tree.tokens ≠ [] := by
  cases tree <;> exact List.cons_ne_nil _ _

theorem FlowItems.tokens_ne_nil (first : Bool) (items : FlowItems) : items.tokens first ≠ [] := by
  cases items with
  | nil => exact List.cons_ne_nil _ _
  | cons item rest => simp [tokens, item.tokens_ne_nil]

theorem FlowEntries.tokens_ne_nil (first : Bool) (entries : FlowEntries) :
    entries.tokens first ≠ [] := by
  cases entries <;> simp [tokens]

/-! Steps of reading, at given tokens. -/

section

variable {α β : Type} {s s' s'' : ReadState} {value : α} {result : β} {p q : Prop}

/-- A step that comes to a given state with a given value if a condition holds, and fails
otherwise. -/
def Reads (step : Read α) (s s' : ReadState) (value : α) (condition : Prop) : Prop :=
  (condition → step.run s = .ok (value, s')) ∧ (¬ condition → ∃ failure, step.run s = .error failure)

theorem Reads.bind {step : Read α} {next : α → Read β} (first : Reads step s s' value p)
    (second : Reads (next value) s' s'' result q) : Reads (step >>= next) s s'' result (p ∧ q) := by
  by_cases holds : p
  · have same : (step >>= next).run s = (next value).run s' := by
      rw [StateT.run_bind, first.1 holds]
      rfl
    refine ⟨fun both => same.trans (second.1 both.2), fun other => ?_⟩
    rw [same]
    exact second.2 fun holdsToo => other ⟨holds, holdsToo⟩
  · obtain ⟨failure, fails⟩ := first.2 holds
    refine ⟨fun both => absurd both.1 holds, fun _ => ⟨failure, ?_⟩⟩
    rw [StateT.run_bind, fails]
    rfl

theorem Reads.stop {step : Read α} {next : α → Read β} (fails : Reads step s s' value False) :
    Reads (step >>= next) s s'' result False := by
  obtain ⟨failure, error⟩ := fails.2 not_false
  refine ⟨nofun, fun _ => ⟨failure, ?_⟩⟩
  rw [StateT.run_bind, error]
  rfl

theorem Reads.of_iff {step : Read α} (reads : Reads step s s' value p) (same : p ↔ q) :
    Reads step s s' value q :=
  propext same ▸ reads

theorem reads_of_ok {step : Read α} (done : step.run s = .ok (value, s')) :
    Reads step s s' value True :=
  ⟨fun _ => done, fun other => absurd trivial other⟩

end

section

variable {α : Type} {s s' : ReadState} {value : α} {p : Prop} {token : Token} {rest : List Token}
  {nodes : List Node}

def ReadState.moved (s : ReadState) (tokens : List Token) (nodes : List Node) : ReadState :=
  { s with tokens := tokens, nodes := nodes.toArray }

theorem reads_peekToken {next : Token → Read α}
    (after : Reads (next token) (s.moved (token :: rest) nodes) s' value p) :
    Reads (peekToken >>= next) (s.moved (token :: rest) nodes) s' value p :=
  after

theorem reads_skipToken {next : Unit → Read α}
    (after : Reads (next ()) (s.moved rest nodes) s' value p) :
    Reads (skipToken >>= next) (s.moved (token :: rest) nodes) s' value p :=
  after

theorem reads_expectToken {next : Unit → Read α}
    (after : Reads (next ()) (s.moved rest nodes) s' value p) :
    Reads (expectToken token >>= next) (s.moved (token :: rest) nodes) s' value p := by
  have passes : Reads (expectToken token) (s.moved (token :: rest) nodes) (s.moved rest nodes) ()
      True := by
    refine reads_peekToken ?_
    rw [if_pos rfl]
    exact reads_of_ok rfl
  exact (passes.bind after).of_iff (by simp)

theorem reads_expectToken_of_ne {other : Token} {next : Unit → Read α} (unlike : other ≠ token) :
    Reads (expectToken token >>= next) (s.moved (other :: rest) nodes) s' value False := by
  have stops : Reads (expectToken token) (s.moved (other :: rest) nodes) s () False := by
    refine reads_peekToken ?_
    rw [if_neg unlike]
    exact ⟨nofun, fun _ => ⟨.malformed, rfl⟩⟩
  exact stops.stop

theorem reads_addNode (node : Node) (tokens : List Token) :
    Reads (addNode none node) (s.moved tokens nodes) (s.moved tokens (nodes ++ [node]))
      nodes.length True := by
  refine reads_of_ok ?_
  have pushed : nodes.toArray.push node = (nodes ++ [node]).toArray := List.push_toArray ..
  simp only [ReadState.moved, ← pushed]
  rfl

theorem reads_complete {number : Nat} (node : Node) (tokens : List Token) :
    Reads (complete number node) (s.moved tokens nodes) (s.moved tokens (nodes.set number node))
      number True := by
  refine reads_of_ok ?_
  have changed : nodes.toArray.setIfInBounds number node = (nodes.set number node).toArray :=
    List.setIfInBounds_toArray ..
  simp only [ReadState.moved, ← changed]
  rfl

theorem reads_collection {β : Type} {step : Read β} (node : β → Node) {before more : List Token}
    {members : β} {inner : List Node} {begun : Node}
    (reads : Reads step (s.moved before (nodes ++ [begun]))
      (s.moved more (nodes ++ [begun] ++ inner)) members p) :
    Reads (do
        let number ← addNode none begun
        let members ← step
        complete number (node members))
      (s.moved before nodes) (s.moved more (nodes ++ node members :: inner)) nodes.length p := by
  have set : (nodes ++ [begun] ++ inner).set nodes.length (node members) =
      nodes ++ node members :: inner := by
    simp
  have ends := @reads_complete s (nodes ++ [begun] ++ inner) nodes.length (node members) more
  rw [set] at ends
  exact ((reads_addNode begun before).bind (reads.bind ends)).of_iff (by simp)

theorem reads_noProperties {next : Option (List Char) × Option (List Char) → Read α}
    (starts : token = .flowSequenceStart ∨ token = .flowMappingStart ∨
      ∃ plain text, token = .scalar plain text)
    (after : Reads (next (none, none)) (s.moved (token :: rest) nodes) s' value p) :
    Reads (readProperties >>= next) (s.moved (token :: rest) nodes) s' value p := by
  rcases starts with rfl | rfl | ⟨plain, text, rfl⟩
  · exact after
  · exact after
  · exact after

theorem reads_readFlowValue {fuel : Nat} {tree : Flow} {number : Nat}
    (reads : Reads (readNode fuel false false) (s.moved (tree.tokens ++ rest) nodes) s' number p) :
    Reads (readFlowValue (fuel + 1)) (s.moved (.value :: (tree.tokens ++ rest)) nodes) s' number
      p := by
  obtain ⟨first, more, same, kind⟩ := tree.exists_tokens
  rw [same] at reads ⊢
  unfold readFlowValue
  refine reads_peekToken (reads_skipToken ?_)
  rcases kind with rfl | rfl | ⟨plain, text, rfl⟩
  · exact reads_peekToken reads
  · exact reads_peekToken reads
  · exact reads_peekToken reads

theorem reads_scalar {fuel : Nat} (block indentless plain : Bool) (text : List Char) :
    Reads (readNode (fuel + 1) block indentless) (s.moved (.scalar plain text :: rest) nodes)
      (s.moved rest (nodes ++ [.scalar (scalarTag none plain text) text])) nodes.length True := by
  unfold readNode
  refine reads_peekToken (reads_noProperties (.inr (.inr ⟨plain, text, rfl⟩)) ?_)
  exact reads_peekToken (reads_skipToken (reads_addNode _ _))

theorem reads_readFlowItems {fuel : Nat} (first : Bool) {item : Flow} {numbers : List Nat}
    (reads : Reads (do return (← readNode fuel false false) :: (← readFlowItems fuel false))
      (s.moved (item.tokens ++ rest) nodes) s' numbers p) :
    Reads (readFlowItems (fuel + 1) first)
      (s.moved ((if first then [] else [.flowEntry]) ++ (item.tokens ++ rest)) nodes) s' numbers
      p := by
  obtain ⟨head, tail, same, kind⟩ := item.exists_tokens
  rw [same] at reads ⊢
  unfold readFlowItems
  cases first with
  | true =>
    rcases kind with rfl | rfl | ⟨plain, text, rfl⟩ <;> exact reads_peekToken (reads_peekToken reads)
  | false =>
    rcases kind with rfl | rfl | ⟨plain, text, rfl⟩ <;>
      exact reads_peekToken (reads_expectToken (reads_peekToken reads))

theorem reads_markedEntry {fuel : Nat} (first : Bool) {key : List Char}
    {entries : List (Nat × Nat)}
    (reads : Reads (do
        let key ← readNode fuel false false
        let value ← readFlowValue fuel
        return (key, value) :: (← readFlowEntries fuel false))
      (s.moved (.scalar false key :: rest) nodes) s' entries p) :
    Reads (readFlowEntries (fuel + 1) first)
      (s.moved ((if first then [] else [.flowEntry]) ++ .key :: .scalar false key :: rest) nodes)
      s' entries p := by
  unfold readFlowEntries
  cases first with
  | true => exact reads_peekToken (reads_peekToken (reads_skipToken (reads_peekToken reads)))
  | false =>
    exact reads_peekToken (reads_expectToken (reads_peekToken (reads_skipToken
      (reads_peekToken reads))))

theorem reads_unmarkedEntry {fuel : Nat} (first : Bool) (key : List Char) (s' : ReadState)
    (entries : List (Nat × Nat)) :
    Reads (readFlowEntries (fuel + 2) first)
      (s.moved ((if first then [] else [.flowEntry]) ++ .scalar false key :: .value :: rest) nodes)
      s' entries False := by
  have colon {nodes : List Node} : Reads (readFlowEntries (fuel + 1) false)
      (s.moved (.value :: rest) nodes) s' [] False := by
    unfold readFlowEntries
    exact reads_peekToken (reads_expectToken_of_ne nofun)
  have stops : Reads (do
        let key ← readNode (fuel + 1) false false
        let value ← addEmpty
        return (key, value) :: (← readFlowEntries (fuel + 1) false))
      (s.moved (.scalar false key :: .value :: rest) nodes) s' entries False :=
    ((reads_scalar false false false key).bind ((reads_addNode _ _).bind colon.stop)).of_iff
      (by simp)
  unfold readFlowEntries
  cases first with
  | true => exact reads_peekToken (reads_peekToken stops)
  | false => exact reads_peekToken (reads_expectToken (reads_peekToken stops))

end

/-! Reading a tree. A step is taken for every token at most. -/

mutual

theorem Flow.reads {fuel : Nat} {s : ReadState} {nodes : List Node} {rest : List Token}
    (block indentless : Bool) : (tree : Flow) → tree.tokens.length ≤ fuel →
      Reads (readNode fuel block indentless) (s.moved (tree.tokens ++ rest) nodes)
        (s.moved rest (nodes ++ tree.nodes nodes.length)) nodes.length tree.Marked
  | .scalar plain text, enough => by
    obtain ⟨fuel, rfl⟩ := Nat.exists_eq_add_of_le' (show 1 ≤ fuel from enough)
    exact reads_scalar block indentless plain text
  | .sequence items, enough => by
    simp only [Flow.tokens, List.length_cons] at enough
    obtain ⟨fuel, rfl⟩ := Nat.exists_eq_add_of_le' (show 1 ≤ fuel by omega)
    unfold readNode
    refine reads_peekToken (reads_noProperties (.inl rfl) (reads_peekToken ?_))
    have inner := @FlowItems.reads fuel s (nodes ++ [.sequence (.core .sequence) []]) rest true
      items (by omega)
    rw [List.length_append] at inner
    exact reads_collection _ (reads_skipToken inner)
  | .mapping entries, enough => by
    simp only [Flow.tokens, List.length_cons] at enough
    obtain ⟨fuel, rfl⟩ := Nat.exists_eq_add_of_le' (show 1 ≤ fuel by omega)
    unfold readNode
    refine reads_peekToken (reads_noProperties (.inr (.inl rfl)) (reads_peekToken ?_))
    have inner := @FlowEntries.reads fuel s (nodes ++ [.mapping (.core .mapping) []]) rest true
      entries (by omega)
    rw [List.length_append] at inner
    exact reads_collection _ (reads_skipToken inner)

theorem FlowItems.reads {fuel : Nat} {s : ReadState} {nodes : List Node} {rest : List Token}
    (first : Bool) : (items : FlowItems) → (items.tokens first).length ≤ fuel →
      Reads (readFlowItems fuel first) (s.moved (items.tokens first ++ rest) nodes)
        (s.moved rest (nodes ++ items.nodes nodes.length)) (items.numbers nodes.length) items.Marked
  | .nil, enough => by
    obtain ⟨fuel, rfl⟩ := Nat.exists_eq_add_of_le' (show 1 ≤ fuel from enough)
    unfold readFlowItems
    rw [FlowItems.nodes, List.append_nil]
    exact reads_peekToken (reads_skipToken (reads_of_ok rfl))
  | .cons item more, enough => by
    have filled := List.length_pos_iff.mpr (more.tokens_ne_nil false)
    have size := List.length_pos_iff.mpr item.tokens_ne_nil
    simp only [FlowItems.tokens, List.length_append] at enough
    obtain ⟨fuel, rfl⟩ := Nat.exists_eq_add_of_le' (show 1 ≤ fuel by omega)
    have readItem := @Flow.reads fuel s nodes (more.tokens false ++ rest) false false item
      (by omega)
    have readMore := @FlowItems.reads fuel s (nodes ++ item.nodes nodes.length) rest false more
      (by omega)
    rw [List.length_append, item.length_nodes, List.append_assoc] at readMore
    have both : Reads (do return (← readNode fuel false false) :: (← readFlowItems fuel false))
        (s.moved (item.tokens ++ (more.tokens false ++ rest)) nodes)
        (s.moved rest (nodes ++ (FlowItems.cons item more).nodes nodes.length))
        ((FlowItems.cons item more).numbers nodes.length) (FlowItems.cons item more).Marked :=
      readItem.bind ((readMore.bind (reads_of_ok rfl)).of_iff (by rw [and_true]))
    simp only [FlowItems.tokens, List.append_assoc]
    exact reads_readFlowItems first both

theorem FlowEntries.reads {fuel : Nat} {s : ReadState} {nodes : List Node} {rest : List Token}
    (first : Bool) : (entries : FlowEntries) → (entries.tokens first).length ≤ fuel →
      Reads (readFlowEntries fuel first) (s.moved (entries.tokens first ++ rest) nodes)
        (s.moved rest (nodes ++ entries.nodes nodes.length)) (entries.numbers nodes.length)
        entries.Marked
  | .nil, enough => by
    obtain ⟨fuel, rfl⟩ := Nat.exists_eq_add_of_le' (show 1 ≤ fuel from enough)
    unfold readFlowEntries
    rw [FlowEntries.nodes, List.append_nil]
    exact reads_peekToken (reads_skipToken (reads_of_ok rfl))
  | .cons key false value more, enough => by
    simp only [FlowEntries.tokens, List.length_append, List.length_cons] at enough
    obtain ⟨fuel, rfl⟩ := Nat.exists_eq_add_of_le' (show 2 ≤ fuel by omega)
    simp only [FlowEntries.tokens, Bool.false_eq_true, if_false, List.nil_append,
      List.append_assoc, List.cons_append]
    exact (reads_unmarkedEntry first key _ _).of_iff (by simp [FlowEntries.Marked])
  | .cons key true value more, enough => by
    have filled := List.length_pos_iff.mpr (more.tokens_ne_nil false)
    have size := List.length_pos_iff.mpr value.tokens_ne_nil
    simp only [FlowEntries.tokens, List.length_append, List.length_cons] at enough
    obtain ⟨fuel, rfl⟩ := Nat.exists_eq_add_of_le' (show 2 ≤ fuel by omega)
    have readValue := @Flow.reads fuel s (nodes ++ [.scalar (.core .text) key])
      (more.tokens false ++ rest) false false value (by omega)
    have readMore := @FlowEntries.reads (fuel + 1) s
      (nodes ++ [.scalar (.core .text) key] ++ value.nodes (nodes.length + 1)) rest false more
      (by omega)
    simp only [List.length_append, List.length_singleton, List.append_assoc, value.length_nodes,
      ← Nat.add_assoc] at readMore readValue
    have all : Reads (do
          let key ← readNode (fuel + 1) false false
          let value ← readFlowValue (fuel + 1)
          return (key, value) :: (← readFlowEntries (fuel + 1) false))
        (s.moved (.scalar false key :: .value :: (value.tokens ++ (more.tokens false ++ rest)))
          nodes)
        (s.moved rest (nodes ++ (FlowEntries.cons key true value more).nodes nodes.length))
        ((FlowEntries.cons key true value more).numbers nodes.length)
        (FlowEntries.cons key true value more).Marked := by
      refine ((reads_scalar false false false key).bind ((reads_readFlowValue readValue).bind
        (readMore.bind (reads_of_ok rfl)))).of_iff ?_
      simp [FlowEntries.Marked]
    simp only [FlowEntries.tokens, if_true, List.append_assoc, List.cons_append, List.nil_append]
    exact reads_markedEntry first all

end

/-! A text of one tree. -/

theorem Flow.reads_readRoot {fuel : Nat} {s : ReadState} {nodes : List Node} {rest : List Token}
    (tree : Flow) (enough : tree.tokens.length ≤ fuel) :
    Reads (readRoot fuel) (s.moved (tree.tokens ++ rest) nodes)
      (s.moved rest (nodes ++ tree.nodes nodes.length)) (some nodes.length) tree.Marked := by
  have root : Reads (some <$> readNode fuel true false) (s.moved (tree.tokens ++ rest) nodes)
      (s.moved rest (nodes ++ tree.nodes nodes.length)) (some nodes.length) tree.Marked := by
    rw [← bind_pure_comp]
    exact ((tree.reads true false enough).bind (reads_of_ok rfl)).of_iff (by rw [and_true])
  obtain ⟨first, more, same, kind⟩ := tree.exists_tokens
  rw [same] at root ⊢
  rcases kind with rfl | rfl | ⟨plain, text, rfl⟩
  · exact reads_peekToken root
  · exact reads_peekToken root
  · exact reads_peekToken root

theorem Flow.reads_readStream {fuel : Nat} {s : ReadState} {nodes : List Node} (tree : Flow)
    (enough : tree.tokens.length ≤ fuel) :
    Reads (readStream fuel) (s.moved (tree.tokens ++ [.streamEnd]) nodes)
      (s.moved [.streamEnd] (nodes ++ tree.nodes nodes.length)) (some nodes.length)
      tree.Marked :=
  ((tree.reads_readRoot enough).bind (reads_of_ok rfl)).of_iff (by rw [and_true])

theorem Flow.ofText_eq {tree : Flow} {text : List Char}
    (tokens : tokensOf text = (tree.tokens ++ [.streamEnd], none)) :
    (tree.Marked → Node.ofText text = .ok (some 0, (tree.nodes 0).toArray)) ∧
      (¬ tree.Marked → ∃ failure, Node.ofText text = .error failure) := by
  have enough : tree.tokens.length ≤ 4 * (tree.tokens ++ [Token.streamEnd]).length + 4 := by
    rw [List.length_append]
    omega
  have reads := @tree.reads_readStream _ ⟨[], none, #[], [], standardHandles⟩ [] enough
  refine ⟨fun marked => ?_, fun unmarked => ?_⟩
  · have done := reads.1 marked
    unfold Node.ofText
    rw [tokens]
    exact congrArg (fun result => result >>= fun read => pure (read.1, read.2.nodes)) done
  · obtain ⟨failure, fails⟩ := reads.2 unmarked
    refine ⟨failure, ?_⟩
    unfold Node.ofText
    rw [tokens]
    exact congrArg (fun result => result >>= fun read => pure (read.1, read.2.nodes)) fails

end ApiCatalog.Yaml
