import ApiCatalog.Proofs.Json.Entries
import ApiCatalog.Proofs.Yaml.FlowNodes
import ApiCatalog.Proofs.Yaml.PlainNodes

/-!
The values of flow collections. A tree whose scalars have values has one as a whole, and building its
nodes gives that value.
-/

namespace ApiCatalog.Yaml

mutual

/-- What a tree means: the scalars what their tags and texts say, and of equal keys the last one
counts. -/
def Flow.Means : Flow → Value → Prop
  | .scalar plain text, value => ∃ kind, scalarTag none plain text = .core kind ∧
      emptyShape? (.core kind) = none ∧ scalarValue kind text = .ok value
  | .sequence items, value => ∃ values, items.Mean values ∧ value = .list values
  | .mapping entries, value => ∃ read, entries.Mean read ∧
      value = .map (collectEntries Value.same read)

def FlowItems.Mean : FlowItems → List Value → Prop
  | .nil, values => values = []
  | .cons item rest, values => ∃ first more, item.Means first ∧ rest.Mean more ∧
      values = first :: more

def FlowEntries.Mean : FlowEntries → List (Value × Value) → Prop
  | .nil, read => read = []
  | .cons key _ value rest, read => ∃ first more, value.Means first ∧ rest.Mean more ∧
      read = (.text (String.ofList key), first) :: more

end

/-! Nodes that stand in a row. -/

section

variable {nodes part : List Node} {node : Node} {number : Nat}

def StandAt (nodes : List Node) (number : Nat) (part : List Node) : Prop :=
  part <+: nodes.drop number

theorem StandAt.head (stand : StandAt nodes number (node :: part)) :
    nodes[number]? = some node := by
  obtain ⟨rest, same⟩ := stand
  rw [← List.head?_drop, ← same]
  rfl

theorem StandAt.tail (stand : StandAt nodes number (node :: part)) :
    StandAt nodes (number + 1) part := by
  obtain ⟨rest, same⟩ := stand
  refine ⟨rest, ?_⟩
  rw [← List.tail_drop, ← same]
  rfl

theorem StandAt.left {more : List Node} (stand : StandAt nodes number (part ++ more)) :
    StandAt nodes number part :=
  (List.prefix_append part more).trans stand

theorem StandAt.right {more : List Node} (stand : StandAt nodes number (part ++ more)) :
    StandAt nodes (number + part.length) more := by
  obtain ⟨rest, same⟩ := stand
  refine ⟨rest, ?_⟩
  rw [← List.drop_drop, ← same, List.append_assoc, List.drop_left]

theorem StandAt.exists_fuel {fuel : Nat} (stand : StandAt nodes number (node :: part))
    (enough : nodes.length < number + fuel) :
    ∃ less, fuel = less + 1 ∧ nodes.length < number + 1 + less := by
  obtain ⟨inside, -⟩ := List.getElem?_eq_some_iff.mp stand.head
  exact ⟨fuel - 1, by omega, by omega⟩

end

theorem Flow.count_pos (tree : Flow) : 0 < tree.count := by
  cases tree <;> simp [Flow.count]

theorem FlowItems.of_mem_numbers {number : Nat} : (items : FlowItems) → (base : Nat) →
    number ∈ items.numbers base → base ≤ number ∧ number < base + items.count
  | .nil, _, member => nomatch member
  | .cons item rest, base, member => by
    have positive := item.count_pos
    rw [FlowItems.count]
    rcases List.mem_cons.mp member with rfl | member
    · omega
    · have bounds := rest.of_mem_numbers _ member
      omega

theorem FlowEntries.of_mem_numbers {entry : Nat × Nat} : (entries : FlowEntries) → (base : Nat) →
    entry ∈ entries.numbers base →
      base ≤ entry.1 ∧ entry.1 < entry.2 ∧ entry.2 < base + entries.count
  | .nil, _, member => nomatch member
  | .cons _ _ value rest, base, member => by
    have positive := value.count_pos
    rw [FlowEntries.count]
    rcases List.mem_cons.mp member with rfl | member
    · refine ⟨Nat.le_refl _, Nat.lt_succ_self _, ?_⟩
      omega
    · have bounds := rest.of_mem_numbers _ member
      omega

theorem FlowEntries.key_of_mem_numbers {nodes : List Node} {entry : Nat × Nat} :
    (entries : FlowEntries) → (base : Nat) → StandAt nodes base (entries.nodes base) →
      entry ∈ entries.numbers base → ∃ text, nodes[entry.1]? = some (.scalar (.core .text) text)
  | .nil, _, _, member => nomatch member
  | .cons key _ value rest, base, stand, member => by
    rcases List.mem_cons.mp member with rfl | member
    · exact ⟨key, stand.head⟩
    · have after := stand.tail.right
      rw [value.length_nodes] at after
      exact rest.key_of_mem_numbers _ after member

/-! The nodes of a tree that means something are plain. -/

def ArePlainIn (nodes : List Node) (base count : Nat) : Prop :=
  ∀ number, base ≤ number → number < base + count → ∀ node, nodes[number]? = some node →
    Node.IsPlain nodes.toArray number node

theorem ArePlainIn.append {nodes : List Node} {base first second : Nat}
    (plain : ArePlainIn nodes base first) (plainToo : ArePlainIn nodes (base + first) second) :
    ArePlainIn nodes base (first + second) := by
  intro number least below node found
  by_cases inFirst : number < base + first
  · exact plain number least inFirst node found
  · exact plainToo number (by omega) (by omega) node found

theorem arePlainIn_one {nodes : List Node} {base : Nat} {node : Node}
    (found : nodes[base]? = some node) (plain : Node.IsPlain nodes.toArray base node) :
    ArePlainIn nodes base 1 := by
  intro number least below other foundOther
  obtain rfl : number = base := by omega
  cases found.symm.trans foundOther
  exact plain

section

variable {nodes : List Node}

mutual

theorem Flow.arePlainIn {value : Value} : (tree : Flow) → (base : Nat) →
    StandAt nodes base (tree.nodes base) → tree.Means value → base + tree.count ≤ nodes.length →
      ArePlainIn nodes base tree.count
  | .scalar plain text, base, stand, means, _ => by
    obtain ⟨kind, tag, single, reads⟩ := means
    refine arePlainIn_one stand.head ?_
    rw [tag]
    exact .scalar single reads
  | .sequence items, base, stand, means, inside => by
    obtain ⟨values, mean, -⟩ := means
    rw [Flow.count] at inside ⊢
    have inner := items.arePlainIn (base + 1) stand.tail mean (by omega)
    have first : ArePlainIn nodes base 1 := by
      refine arePlainIn_one stand.head (.sequence fun item member => ?_)
      have bounds := items.of_mem_numbers _ member
      rw [List.size_toArray]
      omega
    rw [Nat.add_comm]
    exact first.append inner
  | .mapping entries, base, stand, means, inside => by
    obtain ⟨read, mean, -⟩ := means
    rw [Flow.count] at inside ⊢
    have inner := entries.arePlainIn (base + 1) stand.tail mean (by omega)
    have first : ArePlainIn nodes base 1 := by
      refine arePlainIn_one stand.head (.mapping (fun entry member => ?_) fun entry member => ?_)
      · have bounds := entries.of_mem_numbers _ member
        rw [List.size_toArray]
        omega
      · rw [List.getElem?_toArray]
        exact entries.key_of_mem_numbers _ stand.tail member
    rw [Nat.add_comm]
    exact first.append inner

theorem FlowItems.arePlainIn {values : List Value} : (items : FlowItems) → (base : Nat) →
    StandAt nodes base (items.nodes base) → items.Mean values →
      base + items.count ≤ nodes.length → ArePlainIn nodes base items.count
  | .nil, base, _, _, _ => by
    intro number least below
    rw [FlowItems.count] at below
    omega
  | .cons item rest, base, stand, mean, inside => by
    obtain ⟨first, more, means, meanMore, -⟩ := mean
    have after := stand.right
    rw [item.length_nodes] at after
    rw [FlowItems.count] at inside ⊢
    exact (item.arePlainIn base stand.left means (by omega)).append
      (rest.arePlainIn _ after meanMore (by omega))

theorem FlowEntries.arePlainIn {read : List (Value × Value)} : (entries : FlowEntries) →
    (base : Nat) → StandAt nodes base (entries.nodes base) → entries.Mean read →
      base + entries.count ≤ nodes.length → ArePlainIn nodes base entries.count
  | .nil, base, _, _, _ => by
    intro number least below
    rw [FlowEntries.count] at below
    omega
  | .cons key _ value rest, base, stand, mean, inside => by
    obtain ⟨first, more, means, meanMore, -⟩ := mean
    have after := stand.tail.right
    rw [value.length_nodes] at after
    rw [FlowEntries.count] at inside ⊢
    have keyPlain : ArePlainIn nodes base 1 :=
      arePlainIn_one stand.head
        (.scalar rfl (show scalarValue .text key = .ok (.text (String.ofList key)) from rfl))
    have valuePlain := value.arePlainIn _ stand.tail.left means (by omega)
    have restPlain := rest.arePlainIn _ after meanMore (by omega)
    rw [Nat.add_assoc] at restPlain
    exact (keyPlain.append valuePlain).append restPlain

end

end

/-! Complete shapes are put together to the value that the tree means. -/

section

variable {nodes : List Node} {shapes : Array (Option Shape)}

theorem same_keyedEntry (nodes : Array Node) (a b : Nat × Nat) :
    Value.same (keyedEntry nodes a).1.1 (keyedEntry nodes b).1.1 =
      Key.same (keyedEntry nodes a).1 (keyedEntry nodes b).1 := by
  by_cases same : a.1 = b.1
  · simp [keyedEntry, Key.same, same, Value.same]
  · have other : (a.1 == b.1) = false := beq_false_of_ne same
    simp [keyedEntry, Key.same, other]

theorem collectEntries_keyedEntry {nodes : Array Node} {numbers : List (Nat × Nat)}
    {f : Nat → Value × List Nat} {read : List (Value × Value)}
    (parts : numbers.map (fun entry => ((keyedEntry nodes entry).1.1, f entry.2)) =
      read.map (Prod.map id fun value => (value, []))) :
    ((collectEntries Key.same (numbers.map (keyedEntry nodes))).map
        fun (key, value) => (key.1, value)).map (fun entry => (entry.1, f entry.2)) =
      (collectEntries Value.same read).map fun entry => (entry.1, (entry.2, [])) := by
  have agree : ∀ a ∈ numbers.map (keyedEntry nodes), ∀ b ∈ numbers.map (keyedEntry nodes),
      Value.same a.1.1 b.1.1 = Key.same a.1 b.1 := by
    simp only [List.forall_mem_map]
    exact fun a _ b _ => same_keyedEntry nodes a b
  rw [List.map_map]
  refine (collectEntries_map agree).symm.trans ?_
  rw [List.map_map]
  exact (congrArg _ parts).trans (collectEntries_map fun _ _ _ _ => rfl)

theorem lt_succ_of_mem_cons {number : Nat} {around : List Nat}
    (outside : ∀ other ∈ around, other < number) : ∀ other ∈ number :: around, other < number + 1 :=
  List.forall_mem_cons.mpr
    ⟨Nat.lt_succ_self number, fun other member => Nat.lt_succ_of_lt (outside other member)⟩

theorem not_mem_of_outside {number : Nat} {around : List Nat}
    (outside : ∀ other ∈ around, other < number) : number ∉ around :=
  fun member => Nat.lt_irrefl _ (outside number member)

theorem unfold_value {number fuel : Nat} {around : List Nat}
    (outside : ∀ other ∈ around, other < number) {value : Value} {identity : Nat}
    (held : shapeAt? shapes number = some (.value value identity)) :
    unfold shapes (fuel + 1) around number = (value, []) := by
  simp [unfold, not_mem_of_outside outside, held]

theorem unfold_list {number fuel : Nat} {around items : List Nat}
    (outside : ∀ other ∈ around, other < number)
    (held : shapeAt? shapes number = some (.list items)) {values : List Value}
    (parts : items.map (unfold shapes fuel (number :: around)) =
      values.map fun value => (value, [])) :
    unfold shapes (fuel + 1) around number = (.list values, []) := by
  simp [unfold, not_mem_of_outside outside, held, parts, tie, Function.comp_def]

theorem unfold_map {number fuel : Nat} {around : List Nat} {entries : List (Value × Nat)}
    (outside : ∀ other ∈ around, other < number)
    (held : shapeAt? shapes number = some (.map entries)) {read : List (Value × Value)}
    (parts : entries.map (fun entry => (entry.1, unfold shapes fuel (number :: around) entry.2)) =
      read.map fun entry => (entry.1, (entry.2, []))) :
    unfold shapes (fuel + 1) around number = (.map read, []) := by
  simp [unfold, not_mem_of_outside outside, held, parts, tie, Function.comp_def]

mutual

theorem Flow.unfold_eq
    (complete : ∀ number, (shapeAt? shapes number).isSome → IsComplete nodes.toArray shapes number)
    {around : List Nat} {fuel : Nat} {value : Value} : (tree : Flow) → (base : Nat) →
    StandAt nodes base (tree.nodes base) → tree.Means value → (shapeAt? shapes base).isSome →
    (∀ number ∈ around, number < base) → nodes.length < base + fuel →
      unfold shapes fuel around base = (value, [])
  | .scalar plain text, base, stand, means, found, outside, enough => by
    obtain ⟨kind, tag, -, reads⟩ := means
    have known := stand.head
    have shape := complete base found
    simp only [IsComplete, List.getElem?_toArray, known, tag] at shape
    obtain ⟨read, same, held⟩ := shape
    cases reads.symm.trans same
    obtain ⟨fuel, rfl, -⟩ := stand.exists_fuel enough
    exact unfold_value outside held
  | .sequence items, base, stand, means, found, outside, enough => by
    obtain ⟨values, mean, rfl⟩ := means
    have known := stand.head
    have shape := complete base found
    simp only [IsComplete, List.getElem?_toArray, known] at shape
    obtain ⟨held, all⟩ := shape
    obtain ⟨fuel, rfl, near⟩ := stand.exists_fuel enough
    exact unfold_list outside held
      (items.unfold_eq complete (base + 1) stand.tail mean all (lt_succ_of_mem_cons outside) near)
  | .mapping entries, base, stand, means, found, outside, enough => by
    obtain ⟨read, mean, rfl⟩ := means
    have known := stand.head
    have shape := complete base found
    simp only [IsComplete, List.getElem?_toArray, known] at shape
    obtain ⟨held, all⟩ := shape
    obtain ⟨fuel, rfl, near⟩ := stand.exists_fuel enough
    have parts :=
      entries.unfold_eq complete (base + 1) stand.tail mean all (lt_succ_of_mem_cons outside) near
    exact unfold_map outside held (collectEntries_keyedEntry parts)

theorem FlowItems.unfold_eq
    (complete : ∀ number, (shapeAt? shapes number).isSome → IsComplete nodes.toArray shapes number)
    {around : List Nat} {fuel : Nat} {values : List Value} : (items : FlowItems) → (base : Nat) →
    StandAt nodes base (items.nodes base) → items.Mean values →
    (∀ item ∈ items.numbers base, (shapeAt? shapes item).isSome) →
    (∀ number ∈ around, number < base) → nodes.length < base + fuel →
      (items.numbers base).map (unfold shapes fuel around) = values.map fun value => (value, [])
  | .nil, _, _, mean, _, _, _ => by
    cases mean
    rfl
  | .cons item rest, base, stand, mean, found, outside, enough => by
    obtain ⟨first, more, means, meanMore, rfl⟩ := mean
    obtain ⟨foundFirst, foundMore⟩ := List.forall_mem_cons.mp found
    have after := stand.right
    rw [item.length_nodes] at after
    have further : ∀ number ∈ around, number < base + item.count :=
      fun number member => Nat.lt_add_right _ (outside number member)
    rw [FlowItems.numbers, List.map_cons, List.map_cons,
      item.unfold_eq complete base stand.left means foundFirst outside enough,
      rest.unfold_eq complete _ after meanMore foundMore further (by omega)]

theorem FlowEntries.unfold_eq
    (complete : ∀ number, (shapeAt? shapes number).isSome → IsComplete nodes.toArray shapes number)
    {around : List Nat} {fuel : Nat} {read : List (Value × Value)} :
    (entries : FlowEntries) → (base : Nat) →
    StandAt nodes base (entries.nodes base) → entries.Mean read →
    (∀ entry ∈ entries.numbers base, (shapeAt? shapes entry.2).isSome) →
    (∀ number ∈ around, number < base) → nodes.length < base + fuel →
      (entries.numbers base).map (fun entry =>
          ((keyedEntry nodes.toArray entry).1.1, unfold shapes fuel around entry.2)) =
        read.map (Prod.map id fun value => (value, []))
  | .nil, _, _, mean, _, _, _ => by
    cases mean
    rfl
  | .cons key _ value rest, base, stand, mean, found, outside, enough => by
    obtain ⟨first, more, means, meanMore, rfl⟩ := mean
    obtain ⟨foundFirst, foundMore⟩ := List.forall_mem_cons.mp found
    have after := stand.tail.right
    rw [value.length_nodes] at after
    have keyed : (keyedEntry nodes.toArray (base, base + 1)).1.1 = .text (String.ofList key) := by
      simp only [keyedEntry, keyText, List.getElem?_toArray, stand.head]
    have deeper : ∀ number ∈ around, number < base + 1 :=
      fun number member => Nat.lt_succ_of_lt (outside number member)
    have further : ∀ number ∈ around, number < base + 1 + value.count :=
      fun number member => Nat.lt_add_right _ (deeper number member)
    rw [FlowEntries.numbers, List.map_cons, List.map_cons, keyed,
      value.unfold_eq complete _ stand.tail.left means foundFirst deeper (by omega),
      rest.unfold_eq complete _ after meanMore foundMore further (by omega)]
    rfl

end

end

theorem Flow.build_eq {tree : Flow} {value : Value} (means : tree.Means value) :
    build (tree.nodes 0).toArray 0 = .ok value := by
  have stand : StandAt (tree.nodes 0) 0 (tree.nodes 0) := List.prefix_refl _
  have size := tree.length_nodes 0
  have positive := tree.count_pos
  have plain : ArePlain (tree.nodes 0).toArray := by
    intro number node found
    obtain ⟨inside, -⟩ := Array.getElem?_eq_some_iff.mp found
    rw [List.size_toArray] at inside
    rw [List.getElem?_toArray] at found
    exact tree.arePlainIn 0 stand means (by omega) number (Nat.zero_le _) (by omega) node found
  have inside : 0 < (tree.nodes 0).toArray.size := by
    rw [List.size_toArray]
    omega
  obtain ⟨shapes, built, found, complete⟩ := build_of_plain plain inside
  have near : (tree.nodes 0).length < 0 + ((tree.nodes 0).toArray.size + 1) := by
    rw [List.size_toArray]
    omega
  rw [built, tree.unfold_eq complete 0 stand means found (by simp) near]

end ApiCatalog.Yaml
