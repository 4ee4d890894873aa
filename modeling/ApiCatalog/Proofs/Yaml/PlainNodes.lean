import ApiCatalog.Proofs.Yaml.Failure
import ApiCatalog.Yaml.Document
import Mathlib.Data.List.TakeDrop
import Mathlib.Data.List.TakeWhile

/-!
Nodes without aliases, written tags and merges, as flow collections with quoted keys give them.
Every such collection is completed, since its members have greater numbers than it has.
-/

namespace ApiCatalog.Yaml

/-! Steps that return. -/

section

variable {σ α β : Type} {s : σ}

def Returns (s : σ) (step : StateT σ (Except Failure) α) (post : α → σ → Prop) : Prop :=
  ∃ value s', step.run s = .ok (value, s') ∧ post value s'

theorem returns_pure {value : α} {post : α → σ → Prop} (holds : post value s) :
    Returns s (pure value) post :=
  ⟨value, s, rfl, holds⟩

theorem Returns.set_bind {s' : σ} {next : Unit → StateT σ (Except Failure) β} {post : β → σ → Prop}
    (second : Returns s' (next ()) post) : Returns s (set s' >>= next) post :=
  second

theorem Returns.bind {step : StateT σ (Except Failure) α} {next : α → StateT σ (Except Failure) β}
    {middle : α → σ → Prop} {post : β → σ → Prop} (first : Returns s step middle)
    (second : ∀ value s', middle value s' → Returns s' (next value) post) :
    Returns s (step >>= next) post := by
  obtain ⟨value, s', done, holds⟩ := first
  obtain ⟨result, s'', doneToo, ends⟩ := second value s' holds
  refine ⟨result, s'', ?_, ends⟩
  rw [StateT.run_bind, done]
  exact doneToo

theorem Returns.lift_bind {result : Except Failure α} {value : α}
    {next : α → StateT σ (Except Failure) β} {post : β → σ → Prop} (done : result = .ok value)
    (second : Returns s (next value) post) :
    Returns s ((liftM result : StateT σ (Except Failure) α) >>= next) post :=
  done ▸ second

theorem Returns.get_bind {next : σ → StateT σ (Except Failure) β} {post : β → σ → Prop}
    (second : Returns s (next s) post) : Returns s (get >>= next) post :=
  second

theorem Returns.mono {step : StateT σ (Except Failure) α} {post weaker : α → σ → Prop}
    (returns : Returns s step post) (weaken : ∀ value s', post value s' → weaker value s') :
    Returns s step weaker := by
  obtain ⟨value, s', done, holds⟩ := returns
  exact ⟨value, s', done, weaken value s' holds⟩

/-- A loop returns if each round keeps an invariant of what is still to be done. -/
theorem returns_forM {f : α → StateT σ (Except Failure) Unit} (invariant : List α → σ → Prop)
    (each : ∀ x xs s, invariant (x :: xs) s → Returns s (f x) fun _ => invariant xs) (xs : List α) :
    ∀ s, invariant xs s → Returns s (xs.forM f) fun _ => invariant [] := by
  induction xs with
  | nil => exact fun s holds => returns_pure holds
  | cons x xs inner =>
    intro s holds
    exact (each x xs s holds).bind fun _ s' => inner s'

end

/-! Plain nodes. -/

/-- A node whose members come later, whose keys are texts, and whose scalar has a value. -/
inductive Node.IsPlain (nodes : Array Node) (number : Nat) : Node → Prop
  | scalar {kind : Kind} {text : List Char} {value : Value}
    (single : emptyShape? (.core kind) = none) (reads : scalarValue kind text = .ok value) :
    IsPlain nodes number (.scalar (.core kind) text)
  | sequence {items : List Nat} (later : ∀ item ∈ items, number < item ∧ item < nodes.size) :
    IsPlain nodes number (.sequence (.core .sequence) items)
  | mapping {entries : List (Nat × Nat)}
    (later : ∀ entry ∈ entries, number < entry.1 ∧ number < entry.2 ∧ entry.2 < nodes.size)
    (keys : ∀ entry ∈ entries, ∃ text, nodes[entry.1]? = some (.scalar (.core .text) text)) :
    IsPlain nodes number (.mapping (.core .mapping) entries)

def ArePlain (nodes : Array Node) : Prop :=
  ∀ number node, nodes[number]? = some node → Node.IsPlain nodes number node

def keyText (nodes : Array Node) (number : Nat) : String :=
  match nodes[number]? with
  | some (.scalar _ text) => String.ofList text
  | _ => ""

def keyedEntry (nodes : Array Node) (entry : Nat × Nat) : Key × Nat :=
  ((.text (keyText nodes entry.1), entry.1), entry.2)

def identityOf (nodes : Array Node) (number : Nat) (kind : Kind) (text : List Char) : Nat :=
  if kind = .float ∧ isNanWord text then nodes.size else number

/-- What a completed node has: a value of its own, or members that have something as well. -/
def IsComplete (nodes : Array Node) (shapes : Array (Option Shape)) (number : Nat) : Prop :=
  match nodes[number]? with
  | some (.scalar (.core kind) text) => ∃ value, scalarValue kind text = .ok value ∧
      shapeAt? shapes number = some (.value value (identityOf nodes number kind text))
  | some (.sequence _ items) => shapeAt? shapes number = some (.list items) ∧
      ∀ item ∈ items, (shapeAt? shapes item).isSome
  | some (.mapping _ entries) => shapeAt? shapes number =
        some (.map ((collectEntries Key.same (entries.map (keyedEntry nodes))).map
          fun (key, value) => (key.1, value))) ∧
      ∀ entry ∈ entries, (shapeAt? shapes entry.2).isSome
  | _ => False

def FitsNode (nodes : Array Node) (number : Nat) (shape : Shape) : Prop :=
  match nodes[number]? with
  | some (.scalar _ _) => True
  | some (.sequence _ _) => ∃ items, shape = .list items
  | some (.mapping _ _) => ∃ entries, shape = .map entries
  | none => False

/-- A state in which all nodes that were begun are complete, but for the collections of a list and
for those that wait for the next round. -/
structure Settling (nodes : Array Node) (pending : List Nat) (s : BuildState) : Prop where
  same : s.nodes = nodes
  size : s.shapes.size = nodes.size
  fits : ∀ number shape, shapeAt? s.shapes number = some shape → FitsNode nodes number shape
  waiting : ∀ number ∈ pending ++ s.begun,
    (shapeAt? s.shapes number).isSome ∧ isScalarAt nodes number = false
  settled : ∀ number, (shapeAt? s.shapes number).isSome →
    number ∈ pending ++ s.begun ∨ IsComplete nodes s.shapes number

theorem Settling.lt_size {nodes : Array Node} {pending : List Nat} {s : BuildState} {number : Nat}
    {shape : Shape} (settling : Settling nodes pending s)
    (found : shapeAt? s.shapes number = some shape) : number < nodes.size := by
  rw [← settling.size]
  by_contra beyond
  rw [shapeAt?, Array.getElem?_eq_none (by omega)] at found
  cases found

theorem shapeAt?_setIfInBounds {shapes : Array (Option Shape)} {number : Nat} (shape : Shape)
    (inside : number < shapes.size) (other : Nat) :
    shapeAt? (shapes.setIfInBounds number (some shape)) other =
      if other = number then some shape else shapeAt? shapes other := by
  unfold shapeAt?
  rw [Array.getElem?_setIfInBounds]
  by_cases same : other = number
  · simp [same, inside]
  · rw [if_neg (Ne.symm same), if_neg same]

theorem IsComplete.mono {nodes : Array Node} {shapes shapes' : Array (Option Shape)} {number : Nat}
    (complete : IsComplete nodes shapes number)
    (same : shapeAt? shapes' number = shapeAt? shapes number)
    (grows : ∀ other, (shapeAt? shapes other).isSome → (shapeAt? shapes' other).isSome) :
    IsComplete nodes shapes' number := by
  unfold IsComplete at complete ⊢
  split at complete
  · rwa [same]
  · rw [same]
    exact ⟨complete.1, fun item member => grows item (complete.2 item member)⟩
  · rw [same]
    exact ⟨complete.1, fun entry member => grows entry.2 (complete.2 entry member)⟩
  · exact complete.elim

/-- What is found stays found, and only nodes beyond a bound are begun. -/
structure Grows (bound : Nat) (s s' : BuildState) : Prop where
  shaped : ∀ number, (shapeAt? s.shapes number).isSome → (shapeAt? s'.shapes number).isSome
  begun : ∀ number ∈ s'.begun, number ∈ s.begun ∨ bound ≤ number

theorem Grows.refl (bound : Nat) (s : BuildState) : Grows bound s s :=
  ⟨fun _ found => found, fun _ member => .inl member⟩

theorem Grows.trans {bound : Nat} {s s' s'' : BuildState} (first : Grows bound s s')
    (second : Grows bound s' s'') : Grows bound s s'' := by
  refine ⟨fun number found => second.shaped number (first.shaped number found), ?_⟩
  intro number member
  rcases second.begun number member with before | beyond
  · exact first.begun number before
  · exact .inr beyond

section

variable {nodes : Array Node} {pending : List Nat} {s : BuildState} {number bound : Nat}

def BuildState.shape (s : BuildState) (number : Nat) (shape : Shape) (begun : List Nat) :
    BuildState :=
  { s with shapes := s.shapes.setIfInBounds number (some shape), begun := begun }

theorem shapeAt?_shape (settling : Settling nodes pending s) (inside : number < nodes.size)
    (shape : Shape) (begun : List Nat) (other : Nat) :
    shapeAt? (s.shape number shape begun).shapes other =
      if other = number then some shape else shapeAt? s.shapes other :=
  shapeAt?_setIfInBounds shape (settling.size ▸ inside) other

theorem shapeAt?_shape_self (settling : Settling nodes pending s) (inside : number < nodes.size)
    (shape : Shape) (begun : List Nat) :
    shapeAt? (s.shape number shape begun).shapes number = some shape :=
  (shapeAt?_shape settling inside shape begun number).trans (if_pos rfl)

theorem isSome_shapeAt?_shape (settling : Settling nodes pending s) (inside : number < nodes.size)
    (shape : Shape) (begun : List Nat) {other : Nat} (found : (shapeAt? s.shapes other).isSome) :
    (shapeAt? (s.shape number shape begun).shapes other).isSome := by
  rw [shapeAt?_shape settling inside]
  split
  · rfl
  · exact found

theorem Grows.of_shape (settling : Settling nodes pending s) (inside : number < nodes.size)
    (shape : Shape) {begun : List Nat} (later : ∀ n ∈ begun, n ∈ s.begun ∨ bound ≤ n) :
    Grows bound s (s.shape number shape begun) := by
  exact ⟨fun other => isSome_shapeAt?_shape settling inside shape begun, later⟩

theorem Settling.of_shape {before : List Nat} (settling : Settling nodes before s)
    (inside : number < nodes.size) {shape : Shape} {begun : List Nat}
    (less : ∀ n ∈ pending, n ∈ before) (rest : ∀ n ∈ before, n = number ∨ n ∈ pending)
    (keeps : ∀ n ∈ s.begun, n ∈ begun)
    (waits : ∀ n ∈ begun, n ∈ s.begun ∨ n = number ∧ isScalarAt nodes number = false)
    (fits : FitsNode nodes number shape)
    (settles : number ∈ begun ∨ IsComplete nodes (s.shape number shape begun).shapes number) :
    Settling nodes pending (s.shape number shape begun) := by
  have held := shapeAt?_shape settling inside shape begun
  have grows (other : Nat) := @isSome_shapeAt?_shape _ _ _ _ settling inside shape begun other
  refine ⟨settling.same, ?_, ?_, ?_, ?_⟩
  · exact (Array.size_setIfInBounds ..).trans settling.size
  · intro other shape' found
    rw [held] at found
    split at found
    case isTrue this =>
      cases found
      exact this ▸ fits
    case isFalse => exact settling.fits other shape' found
  · intro other member
    rcases List.mem_append.mp member with member | member
    · obtain ⟨found, single⟩ := settling.waiting other (List.mem_append_left _ (less other member))
      exact ⟨grows other found, single⟩
    · rcases waits other member with member | ⟨rfl, single⟩
      · obtain ⟨found, single⟩ := settling.waiting other (List.mem_append_right _ member)
        exact ⟨grows other found, single⟩
      · exact ⟨Option.isSome_of_eq_some (shapeAt?_shape_self settling inside shape begun), single⟩
  · intro other found
    by_cases this : other = number
    · rw [this]
      exact settles.imp (List.mem_append_right _) id
    · have kept := held other
      rw [if_neg this] at kept
      rw [kept] at found
      rcases settling.settled other found with member | complete
      · left
        rcases List.mem_append.mp member with member | member
        · rcases rest other member with same | member
          · exact absurd same this
          · exact List.mem_append_left _ member
        · exact List.mem_append_right _ (keeps other member)
      · exact .inr (complete.mono kept grows)

theorem Settling.wait (settling : Settling nodes pending s) (inside : number < nodes.size)
    (later : bound ≤ number) {shape : Shape} (fits : FitsNode nodes number shape)
    (single : isScalarAt nodes number = false) :
    Settling nodes pending (s.shape number shape (number :: s.begun)) ∧
      Grows bound s (s.shape number shape (number :: s.begun)) := by
  constructor
  · refine settling.of_shape inside (fun _ member => member) (fun _ => .inr) ?_ ?_ fits ?_
    · exact fun _ => List.mem_cons_of_mem _
    · intro n member
      rcases List.mem_cons.mp member with same | member
      · exact .inr ⟨same, single⟩
      · exact .inl member
    · exact .inl List.mem_cons_self
  · refine .of_shape settling inside shape fun n member => ?_
    rcases List.mem_cons.mp member with rfl | member
    · exact .inr later
    · exact .inl member

theorem Settling.complete {before : List Nat} (settling : Settling nodes before s)
    (inside : number < nodes.size) (less : ∀ n ∈ pending, n ∈ before)
    (rest : ∀ n ∈ before, n = number ∨ n ∈ pending) {shape : Shape}
    (fits : FitsNode nodes number shape)
    (complete : IsComplete nodes (s.shape number shape s.begun).shapes number) :
    Settling nodes pending (s.shape number shape s.begun) ∧
      Grows bound s (s.shape number shape s.begun) :=
  ⟨settling.of_shape inside less rest (fun _ member => member) (fun _ => .inl) fits (.inr complete),
    .of_shape settling inside shape fun _ => .inl⟩

theorem returns_beginScalar (settling : Settling nodes pending s)
    (missing : (shapeAt? s.shapes number).isNone) {kind : Kind} {text : List Char} {value : Value}
    (known : nodes[number]? = some (.scalar (.core kind) text))
    (single : emptyShape? (.core kind) = none) (reads : scalarValue kind text = .ok value) :
    Returns s (beginNode number) fun _ s' => Settling nodes pending s' ∧ Grows bound s s' ∧
      (shapeAt? s'.shapes number).isSome := by
  obtain ⟨inside, -⟩ := Array.getElem?_eq_some_iff.mp known
  obtain rfl := settling.same
  generalize shape : Shape.value value (identityOf s.nodes number kind text) = found
  have held := shapeAt?_shape_self settling inside found s.begun
  have complete : IsComplete s.nodes (s.shape number found s.begun).shapes number := by
    simp only [IsComplete, known]
    exact ⟨value, reads, shape ▸ held⟩
  have text : scalarText s.nodes (s.nodes.size + 1) number = .ok text := by
    rw [scalarText, known]
  have scalar : isScalarAt s.nodes number = true := by
    rw [isScalarAt, known]
  refine Returns.get_bind ?_
  simp only [missing, if_true, tagAt, known, Option.map_some, Node.tag, single, scalar,
    Bool.not_true, Bool.false_eq_true, and_false, if_false]
  refine Returns.lift_bind text (Returns.lift_bind reads ?_)
  refine ⟨(), s.shape number found s.begun, shape ▸ rfl, ?_⟩
  have settles : Settling s.nodes pending (s.shape number found s.begun) ∧
      Grows bound s (s.shape number found s.begun) :=
    settling.complete inside (fun _ member => member) (fun _ => .inr) (by simp [FitsNode, known])
      complete
  exact ⟨settles.1, settles.2, Option.isSome_of_eq_some held⟩

theorem returns_beginCollection (settling : Settling nodes pending s)
    (missing : (shapeAt? s.shapes number).isNone) (later : bound ≤ number) {node : Node}
    (known : nodes[number]? = some node) {kind : Kind} (tag : node.tag = .core kind) {shape : Shape}
    (empty : emptyShape? (.core kind) = some shape) (fits : FitsNode nodes number shape)
    (single : isScalarAt nodes number = false) :
    Returns s (beginNode number) fun _ s' => Settling nodes pending s' ∧ Grows bound s s' ∧
      (shapeAt? s'.shapes number).isSome := by
  obtain ⟨inside, -⟩ := Array.getElem?_eq_some_iff.mp known
  obtain rfl := settling.same
  refine Returns.get_bind ?_
  simp only [missing, if_true, tagAt, known, Option.map_some, tag, empty]
  refine ⟨(), s.shape number shape (number :: s.begun), rfl, ?_⟩
  obtain ⟨settling', grows⟩ := settling.wait inside later fits single
  exact ⟨settling', grows, Option.isSome_of_eq_some (shapeAt?_shape_self settling inside shape _)⟩

theorem returns_beginNode (plain : ArePlain nodes) (settling : Settling nodes pending s)
    (later : bound ≤ number) (inside : number < nodes.size) :
    Returns s (beginNode number) fun _ s' => Settling nodes pending s' ∧ Grows bound s s' ∧
      (shapeAt? s'.shapes number).isSome := by
  by_cases missing : (shapeAt? s.shapes number).isNone
  · have known : nodes[number]? = some nodes[number] := Array.getElem?_eq_getElem inside
    generalize nodes[number] = node at known
    cases plain number node known with
    | scalar single reads => exact returns_beginScalar settling missing known single reads
    | sequence =>
      exact returns_beginCollection settling missing later known rfl rfl
        (by simp [FitsNode, known]) (by simp [isScalarAt, known])
    | mapping =>
      exact returns_beginCollection settling missing later known rfl rfl
        (by simp [FitsNode, known]) (by simp [isScalarAt, known])
  · refine Returns.get_bind ?_
    rw [if_neg missing]
    refine returns_pure ⟨settling, .refl bound s, ?_⟩
    simpa [Option.isSome_iff_ne_none] using missing

theorem returns_keyOf (plain : ArePlain nodes) (settling : Settling nodes pending s)
    (later : bound ≤ number) {text : List Char}
    (key : nodes[number]? = some (.scalar (.core .text) text)) :
    Returns s (keyOf number) fun found s' => found = (.text (keyText nodes number), number) ∧
      Settling nodes pending s' ∧ Grows bound s s' := by
  obtain ⟨inside, -⟩ := Array.getElem?_eq_some_iff.mp key
  refine (returns_beginNode plain settling later inside).bind ?_
  rintro _ s' ⟨settling, grows, found⟩
  -- A scalar does not wait.
  have complete : IsComplete nodes s'.shapes number := by
    rcases settling.settled number found with member | complete
    · have single := (settling.waiting number member).2
      simp [isScalarAt, key] at single
    · exact complete
  have held : shapeAt? s'.shapes number = some (.value (.text (keyText nodes number)) number) := by
    simp only [IsComplete, key] at complete
    obtain ⟨value, ⟨⟩, held⟩ := complete
    rw [held, keyText, key]
    rfl
  refine Returns.get_bind ?_
  rw [held]
  exact returns_pure ⟨rfl, settling, grows⟩

theorem returns_forM_beginNode (plain : ArePlain nodes) (items : List Nat)
    (later : ∀ item ∈ items, bound ≤ item ∧ item < nodes.size) :
    ∀ s, Settling nodes pending s → Returns s (items.forM beginNode) fun _ s' =>
      Settling nodes pending s' ∧ Grows bound s s' ∧
        ∀ item ∈ items, (shapeAt? s'.shapes item).isSome := by
  induction items with
  | nil => exact fun s settling => returns_pure ⟨settling, .refl bound s, nofun⟩
  | cons item items inner =>
    intro s settling
    obtain ⟨⟨beyond, inside⟩, rest⟩ := List.forall_mem_cons.mp later
    refine (returns_beginNode plain settling beyond inside).bind ?_
    rintro _ s' ⟨settling', grows, found⟩
    refine (inner rest s' settling').mono ?_
    rintro _ s'' ⟨settling'', growsToo, all⟩
    refine ⟨settling'', grows.trans growsToo, ?_⟩
    exact List.forall_mem_cons.mpr ⟨growsToo.shaped item found, all⟩

theorem returns_entriesAt {tag : Tag} {entries : List (Nat × Nat)}
    (found : nodes[number]? = some (.mapping tag entries)) :
    Returns nodes (entriesAt number) fun read after => read = entries ∧ after = nodes := by
  refine Returns.get_bind ?_
  rw [found]
  exact returns_pure ⟨rfl, rfl⟩

theorem tagAt_of_text {text : List Char}
    (key : nodes[number]? = some (.scalar (.core .text) text)) :
    tagAt nodes number = some (.core .text) := by
  rw [tagAt, key]
  rfl

theorem span_isMergeEntry {entries : List (Nat × Nat)}
    (keys : ∀ entry ∈ entries, ∃ text, nodes[entry.1]? = some (.scalar (.core .text) text)) :
    entries.span (fun entry => !isMergeEntry nodes entry) = (entries, []) := by
  have all : ∀ entry ∈ entries, (!isMergeEntry nodes entry) = true := by
    intro entry member
    obtain ⟨text, key⟩ := keys entry member
    rw [isMergeEntry, tagAt_of_text key]
    rfl
  rw [List.span_eq_takeWhile_dropWhile, List.takeWhile_eq_self_iff.mpr all,
    List.dropWhile_eq_nil_iff.mpr all]

theorem returns_settleKeys {entries : List (Nat × Nat)}
    (keys : ∀ entry ∈ entries, ∃ text, nodes[entry.1]? = some (.scalar (.core .text) text)) :
    Returns nodes (entries.forM settleKey) fun _ after => after = nodes := by
  have settles := returns_forM (f := settleKey) (fun rest after => after = nodes ∧
    ∀ entry ∈ rest, ∃ text, nodes[entry.1]? = some (.scalar (.core .text) text)) ?_ entries nodes
    ⟨rfl, keys⟩
  · exact settles.mono fun _ _ ends => ends.1
  · rintro entry rest _ ⟨rfl, keys⟩
    obtain ⟨⟨text, key⟩, keys⟩ := List.forall_mem_cons.mp keys
    refine Returns.get_bind ?_
    rw [tagAt_of_text key]
    exact returns_pure ⟨rfl, keys⟩

theorem returns_settledEntries {tag : Tag} {entries : List (Nat × Nat)}
    (found : nodes[number]? = some (.mapping tag entries))
    (keys : ∀ entry ∈ entries, ∃ text, nodes[entry.1]? = some (.scalar (.core .text) text)) :
    Returns nodes (settledEntries number) fun read after => read = entries ∧ after = nodes := by
  have unmerged (fuel : Nat) :
      Returns nodes (settleMerges (fuel + 1) [] number) fun _ after => after = nodes := by
    refine (returns_entriesAt found).bind ?_
    rintro _ _ ⟨rfl, rfl⟩
    refine Returns.get_bind ?_
    rw [span_isMergeEntry keys]
    exact returns_settleKeys keys
  refine Returns.get_bind ((returns_entriesAt found).bind ?_)
  rintro _ _ ⟨-, rfl⟩
  refine (unmerged _).bind ?_
  rintro _ _ rfl
  exact returns_entriesAt found

theorem returns_mapM_entry (plain : ArePlain nodes) (entries : List (Nat × Nat))
    (later : ∀ entry ∈ entries, bound ≤ entry.1 ∧ bound ≤ entry.2 ∧ entry.2 < nodes.size)
    (keys : ∀ entry ∈ entries, ∃ text, nodes[entry.1]? = some (.scalar (.core .text) text)) :
    ∀ s, Settling nodes pending s → Returns s (entries.mapM fun (key, value) => do
        let key ← keyOf key
        beginNode value
        return (key, value)) fun found s' => found = entries.map (keyedEntry nodes) ∧
      Settling nodes pending s' ∧ Grows bound s s' ∧
        ∀ entry ∈ entries, (shapeAt? s'.shapes entry.2).isSome := by
  induction entries with
  | nil => exact fun s settling => returns_pure ⟨rfl, settling, .refl bound s, nofun⟩
  | cons entry entries inner =>
    intro s settling
    obtain ⟨⟨keyBeyond, beyond, inside⟩, rest⟩ := List.forall_mem_cons.mp later
    obtain ⟨⟨text, key⟩, keys⟩ := List.forall_mem_cons.mp keys
    have each : Returns s (do
          let key ← keyOf entry.1
          beginNode entry.2
          return (key, entry.2)) fun found s' => found = keyedEntry nodes entry ∧
        Settling nodes pending s' ∧ Grows bound s s' ∧ (shapeAt? s'.shapes entry.2).isSome := by
      refine (returns_keyOf plain settling keyBeyond key).bind ?_
      rintro _ s' ⟨rfl, settling', grows⟩
      refine (returns_beginNode plain settling' beyond inside).bind ?_
      rintro _ s'' ⟨settling'', growsToo, shaped⟩
      exact returns_pure ⟨rfl, settling'', grows.trans growsToo, shaped⟩
    rw [List.mapM_cons]
    refine each.bind ?_
    rintro _ s' ⟨rfl, settling', grows, shaped⟩
    refine (inner rest keys s' settling').bind ?_
    rintro _ s'' ⟨rfl, settling'', growsToo, all⟩
    refine returns_pure ⟨rfl, settling'', grows.trans growsToo, ?_⟩
    exact List.forall_mem_cons.mpr ⟨growsToo.shaped entry.2 shaped, all⟩

theorem returns_entriesOf (plain : ArePlain nodes) {tag : Tag} {entries : List (Nat × Nat)}
    (found : nodes[number]? = some (.mapping tag entries))
    (later : ∀ entry ∈ entries, bound ≤ entry.1 ∧ bound ≤ entry.2 ∧ entry.2 < nodes.size)
    (keys : ∀ entry ∈ entries, ∃ text, nodes[entry.1]? = some (.scalar (.core .text) text))
    (settling : Settling nodes pending s) :
    Returns s (entriesOf number) fun read s' =>
      read = (collectEntries Key.same (entries.map (keyedEntry nodes))).map
        (fun (key, value) => (key.1, value)) ∧
      Settling nodes pending s' ∧ Grows bound s s' ∧
        ∀ entry ∈ entries, (shapeAt? s'.shapes entry.2).isSome := by
  obtain rfl := settling.same
  refine Returns.get_bind ?_
  obtain ⟨_, _, settled, rfl, rfl⟩ := returns_settledEntries found keys
  refine Returns.lift_bind settled (Returns.set_bind ?_)
  refine (returns_mapM_entry plain _ later keys s settling).bind ?_
  rintro _ s' ⟨rfl, settling', grows, all⟩
  exact returns_pure ⟨rfl, settling', grows, all⟩

theorem returns_setShape (settling : Settling nodes (number :: pending) s)
    (inside : number < nodes.size) {shape : Shape} (fits : FitsNode nodes number shape)
    (complete : IsComplete nodes (s.shape number shape s.begun).shapes number) :
    Returns s (setShape number shape) fun _ s' =>
      Settling nodes pending s' ∧ Grows (number + 1) s s' := by
  refine ⟨(), s.shape number shape s.begun, rfl, ?_⟩
  exact settling.complete inside (fun _ => List.mem_cons_of_mem _) (fun _ => List.mem_cons.mp) fits
    complete

theorem returns_itemsOf (settling : Settling nodes pending s) {tag : Tag} {items : List Nat}
    (found : nodes[number]? = some (.sequence tag items)) :
    Returns s (itemsOf number) fun read s' => read = items ∧ s' = s := by
  refine Returns.get_bind ?_
  rw [settling.same, found]
  exact returns_pure ⟨rfl, rfl⟩

theorem returns_completeNode (plain : ArePlain nodes)
    (settling : Settling nodes (number :: pending) s) :
    Returns s (completeNode number) fun _ s' =>
      Settling nodes pending s' ∧ Grows (number + 1) s s' := by
  obtain ⟨found, single⟩ := settling.waiting number List.mem_cons_self
  obtain ⟨shape, held⟩ := Option.isSome_iff_exists.mp found
  have fits := settling.fits number shape held
  refine Returns.get_bind ?_
  rw [held]
  unfold FitsNode at fits
  split at fits
  case h_1 known => simp [isScalarAt, known] at single
  case h_4 => exact fits.elim
  case h_2 tag items known =>
    obtain ⟨begun, rfl⟩ := fits
    obtain ⟨inside, -⟩ := Array.getElem?_eq_some_iff.mp known
    cases plain number _ known with | sequence later
    refine (returns_itemsOf settling known).bind ?_
    rintro items s ⟨rfl, rfl⟩
    refine (returns_forM_beginNode plain _ later _ settling).bind ?_
    rintro _ s' ⟨settling', grows, all⟩
    have complete : IsComplete nodes (s'.shape number (.list items) s'.begun).shapes number := by
      simp only [IsComplete, known]
      refine ⟨shapeAt?_shape_self settling' inside _ _, fun item member => ?_⟩
      exact isSome_shapeAt?_shape settling' inside _ _ (all item member)
    refine (returns_setShape settling' inside (by simp [FitsNode, known]) complete).mono ?_
    exact fun _ s'' ends => ⟨ends.1, grows.trans ends.2⟩
  case h_3 tag entries known =>
    obtain ⟨begun, rfl⟩ := fits
    obtain ⟨inside, -⟩ := Array.getElem?_eq_some_iff.mp known
    cases plain number _ known with | mapping later keys
    refine (returns_entriesOf plain known later keys settling).bind ?_
    rintro _ s' ⟨rfl, settling', grows, all⟩
    refine (returns_setShape settling' inside (by simp [FitsNode, known]) ?_).mono ?_
    · simp only [IsComplete, known]
      refine ⟨shapeAt?_shape_self settling' inside _ _, ?_⟩
      exact fun entry member => isSome_shapeAt?_shape settling' inside _ _ (all entry member)
    · exact fun _ s'' ends => ⟨ends.1, grows.trans ends.2⟩

theorem returns_round (plain : ArePlain nodes) (settling : Settling nodes [] s) {fuel : Nat}
    (late : ∀ number ∈ s.begun, nodes.size ≤ number + (fuel + 1)) :
    Returns { s with begun := [] } (s.begun.reverse.forM completeNode) fun _ s' =>
      Settling nodes [] s' ∧ (∀ number ∈ s'.begun, nodes.size ≤ number + fuel) ∧
        ∀ number, (shapeAt? s.shapes number).isSome → (shapeAt? s'.shapes number).isSome := by
  have start : Settling nodes s.begun.reverse { s with begun := [] } := by
    refine ⟨settling.same, settling.size, settling.fits, ?_, ?_⟩
    · simpa using settling.waiting
    · simpa using settling.settled
  have round := returns_forM (f := completeNode) (fun pending s' =>
    Settling nodes pending s' ∧ (∀ number ∈ pending, nodes.size ≤ number + (fuel + 1)) ∧
      (∀ number ∈ s'.begun, nodes.size ≤ number + fuel) ∧
      ∀ number, (shapeAt? s.shapes number).isSome → (shapeAt? s'.shapes number).isSome)
    ?_ s.begun.reverse _ ⟨start, by simpa using late, nofun, fun _ found => found⟩
  · exact round.mono fun _ _ ends => ⟨ends.1, ends.2.2⟩
  · rintro number pending s' ⟨settling', near, late', shaped⟩
    obtain ⟨close, near⟩ := List.forall_mem_cons.mp near
    refine (returns_completeNode plain settling').mono ?_
    rintro _ s'' ⟨settling'', grows⟩
    refine ⟨settling'', near, ?_, fun n found => grows.shaped n (shaped n found)⟩
    intro n member
    rcases grows.begun n member with before | beyond
    · exact late' n before
    · omega

/-- Rounds end with every collection complete: each of them begins later nodes than it completes. -/
theorem returns_completeRounds (plain : ArePlain nodes) (fuel : Nat) :
    ∀ s, Settling nodes [] s → (∀ number ∈ s.begun, nodes.size ≤ number + fuel) →
      Returns s (completeRounds fuel) fun _ s' => s'.begun = [] ∧ Settling nodes [] s' ∧
        ∀ number, (shapeAt? s.shapes number).isSome → (shapeAt? s'.shapes number).isSome := by
  induction fuel with
  | zero =>
    intro s settling late
    refine returns_pure ⟨?_, settling, fun _ found => found⟩
    rw [List.eq_nil_iff_forall_not_mem]
    intro number member
    obtain ⟨shape, held⟩ := Option.isSome_iff_exists.mp
      (settling.waiting number (List.mem_append_right _ member)).1
    have inside := settling.lt_size held
    have beyond := late number member
    omega
  | succ fuel inner =>
    intro s settling late
    refine Returns.get_bind ?_
    split
    case isFalse done =>
      exact returns_pure ⟨by simpa using done, settling, fun _ found => found⟩
    case isTrue =>
      refine Returns.set_bind ((returns_round plain settling late).bind ?_)
      rintro _ s' ⟨settling', late', grows⟩
      refine (inner s' settling' late').mono ?_
      rintro _ s'' ⟨done, settling'', growsToo⟩
      exact ⟨done, settling'', fun number found => growsToo number (grows number found)⟩

end

theorem build_of_plain {nodes : Array Node} {root : Nat} (plain : ArePlain nodes)
    (inside : root < nodes.size) : ∃ shapes, build nodes root =
        .ok (unfold shapes (nodes.size + 1) [] root).1 ∧ (shapeAt? shapes root).isSome ∧
      ∀ number, (shapeAt? shapes number).isSome → IsComplete nodes shapes number := by
  have nothing (number : Nat) : shapeAt? (Array.replicate nodes.size none) number = none := by
    rw [shapeAt?, Array.getElem?_replicate]
    split <;> rfl
  have start : Settling nodes [] ⟨nodes, Array.replicate nodes.size none, []⟩ := by
    refine ⟨rfl, Array.size_replicate, ?_, nofun, ?_⟩
    · intro number shape found
      rw [nothing] at found
      cases found
    · intro number found
      rw [nothing] at found
      cases found
  have ends : Returns ⟨nodes, Array.replicate nodes.size none, []⟩
      (do beginNode root; completeRounds nodes.size : Building Unit) fun _ s' =>
        (shapeAt? s'.shapes root).isSome ∧
          ∀ number, (shapeAt? s'.shapes number).isSome → IsComplete nodes s'.shapes number := by
    refine (returns_beginNode plain start (Nat.zero_le root) inside).bind ?_
    rintro _ s ⟨settling, grows, found⟩
    refine (returns_completeRounds plain _ s settling fun _ _ => Nat.le_add_left _ _).mono ?_
    rintro _ s' ⟨done, settling', shaped⟩
    refine ⟨shaped root found, fun number found => ?_⟩
    have settled := settling'.settled number found
    rw [done] at settled
    exact settled.resolve_left List.not_mem_nil
  obtain ⟨_, s', run, found, complete⟩ := ends
  refine ⟨s'.shapes, ?_, found, complete⟩
  rw [build, run]
  rfl

end ApiCatalog.Yaml
