import ApiCatalog.Proofs.Generic.UseForm

/-!
Type expressions as trees. However a tree is written in guillemets, its use form is the tree in
angle brackets with all names resolved, and its declaration form numbers the arguments.
-/

namespace ApiCatalog.Generic

/-- A name that the notation can take for nothing else. -/
structure PlainName where
  chars : List Char
  nonempty : chars ≠ []
  markless : ∀ c ∈ chars, c ≠ '«' ∧ c ≠ '»' ∧ c ≠ ','
  trimmed : Text.IsTrimmed chars
  noReference : ¬ "#/definitions/".toList <+: chars

def isPlain (chars : List Char) : Bool :=
  !chars.isEmpty && chars.all (fun c => c != '«' && c != '»' && c != ',') &&
    chars.head?.all (fun c => !Text.isBlank c) && chars.getLast?.all (fun c => !Text.isBlank c) &&
    !"#/definitions/".toList.isPrefixOf chars

theorem of_isPlain {chars : List Char} (plain : isPlain chars = true) :
    chars ≠ [] ∧ (∀ c ∈ chars, c ≠ '«' ∧ c ≠ '»' ∧ c ≠ ',') ∧ Text.IsTrimmed chars ∧
      ¬ "#/definitions/".toList <+: chars := by
  simp only [isPlain, Bool.and_eq_true] at plain
  obtain ⟨⟨⟨⟨filled, markless⟩, head⟩, last⟩, noReference⟩ := plain
  refine ⟨by simpa using filled, by simpa [and_assoc] using markless, ⟨?_, ?_⟩, ?_⟩
  · simpa [Option.all_eq_true] using head
  · simpa [Option.all_eq_true] using last
  · intro reference
    rw [List.isPrefixOf_iff_prefix.mpr reference] at noReference
    exact Bool.noConfusion noReference

def PlainName.ofChars (chars : List Char) (plain : isPlain chars = true) : PlainName :=
  have facts := of_isPlain plain
  ⟨chars, facts.1, facts.2.1, facts.2.2.1, facts.2.2.2⟩

inductive TypeTree
  | leaf (name : PlainName)
  | node (outer : PlainName) (arguments : List TypeTree)

def generic (outer : PlainName) (payload : List Char) : List Char :=
  outer.chars ++ '«' :: (payload ++ ['»'])

/-- A payload lists some trees, one at least: each is written in guillemets between margins, and
commas stand between them. -/
inductive Lists : List TypeTree → List Char → Prop
  | leaf (name : PlainName) {left right : List Char} (leftBlank : Text.allBlank left = true)
      (rightBlank : Text.allBlank right = true) : Lists [.leaf name] (left ++ name.chars ++ right)
  | node (outer : PlainName) {arguments : List TypeTree} {payload left right : List Char}
      (inner : Lists arguments payload) (leftBlank : Text.allBlank left = true)
      (rightBlank : Text.allBlank right = true) :
      Lists [.node outer arguments] (left ++ generic outer payload ++ right)
  | comma {first second : TypeTree} {others : List TypeTree} {text rest : List Char}
      (head : Lists [first] text) (tail : Lists (second :: others) rest) :
      Lists (first :: second :: others) (text ++ ',' :: rest)

def inNamespace (origin name : List Char) : List Char :=
  "defs.".toList ++ if origin = [] then name else origin ++ '.' :: name

def leafForm (origin name : List Char) : List Char :=
  if name = "long".toList then "number".toList
  else if ["string".toList, "number".toList, "boolean".toList, "object".toList,
      "any".toList].contains name || "defs.".toList.isPrefixOf name then name
  else inNamespace origin name

def outerForm (origin outer : List Char) : List Char :=
  if outer = "List".toList then "Array".toList
  else if "defs.".toList.isPrefixOf outer then outer
  else inNamespace origin outer

def angled (outer : List Char) (arguments : List (List Char)) : List Char :=
  outer ++ '<' :: (List.intercalate [','] arguments ++ ['>'])

mutual

def TypeTree.expression (origin : List Char) : TypeTree → List Char
  | .leaf name => leafForm origin name.chars
  | .node outer arguments =>
    angled (outerForm origin outer.chars) (TypeTree.expressions origin arguments)

def TypeTree.expressions (origin : List Char) : List TypeTree → List (List Char)
  | [] => []
  | tree :: trees => TypeTree.expression origin tree :: TypeTree.expressions origin trees

end

def parameterNames (arity : Nat) : List (List Char) :=
  (List.range arity).map fun index => 'T' :: (toString index).toList

theorem PlainName.isPiece (name : PlainName) : IsPiece name.chars :=
  openAfter_of_markless name.markless 0

theorem isPiece_of_allBlank {text : List Char} (blank : Text.allBlank text = true) :
    IsPiece text := by
  apply openAfter_of_markless
  intro c member
  have white := List.all_eq_true.mp blank c member
  refine ⟨?_, ?_, ?_⟩ <;> rintro rfl <;> revert white <;> decide

theorem PlainName.definitionName_generic (outer : PlainName) (payload : List Char) :
    definitionName (generic outer payload) = generic outer payload := by
  have absent : ¬ definitionsLead <+: generic outer payload := by
    intro reference
    exact outer.noReference (Text.prefix_of_prefix_append (by decide) reference)
  exact definitionName_eq_self absent

theorem PlainName.split_generic (outer : PlainName) {payload : List Char}
    {found : List (List Char)} (listed : arguments payload = some found) :
    split (generic outer payload) = some (outer.chars, payload) := by
  refine split_eq_some_iff.mpr ⟨outer.nonempty, ?_, rfl, by simp [listed]⟩
  intro member
  exact (outer.markless '«' member).1 rfl

theorem PlainName.split_chars (name : PlainName) : split name.chars = none := by
  cases parted : split name.chars with
  | none => rfl
  | some found =>
    obtain ⟨-, -, whole, -⟩ := split_eq_some_iff.mp parted
    have marked : '«' ∈ name.chars := by rw [whole]; simp
    exact absurd rfl (name.markless '«' marked).1

theorem generic_trimmed (outer : PlainName) (payload : List Char) :
    Text.IsTrimmed (generic outer payload) := by
  constructor
  · cases same : outer.chars with
    | nil => exact absurd same outer.nonempty
    | cons c rest =>
      have head := outer.trimmed.head
      simpa [generic, same] using head
  · have last : (generic outer payload).getLast? = some '»' := by
      simp [generic, List.getLast?_append, List.getLast?_cons]
    rw [last]
    rintro c ⟨⟩
    decide

theorem inNamespace_eq_qualify (origin name : List Char) :
    inNamespace origin name = qualify origin name := by
  cases origin <;> rfl

theorem leafForm_eq_useLeaf (origin name : List Char) :
    leafForm origin name = useLeaf origin name := by
  have stays : (plainNames.contains name || isQualified name) = true ↔
      name ∈ plainNames ∨ isQualified name = true := by
    rw [Bool.or_eq_true, List.contains_iff_mem]
  by_cases long : name = "long".toList
  · exact (if_pos long).trans (if_pos long).symm
  · rw [leafForm, useLeaf, if_neg long, if_neg long, inNamespace_eq_qualify]
    by_cases kept : name ∈ plainNames ∨ isQualified name = true
    · exact (if_pos (stays.mpr kept)).trans (if_pos kept).symm
    · exact (if_neg (mt stays.mp kept)).trans (if_neg kept).symm

theorem outerForm_eq_useOuter (origin outer : List Char) :
    outerForm origin outer = useOuter origin outer := by
  rw [outerForm, useOuter, inNamespace_eq_qualify]
  rfl

theorem parts_generic (outer : PlainName) {payload : List Char} {found : List (List Char)}
    (listed : arguments payload = some found) :
    parts (generic outer payload) = some (outer.chars, found) := by
  simp [parts, outer.split_generic listed, listed]

theorem useName_generic (origin : List Char) (outer : PlainName) {payload : List Char}
    {found : List (List Char)} (listed : arguments payload = some found) :
    useName origin (generic outer payload) =
      bracket (useOuter origin outer.chars) (found.map (useArgument origin)) := by
  rw [useName_eq, outer.definitionName_generic, parts_generic outer listed]

def Expresses (origin payload : List Char) (trees : List TypeTree) : Prop :=
  ∃ found, found ≠ [] ∧ payload = joinPieces found ∧ (∀ piece ∈ found, IsPiece piece) ∧
    (∀ piece ∈ found, Text.allBlank piece = false) ∧
    (found.map Text.strip).map (useArgument origin) = TypeTree.expressions origin trees

theorem Expresses.arguments {origin payload : List Char} {trees : List TypeTree}
    (expresses : Expresses origin payload trees) :
    ∃ found, arguments payload = some found ∧
      found.map (useArgument origin) = TypeTree.expressions origin trees := by
  obtain ⟨found, nonempty, joined, pieces, filled, forms⟩ := expresses
  exact ⟨_, arguments_eq_some_iff.mpr
    ⟨found, pieces_eq_some_iff.mpr ⟨nonempty, joined, pieces⟩, filled, rfl⟩, forms⟩

theorem expresses_margins {origin text left right : List Char} {tree : TypeTree}
    (piece : IsPiece text) (trimmed : Text.IsTrimmed text) (nonempty : text ≠ [])
    (form : useArgument origin text = tree.expression origin)
    (leftBlank : Text.allBlank left = true) (rightBlank : Text.allBlank right = true) :
    Expresses origin (left ++ text ++ right) [tree] := by
  refine ⟨[left ++ text ++ right], by simp, by simp [joinPieces], ?_, ?_, ?_⟩
  · have whole := ((isPiece_of_allBlank leftBlank).append piece).append
      (isPiece_of_allBlank rightBlank)
    simpa using whole
  · simp [Text.allBlank_append, Text.allBlank_eq_false trimmed nonempty]
  · have stripped := Text.strip_margins leftBlank trimmed nonempty rightBlank
    simp only [List.map_cons, List.map_nil, stripped, form, TypeTree.expressions]

theorem Expresses.comma {origin text rest : List Char} {first : TypeTree} {others : List TypeTree}
    (head : Expresses origin text [first]) (tail : Expresses origin rest others) :
    Expresses origin (text ++ ',' :: rest) (first :: others) := by
  obtain ⟨front, frontNonempty, rfl, frontPieces, frontFilled, frontForms⟩ := head
  obtain ⟨back, backNonempty, rfl, backPieces, backFilled, backForms⟩ := tail
  refine ⟨front ++ back, by simp [frontNonempty], joinPieces_append frontNonempty backNonempty,
    ?_, ?_, ?_⟩
  · simpa [or_imp, forall_and] using And.intro frontPieces backPieces
  · simpa [or_imp, forall_and] using And.intro frontFilled backFilled
  · rw [List.map_append, List.map_append, frontForms, backForms]
    rfl

theorem useArgument_generic {origin payload : List Char} {trees : List TypeTree}
    (outer : PlainName) (expresses : Expresses origin payload trees) :
    useArgument origin (generic outer payload) = (TypeTree.node outer trees).expression origin := by
  obtain ⟨found, listed, forms⟩ := expresses.arguments
  rw [useArgument, outer.split_generic listed, Option.isSome_some, if_pos rfl,
    useName_generic origin outer listed, forms, TypeTree.expression, outerForm_eq_useOuter]
  rfl

theorem Lists.expresses {trees : List TypeTree} {payload : List Char} (lists : Lists trees payload)
    (origin : List Char) : Expresses origin payload trees := by
  induction lists with
  | leaf name leftBlank rightBlank =>
    apply expresses_margins name.isPiece name.trimmed name.nonempty _ leftBlank rightBlank
    simp [useArgument, name.split_chars, TypeTree.expression, leafForm_eq_useLeaf]
  | node outer inner leftBlank rightBlank ih =>
    obtain ⟨found, -, rfl, pieces, -, -⟩ := id ih
    apply expresses_margins (outer.isPiece.bracketed (openAfter_joinPieces pieces 0))
      (generic_trimmed outer _) (by simp) (useArgument_generic outer ih)
      leftBlank rightBlank
  | comma head tail ihHead ihTail => exact ihHead.comma ihTail

theorem Lists.length_arguments {trees : List TypeTree} {payload : List Char}
    (lists : Lists trees payload) :
    ∃ found, Generic.arguments payload = some found ∧ found.length = trees.length := by
  obtain ⟨found, listed, forms⟩ := (lists.expresses []).arguments
  have counted : ∀ trees : List TypeTree,
      (TypeTree.expressions [] trees).length = trees.length := by
    intro trees
    induction trees with
    | nil => rfl
    | cons tree trees ih => simp [TypeTree.expressions, ih]
  exact ⟨found, listed, by simpa [counted] using congrArg List.length forms⟩

theorem angled_parameterNames (outer : List Char) (arity : Nat) :
    angled outer (parameterNames arity) = declarationForm outer arity := by
  have digits : (fun index : Nat => 'T' :: (toString index).toList) =
      fun index => 'T' :: Number.digitsOf index := by
    funext index
    rw [Nat.toString_eq_repr, Nat.toList_repr, Number.digitsOf]
  rw [parameterNames, digits]
  rfl

/-- Reading a generic name inverts writing a tree in guillemets, whatever the margins. -/
theorem useName_declarationName_of_lists (origin : List Char) (outer : PlainName)
    {trees : List TypeTree} {payload : List Char} (lists : Lists trees payload) :
    useName origin (generic outer payload) = (TypeTree.node outer trees).expression origin ∧
      declarationName (generic outer payload) =
        angled outer.chars (parameterNames trees.length) := by
  obtain ⟨found, listed, counted⟩ := lists.length_arguments
  constructor
  · have form := useArgument_generic outer (lists.expresses origin)
    rwa [useArgument, outer.split_generic listed, Option.isSome_some, if_pos rfl] at form
  · rw [declarationName, outer.definitionName_generic, parts_generic outer listed,
      angled_parameterNames, ← counted]

theorem useName_declarationName_of_page :
    ∃ (outer : PlainName) (trees : List TypeTree) (payload : List Char), Lists trees payload ∧
      generic outer payload = "Page« List«User» ,long»".toList ∧
      useName "api".toList (generic outer payload) =
        "defs.api.Page<Array<defs.api.User>,number>".toList ∧
      declarationName (generic outer payload) = "Page<T0,T1>".toList := by
  let page := PlainName.ofChars "Page".toList (by decide)
  let list := PlainName.ofChars "List".toList (by decide)
  let user := PlainName.ofChars "User".toList (by decide)
  let long := PlainName.ofChars "long".toList (by decide)
  have inner : Lists [.leaf user] ([] ++ "User".toList ++ []) := .leaf user rfl rfl
  have first : Lists [.node list [.leaf user]]
      (" ".toList ++ generic list ([] ++ "User".toList ++ []) ++ " ".toList) :=
    .node list inner (by decide) (by decide)
  have second : Lists [.leaf long] ([] ++ "long".toList ++ []) := .leaf long rfl rfl
  have both := useName_declarationName_of_lists "api".toList page (first.comma second)
  refine ⟨page, _, _, first.comma second, by decide, both.1.trans ?_, both.2.trans ?_⟩
  · decide
  · decide

end ApiCatalog.Generic
