import ApiCatalog.Proofs.Extract.PlainBody
import Mathlib.Data.List.Perm.Basic
import Mathlib.Order.Monotone.Basic

/-!
The definition that gives the class of an outer name. The more arguments a definition has, the
longer is its declaration form, so the longest name belongs to the definition with the most
arguments. Of those the first one counts, and nothing else about the order of definitions matters.
-/

namespace ApiCatalog

namespace Generic

def arity (key : List Char) : Nat :=
  match parts key with
  | none => 0
  | some (_, arguments) => arguments.length

def declaredWith (outer : List Char) : Nat → List Char
  | 0 => outer
  | arity + 1 => declarationForm outer (arity + 1)

theorem declarationName_eq_declaredWith {key : List Char} (leadless : ¬ definitionsLead <+: key) :
    declarationName key = declaredWith (outerName key) (arity key) := by
  rw [declarationName, definitionName_eq_self leadless, arity]
  cases parted : parts key with
  | none => rw [outerName, parts_eq_none_iff.mp parted, declaredWith]
  | some found =>
    obtain ⟨outer, arguments⟩ := found
    obtain ⟨payload, hsplit, listed⟩ := parts_eq_some_iff.mp parted
    obtain ⟨first, others, rfl⟩ := List.exists_cons_of_ne_nil (arguments_ne_nil listed)
    rw [outerName, hsplit]
    rfl

theorem length_declarationForm_lt_succ (outer : List Char) (arity : Nat) :
    (declarationForm outer arity).length < (declarationForm outer (arity + 1)).length := by
  let numbered (index : Nat) : List Char := 'T' :: Number.digitsOf index
  have longer : (joinPieces ((List.range arity).map numbered)).length <
      (joinPieces ((List.range (arity + 1)).map numbered)).length := by
    rw [List.range_succ, List.map_append]
    by_cases first : arity = 0
    · subst first
      decide
    · have filled : (List.range arity).map numbered ≠ [] := by simpa using first
      rw [← joinPieces_append filled (by simp), List.length_append]
      simp
  simpa [declarationForm, bracket] using! longer

theorem strictMono_length_declaredWith (outer : List Char) :
    StrictMono fun arity => (declaredWith outer arity).length := by
  refine strictMono_nat_of_lt_succ fun arity => ?_
  cases arity with
  | zero => simp [declaredWith, declarationForm, bracket]
  | succ arity => exact length_declarationForm_lt_succ outer (arity + 1)

theorem length_declarationName_le_iff {key other : List Char}
    (leadless : ¬ definitionsLead <+: key) (leadlessToo : ¬ definitionsLead <+: other)
    (same : outerName other = outerName key) :
    (declarationName other).length ≤ (declarationName key).length ↔ arity other ≤ arity key := by
  rw [declarationName_eq_declaredWith leadless, declarationName_eq_declaredWith leadlessToo, same]
  exact (strictMono_length_declaredWith (outerName key)).le_iff_le

/-- Names that declare nothing but what their outer name and their arguments say. -/
structure IsDefinable (key : List Char) : Prop where
  bracketless : '<' ∉ key
  leadless : ¬ definitionsLead <+: key

theorem declarationName_eq_iff {key other : List Char} (definable : IsDefinable key)
    (definableToo : IsDefinable other) :
    declarationName other = declarationName key ↔
      outerName other = outerName key ∧ arity other = arity key := by
  constructor
  · intro same
    have outer : outerName other = outerName key := by
      rw [← before_declarationName definable.bracketless definable.leadless, ← same,
        before_declarationName definableToo.bracketless definableToo.leadless]
    refine ⟨outer, le_antisymm ?_ ?_⟩
    · exact (length_declarationName_le_iff definable.leadless definableToo.leadless outer).mp
        (congrArg List.length same).le
    · exact (length_declarationName_le_iff definableToo.leadless definable.leadless outer.symm).mp
        (congrArg List.length same).ge
  · rintro ⟨outer, count⟩
    rw [declarationName_eq_declaredWith definable.leadless,
      declarationName_eq_declaredWith definableToo.leadless, outer, count]

end Generic

namespace BaseClass

theorem exists_key_of_ofDefinition {origin : String} {entry : Value × Value} {base : BaseClass}
    (returned : (ofDefinition origin entry).outcome = .ok base) :
    ∃ key definition, entry = (.text key, definition) ∧
      base.name = String.ofList (Generic.declarationName key.toList) := by
  obtain ⟨key, _, _, hkey, named, -⟩ := of_ofDefinition returned
  obtain ⟨name, definition⟩ := entry
  have isText : name = .text key := by
    cases name <;> simp_all [Value.asText]
  exact ⟨key, definition, by rw [isText], named⟩

/-- A class is built from a definition that has the most arguments of all with its outer name, and
from the first of those. -/
def IsChosen (origin : String) (entries : List (Value × Value)) (base : BaseClass) : Prop :=
  ∃ front key definition back, entries = front ++ (.text key, definition) :: back ∧
    (ofDefinition origin (.text key, definition)).outcome = .ok base ∧
    base.justName = String.ofList (Generic.outerName key.toList) ∧
    (∀ other d, (.text other, d) ∈ entries →
      Generic.outerName other.toList = Generic.outerName key.toList →
        Generic.arity other.toList ≤ Generic.arity key.toList) ∧
    ∀ other d, (.text other, d) ∈ front →
      Generic.outerName other.toList = Generic.outerName key.toList →
        Generic.arity other.toList < Generic.arity key.toList

def declares (name : List Char) (entry : Value × Value) : Bool :=
  match entry.1 with
  | .text key => Generic.declarationName key.toList == name
  | _ => false

section
variable {definitions : Value} {origin : String} {entries declared : List (Value × Value)}
  {built classes : List BaseClass}

def Definable (entries : List (Value × Value)) : Prop :=
  ∀ key definition, (.text key, definition) ∈ entries → Generic.IsDefinable key.toList

theorem justName_of_ofDefinition {key : String} {definition : Value} {base : BaseClass}
    (definable : Generic.IsDefinable key.toList)
    (returned : (ofDefinition origin (.text key, definition)).outcome = .ok base) :
    base.name = String.ofList (Generic.declarationName key.toList) ∧
      base.justName = String.ofList (Generic.outerName key.toList) := by
  obtain ⟨_, _, same, named⟩ := exists_key_of_ofDefinition returned
  obtain ⟨rfl, rfl⟩ : key = _ ∧ definition = _ := by simpa using same
  refine ⟨named, ?_⟩
  rw [justName, ApiCatalog.justName, named, String.toList_ofList,
    Generic.before_declarationName definable.bracketless definable.leadless]

theorem isChosen_of_sortUnique (definable : Definable entries)
    (each : List.Forall₂ (fun entry base => (ofDefinition origin entry).outcome = .ok base)
      entries built)
    (selected : (sortUnique built).outcome = .ok classes) :
    ∀ base ∈ classes, base.IsChosen origin entries := by
  intro base member
  obtain ⟨longest, front, back, rfl, shorter⟩ := isFirstLongest_of_sortUnique selected member
  obtain ⟨entry, late, returned, -, split⟩ :=
    List.forall₂_cons_right_iff.mp (List.forall₂_drop_append entries front (base :: back) each)
  have eachEarly := List.forall₂_take_append entries front (base :: back) each
  have whole := (List.take_append_drop front.length entries).symm
  rw [split] at whole
  obtain ⟨key, definition, rfl, named⟩ := exists_key_of_ofDefinition returned
  have listed : (Value.text key, definition) ∈ entries := by
    rw [whole]
    exact List.mem_append_right _ List.mem_cons_self
  have known : Generic.IsDefinable key.toList := definable key definition listed
  have plain := (justName_of_ofDefinition known returned).2
  refine ⟨_, key, definition, late, whole, returned, plain, ?_, ?_⟩
  · intro other d listed same
    obtain ⟨rival, inside, made⟩ := forall₂_exists_right each listed
    obtain ⟨rivalNamed, rivalPlain⟩ :=
      justName_of_ofDefinition (definable other d listed) made
    have bound := longest rival inside (by rw [rivalPlain, plain, same])
    rw [rivalNamed, named, String.length_ofList, String.length_ofList] at bound
    exact (Generic.length_declarationName_le_iff known.leadless
      (definable other d listed).leadless same).mp bound
  · intro other d listed same
    obtain ⟨rival, inside, made⟩ := forall₂_exists_right eachEarly listed
    have listed := List.mem_of_mem_take listed
    obtain ⟨rivalNamed, rivalPlain⟩ :=
      justName_of_ofDefinition (definable other d listed) made
    have bound := shorter rival inside (by rw [rivalPlain, plain, same])
    rw [rivalNamed, named, String.length_ofList, String.length_ofList, ← not_le] at bound
    rw [← not_le]
    exact mt (Generic.length_declarationName_le_iff (definable other d listed).leadless
      known.leadless same.symm).mpr bound

theorem exists_filter_eq_cons_of_isChosen (definable : Definable entries) {base : BaseClass}
    (chosen : base.IsChosen origin entries) :
    ∃ key definition rest, (.text key, definition) ∈ entries ∧
      entries.filter (declares (Generic.declarationName key.toList)) =
        (.text key, definition) :: rest ∧
      (ofDefinition origin (.text key, definition)).outcome = .ok base ∧
      base.justName = String.ofList (Generic.outerName key.toList) ∧
      ∀ other d, (.text other, d) ∈ entries →
        Generic.outerName other.toList = Generic.outerName key.toList →
          Generic.arity other.toList ≤ Generic.arity key.toList := by
  obtain ⟨front, key, definition, back, rfl, returned, named, most, fewer⟩ := chosen
  have listed : (Value.text key, definition) ∈ front ++ (.text key, definition) :: back :=
    List.mem_append_right _ List.mem_cons_self
  refine ⟨key, definition, back.filter (declares (Generic.declarationName key.toList)), listed, ?_,
    returned, named, most⟩
  have none : front.filter (declares (Generic.declarationName key.toList)) = [] := by
    refine List.filter_eq_nil_iff.mpr ?_
    rintro ⟨other, d⟩ early declared
    cases other with
    | text other =>
      have same : Generic.declarationName other.toList = Generic.declarationName key.toList := by
        simpa [declares] using declared
      obtain ⟨outer, count⟩ := (Generic.declarationName_eq_iff (definable key definition listed)
        (definable other d (List.mem_append_left _ early))).mp same
      exact absurd count (fewer other d early outer).ne
    | _ => simp [declares] at declared
  rw [List.filter_append, none, List.nil_append, List.filter_cons_of_pos (by simp [declares])]

theorem IsChosen.eq {reordered : List (Value × Value)} (definable : Definable entries)
    (permuted : reordered.Perm entries)
    (inOrder : ∀ name, reordered.filter (declares name) = entries.filter (declares name))
    {base other : BaseClass} (chosen : base.IsChosen origin entries)
    (rechosen : other.IsChosen origin reordered) (same : other.justName = base.justName) :
    other = base := by
  have redefinable : Definable reordered := fun key definition member =>
    definable key definition (permuted.subset member)
  obtain ⟨key, definition, rest, listed, first, returned, named, most⟩ :=
    exists_filter_eq_cons_of_isChosen definable chosen
  obtain ⟨key', definition', rest', listed', first', returned', named', most'⟩ :=
    exists_filter_eq_cons_of_isChosen redefinable rechosen
  have outer : Generic.outerName key'.toList = Generic.outerName key.toList := by
    rw [named, named'] at same
    exact String.ofList_injective same
  have count : Generic.arity key'.toList = Generic.arity key.toList :=
    le_antisymm (most key' definition' (permuted.subset listed') outer)
      (most' key definition (permuted.symm.subset listed) outer.symm)
  have declared : Generic.declarationName key'.toList = Generic.declarationName key.toList :=
    (Generic.declarationName_eq_iff (definable key definition listed)
      (redefinable key' definition' listed')).mpr ⟨outer, count⟩
  rw [declared, inOrder, first, List.cons.injEq] at first'
  rw [← first'.1, returned, Except.ok.injEq] at returned'
  exact returned'.symm

theorem mem_map_justName_iff (definable : Definable entries)
    (each : List.Forall₂ (fun entry base => (ofDefinition origin entry).outcome = .ok base)
      entries built)
    (selected : (sortUnique built).outcome = .ok classes) (name : String) :
    name ∈ classes.map justName ↔ ∃ key definition, (.text key, definition) ∈ entries ∧
      String.ofList (Generic.outerName key.toList) = name := by
  constructor
  · intro known
    obtain ⟨base, member, rfl⟩ := List.mem_map.mp known
    obtain ⟨front, key, definition, back, rfl, -, named, -⟩ :=
      isChosen_of_sortUnique definable each selected base member
    exact ⟨key, definition, List.mem_append_right _ List.mem_cons_self, named.symm⟩
  · rintro ⟨key, definition, listed, rfl⟩
    obtain ⟨base, inside, returned⟩ := forall₂_exists_right each listed
    obtain ⟨kept, member, same⟩ := exists_of_sortUnique selected inside
    rw [(justName_of_ofDefinition (definable key definition listed) returned).2] at same
    exact List.mem_map.mpr ⟨kept, member, same⟩

theorem outcome_ofDefinitions {definitions : Value}
    (mapping : (definitions.orElse .emptyMap).entries = .ok entries)
    (each : List.Forall₂ (fun entry base => (ofDefinition origin entry).outcome = .ok base)
      entries built)
    (selected : (sortUnique built).outcome = .ok classes) :
    (ofDefinitions definitions origin).outcome = .ok classes := by
  unfold ofDefinitions
  rw [mapping, Traced.ok_bind]
  exact Traced.outcome_bind_eq_ok_iff.mpr
    ⟨built, Traced.outcome_mapM_eq_ok_iff.mpr each, selected⟩

/-- Each outer name of the definitions has one class, which its definition with the most arguments
gives, and of several such the first. The classes stay the same in any order of the definitions
that leaves those which declare one name in their order. -/
theorem isChosen_of_ofDefinitions {definitions : Value}
    (mapping : (definitions.orElse .emptyMap).entries = .ok entries)
    (definable : ∀ key definition, (.text key, definition) ∈ entries →
      '<' ∉ key.toList ∧ ¬ "#/definitions/".toList <+: key.toList)
    (returned : (ofDefinitions definitions origin).outcome = .ok classes) :
    (classes.map justName).Nodup ∧
      (∀ name, name ∈ classes.map justName ↔ ∃ key definition, (.text key, definition) ∈ entries ∧
        String.ofList (Generic.outerName key.toList) = name) ∧
      (∀ base ∈ classes, base.IsChosen origin entries) ∧
      ∀ (other : Value) (reordered : List (Value × Value)),
        (other.orElse .emptyMap).entries = .ok reordered → reordered.Perm entries →
          (∀ name, reordered.filter (declares name) = entries.filter (declares name)) →
            (ofDefinitions other origin).outcome = .ok classes := by
  have definable : Definable entries := fun key definition listed =>
    ⟨(definable key definition listed).1, (definable key definition listed).2⟩
  obtain ⟨known, built, hknown, each, selected⟩ := of_ofDefinitions returned
  obtain rfl := Except.ok.inj (mapping.symm.trans hknown)
  have descending := pairwise_justName_of_sortUnique selected
  have names := mem_map_justName_iff definable each selected
  have chosen := isChosen_of_sortUnique definable each selected
  refine ⟨descending.imp fun below => below.ne', names, chosen, ?_⟩
  intro other reordered remapping permuted inOrder
  obtain ⟨rebuilt, eachAgain, -⟩ := List.perm_comp_forall₂ permuted each
  have redefinable : Definable reordered := fun key definition listed =>
    definable key definition (permuted.subset listed)
  obtain ⟨again, reselected⟩ : ∃ again, (sortUnique rebuilt).outcome = .ok again :=
    ⟨_, outcome_sortUnique rebuilt⟩
  have renames := mem_map_justName_iff redefinable eachAgain reselected
  have rechosen := isChosen_of_sortUnique redefinable eachAgain reselected
  have sameNames (name : String) : name ∈ again.map justName ↔ name ∈ classes.map justName := by
    rw [names, renames]
    simp only [permuted.mem_iff]
  have sameClasses : again = classes := by
    refine eq_of_pairwise_justName (pairwise_justName_of_sortUnique reselected) descending
      fun base => ⟨fun member => ?_, fun member => ?_⟩
    · obtain ⟨kept, inside, same⟩ :=
        List.mem_map.mp ((sameNames _).mp (List.mem_map_of_mem member))
      rwa [IsChosen.eq definable permuted inOrder (chosen kept inside) (rechosen base member)
        same.symm]
    · obtain ⟨kept, inside, same⟩ :=
        List.mem_map.mp ((sameNames _).mpr (List.mem_map_of_mem member))
      rwa [← IsChosen.eq definable permuted inOrder (chosen base member) (rechosen kept inside)
        same]
  exact sameClasses ▸ outcome_ofDefinitions remapping eachAgain reselected

end

def resultEntries : List (Value × Value) :=
  [(.text "Result«User,Order»", .map [(.text "description", .text "pair")]),
    (.text "Result«User»", .map [(.text "description", .text "first")]),
    (.text "Result«Order»", .map [(.text "description", .text "second")]),
    (.text "Page", .map [])]

def resultEntriesReordered : List (Value × Value) :=
  [(.text "Page", .map []),
    (.text "Result«User»", .map [(.text "description", .text "first")]),
    (.text "Result«Order»", .map [(.text "description", .text "second")]),
    (.text "Result«User,Order»", .map [(.text "description", .text "pair")])]

theorem classes_of_resultEntries :
    (ofDefinitions (.map resultEntries) "api").outcome =
        .ok [⟨"Result<T0,T1>", "pair", []⟩, ⟨"Page", "", []⟩] ∧
      (ofDefinitions (.map resultEntriesReordered) "api").outcome =
        .ok [⟨"Result<T0,T1>", "pair", []⟩, ⟨"Page", "", []⟩] := by
  let built : List BaseClass := [⟨"Result<T0,T1>", "pair", []⟩, ⟨"Result<T0>", "first", []⟩,
    ⟨"Result<T0>", "second", []⟩, ⟨"Page", "", []⟩]
  have each : (resultEntries.mapM (ofDefinition "api")).outcome = .ok built :=
    Outcome.eq_ok_of_toOption (by decide +kernel)
  have sorted : built.mergeSort goesBefore = built := List.mergeSort_of_pairwise (by decide)
  have selected : (sortUnique built).outcome =
      .ok [⟨"Result<T0,T1>", "pair", []⟩, ⟨"Page", "", []⟩] := by
    rw [outcome_sortUnique, sorted]
    exact congrArg Except.ok (by decide)
  have mapping : ((Value.map resultEntries).orElse .emptyMap).entries = .ok resultEntries := rfl
  have returned := outcome_ofDefinitions mapping (Traced.outcome_mapM_eq_ok_iff.mp each) selected
  have definable : ∀ key definition, (.text key, definition) ∈ resultEntries →
      '<' ∉ key.toList ∧ ¬ "#/definitions/".toList <+: key.toList := by
    intro key definition listed
    simp only [resultEntries, List.mem_cons, Prod.mk.injEq, Value.text.injEq, List.not_mem_nil,
      or_false] at listed
    rcases listed with ⟨rfl, -⟩ | ⟨rfl, -⟩ | ⟨rfl, -⟩ | ⟨rfl, -⟩ <;> decide
  have permuted : resultEntriesReordered.Perm resultEntries :=
    (@List.perm_append_comm _ (resultEntriesReordered.take 3) (resultEntries.take 1)).trans
      (List.Perm.append_left _ (@List.perm_append_comm _ (resultEntriesReordered.take 1)
        ((resultEntries.drop 1).take 2)))
  have inOrder : ∀ name, resultEntriesReordered.filter (declares name) =
      resultEntries.filter (declares name) := by
    intro name
    by_cases ofPair : name = "Result<T0,T1>".toList
    · rw [ofPair]
      rfl
    · by_cases ofOne : name = "Result<T0>".toList
      · rw [ofOne]
        rfl
      · have pair (definition : Value) :
            declares name (.text "Result«User,Order»", definition) = false :=
          beq_false_of_ne (Ne.symm ofPair)
        have first (definition : Value) :
            declares name (.text "Result«User»", definition) = false :=
          beq_false_of_ne (Ne.symm ofOne)
        have second (definition : Value) :
            declares name (.text "Result«Order»", definition) = false :=
          beq_false_of_ne (Ne.symm ofOne)
        simp [resultEntriesReordered, resultEntries, List.filter_cons, pair, first, second]
  exact ⟨returned, (isChosen_of_ofDefinitions mapping definable returned).2.2.2 _ _ rfl permuted
    inOrder⟩

end BaseClass
end ApiCatalog
