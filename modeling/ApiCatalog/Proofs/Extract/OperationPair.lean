import ApiCatalog.Proofs.Extract.WellTyped

/-!
Operations and their pairs of a path and a method. Each mapping that a path has under a method is
listed once, in document order. Keys are read in small letters, so one pair is listed twice exactly
if a path has mappings under two keys of one method, which differ in capitals.
-/

namespace ApiCatalog.RawOperation

def declaredBy (path item : Value) : List RawOperation :=
  match item.opened with
  | .map entries => entries.map fun entry => ⟨path, entry.1, entry.2⟩
  | _ => []

def declared (entries : List (Value × Value)) : List RawOperation :=
  entries.flatMap fun entry => declaredBy entry.1 entry.2

def isCallable (raw : RawOperation) : Bool :=
  match raw.method with
  | .text key => decide (lowerText key ∈ httpMethods) && raw.operation.isMap
  | _ => false

def lowered (raw : RawOperation) : RawOperation :=
  match raw.method with
  | .text key => ⟨raw.path, .text (lowerText key), raw.operation⟩
  | _ => raw

def SamePair (a b : RawOperation) : Prop :=
  Value.same a.path b.path = true ∧ Value.same a.method b.method = true

def NamesApart (a b : RawOperation) : Prop :=
  ∀ s t, a.method = .text s → b.method = .text t → lowerText s ≠ lowerText t

theorem ofEntry_eq {path : Value} {entry : Value × Value} (named : entry.1.IsText) :
    ofEntry path entry = .ok (if isCallable ⟨path, entry.1, entry.2⟩ = true then
      some (lowered ⟨path, entry.1, entry.2⟩) else none) := by
  obtain ⟨key, operation⟩ := entry
  obtain ⟨s, rfl⟩ := named
  by_cases callable : lowerText s ∈ httpMethods ∧ operation.isMap = true
  · simp [ofEntry, isCallable, lowered, callable]
  · simp [ofEntry, isCallable, callable]

theorem ofPath_eq {path item : Value} (named : ∀ raw ∈ declaredBy path item, raw.method.IsText) :
    ofPath path item = .ok (((declaredBy path item).filter isCallable).map lowered) := by
  unfold ofPath
  unfold declaredBy at named ⊢
  cases opens : item.opened with
  | map entries =>
    rw [opens] at named
    have each : ∀ entry ∈ entries, ofEntry path entry = _ := fun entry member =>
      ofEntry_eq (named _ (List.mem_map_of_mem member))
    dsimp only
    rw [Outcome.mapM_of_forall each, ← flatMap_toList_map_if, List.map_map]
    rfl
  | _ => rfl

theorem ofPaths_eq {paths : Value} {entries : List (Value × Value)}
    (mapping : (paths.orElse .emptyMap).entries = .ok entries)
    (named : ∀ raw ∈ declared entries, raw.method.IsText) :
    ofPaths paths = .ok (((declared entries).filter isCallable).map lowered) := by
  have each : ∀ entry ∈ entries, ofPath entry.1 entry.2 = _ := fun entry member =>
    ofPath_eq fun raw inside => named raw (List.mem_flatMap.mpr ⟨entry, member, inside⟩)
  rw [ofPaths, mapping, declared, List.filter_flatMap, List.map_flatMap]
  refine Outcome.bind_eq_ok_iff.mpr ⟨entries, rfl, ?_⟩
  exact Outcome.bind_eq_ok_iff.mpr ⟨_, Outcome.mapM_of_forall each, rfl⟩

theorem mem_declaredBy_iff {path item : Value} {raw : RawOperation} :
    raw ∈ declaredBy path item ↔
      ∃ entries, item.opened = .map entries ∧
        ∃ entry ∈ entries, ⟨path, entry.1, entry.2⟩ = raw := by
  unfold declaredBy
  cases item.opened <;> simp

theorem path_of_mem_declaredBy {path item : Value} {raw : RawOperation}
    (member : raw ∈ declaredBy path item) : raw.path = path := by
  obtain ⟨_, -, entry, -, rfl⟩ := mem_declaredBy_iff.mp member
  rfl

theorem path_lowered (raw : RawOperation) : raw.lowered.path = raw.path := by
  unfold lowered
  split <;> rfl

theorem samePair_lowered_iff {a b : RawOperation} (callable : a.isCallable = true)
    (callableToo : b.isCallable = true) :
    a.lowered.SamePair b.lowered ↔ Value.same a.path b.path = true ∧ ¬ a.NamesApart b := by
  obtain ⟨path, method, operation⟩ := a
  obtain ⟨pathToo, methodToo, operationToo⟩ := b
  cases method with
  | text s =>
    cases methodToo with
    | text t => simp [SamePair, lowered, NamesApart, Value.same]
    | _ => simp [isCallable] at callableToo
  | _ => simp [isCallable] at callable

theorem pairwise_lowered_iff {path item : Value} :
    (((declaredBy path item).filter isCallable).map lowered).Pairwise (fun a b => ¬ a.SamePair b) ↔
      (Value.same path path = true →
        ((declaredBy path item).filter isCallable).Pairwise NamesApart) := by
  have pairs {a b : RawOperation} (member : a ∈ (declaredBy path item).filter isCallable)
      (memberToo : b ∈ (declaredBy path item).filter isCallable) :
      ¬ a.lowered.SamePair b.lowered ↔ (Value.same path path = true → a.NamesApart b) := by
    obtain ⟨inside, callable⟩ := List.mem_filter.mp member
    obtain ⟨insideToo, callableToo⟩ := List.mem_filter.mp memberToo
    rw [samePair_lowered_iff callable callableToo, path_of_mem_declaredBy inside,
      path_of_mem_declaredBy insideToo, not_and, not_not]
  rw [List.pairwise_map, List.Pairwise.iff_of_mem pairs]
  by_cases reflexive : Value.same path path = true
  · simp [reflexive]
  · simp [reflexive, List.pairwise_of_forall]

/-- The operations are the mappings under the methods of the paths, in document order. No pair is
listed twice exactly if no path has two keys of one method; only a path that does not equal itself,
a number that is none, may have two. -/
theorem ofPaths_eq_and_pairwise_iff {paths : Value} {entries : List (Value × Value)}
    (mapping : (paths.orElse .emptyMap).entries = .ok entries)
    (apart : entries.Pairwise fun a b => Value.same a.1 b.1 = false)
    (named : ∀ raw ∈ declared entries, raw.method.IsText) :
    ofPaths paths = .ok (((declared entries).filter isCallable).map lowered) ∧
      ((((declared entries).filter isCallable).map lowered).Pairwise (fun a b => ¬ a.SamePair b) ↔
        ∀ entry ∈ entries, Value.same entry.1 entry.1 = true →
          ((declaredBy entry.1 entry.2).filter isCallable).Pairwise NamesApart) := by
  refine ⟨ofPaths_eq mapping named, ?_⟩
  rw [declared, List.filter_flatMap, List.map_flatMap, List.pairwise_flatMap, and_iff_left]
  · exact forall₂_congr fun entry _ => pairwise_lowered_iff
  · -- Operations of two paths differ in the path.
    refine apart.imp fun {first second} different a inFirst b inSecond same => ?_
    obtain ⟨raw, member, rfl⟩ := List.mem_map.mp inFirst
    obtain ⟨other, memberToo, rfl⟩ := List.mem_map.mp inSecond
    have equal := same.1
    rw [path_lowered, path_lowered, path_of_mem_declaredBy (List.mem_filter.mp member).1,
      path_of_mem_declaredBy (List.mem_filter.mp memberToo).1, different] at equal
    exact Bool.false_ne_true equal

def userEntries : List (Value × Value) :=
  [(.text "/user", .map [(.text "get", .map []), (.text "parameters", .list []),
      (.text "GET", .map [(.text "summary", .text "List")])]),
    (.text "/user/all", .map [(.text "Put", .map []), (.text "get", .null)])]

theorem pairs_of_userEntries :
    ∃ operations, ofPaths (.map userEntries) = .ok operations ∧
      operations = [⟨.text "/user", .text "get", .map []⟩,
        ⟨.text "/user", .text "get", .map [(.text "summary", .text "List")]⟩,
        ⟨.text "/user/all", .text "put", .map []⟩] ∧
      ¬ operations.Pairwise fun a b => ¬ a.SamePair b := by
  have apart : userEntries.Pairwise fun a b => Value.same a.1 b.1 = false := by
    simp [userEntries, Value.same]
  have named : ∀ raw ∈ declared userEntries, raw.method.IsText := by
    simp [userEntries, declared, declaredBy, Value.opened, Value.IsText]
  obtain ⟨listed, distinct⟩ := @ofPaths_eq_and_pairwise_iff (.map userEntries) _ rfl apart named
  refine ⟨_, listed, rfl, fun every => ?_⟩
  have keys := distinct.mp every _ List.mem_cons_self (by simp [Value.same])
  exact (List.pairwise_cons.mp keys).1 _ List.mem_cons_self "get" "GET" rfl rfl (by decide)

end ApiCatalog.RawOperation
