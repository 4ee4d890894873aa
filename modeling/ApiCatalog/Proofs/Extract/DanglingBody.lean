import ApiCatalog.Proofs.Extract.BodyModel
import ApiCatalog.Proofs.Extract.Resolution
import ApiCatalog.Proofs.Extract.SelectedClasses

/-!
Dangling bodies, whose model is no name of a class. Resolution takes exactly them out of the
interfaces and leaves all else as it stands. What it leaves is stable: resolving again changes
nothing, with more classes nothing that stayed goes, and the classes that a selection drops matter
to no reference without type arguments.
-/

namespace ApiCatalog

/-- A body that refers to a model which is neither the name of a class nor its name without
parameters. -/
structure Property.Dangles (origin : String) (classes : List BaseClass) (p : Property) : Prop where
  body : p.location = some .body
  refers : p.dataType.reference ≠ ""
  undeclared : ∀ base ∈ classes, base.name ≠ modelName origin p.dataType.reference ∧
    base.justName ≠ modelName origin p.dataType.reference

instance (origin : String) (classes : List BaseClass) (p : Property) :
    Decidable (p.Dangles origin classes) :=
  decidable_of_iff (p.location = some .body ∧ p.dataType.reference ≠ "" ∧
      ∀ base ∈ classes, base.name ≠ modelName origin p.dataType.reference ∧
        base.justName ≠ modelName origin p.dataType.reference)
    ⟨fun ⟨body, refers, undeclared⟩ => ⟨body, refers, undeclared⟩,
      fun ⟨body, refers, undeclared⟩ => ⟨body, refers, undeclared⟩⟩

structure Interface.IsPruned (origin : String) (classes : List BaseClass) (i pruned : Interface) :
    Prop where
  frame : { pruned with parameters := i.parameters } = i
  parameters : pruned.parameters = i.parameters.filter fun p => !decide (p.Dangles origin classes)

structure ApiModule.IsPruned (origin : String) (classes : List BaseClass) (m pruned : ApiModule) :
    Prop where
  frame : { pruned with interfaces := m.interfaces } = m
  interfaces : List.Forall₂ (Interface.IsPruned origin classes) m.interfaces pruned.interfaces

def ApiModule.ParametersWithin (m n : ApiModule) : Prop :=
  List.Forall₂ (fun i j : Interface => i.parameters.Sublist j.parameters) m.interfaces n.interfaces

section
variable {origin : String} {classes larger : List BaseClass} {known more : List String}

theorem Property.isResolvable_eq_not_dangles (p : Property) :
    p.isResolvable origin (knownNames classes) = !decide (p.Dangles origin classes) := by
  rw [Bool.eq_iff_iff, Bool.not_eq_true', decide_eq_false_iff_not, Property.isResolvable_iff]
  constructor
  · intro resolves dangles
    obtain ⟨base, member, named⟩ := mem_knownNames.mp (resolves dangles.body dangles.refers)
    rcases named with whole | bare
    · exact (dangles.undeclared base member).1 whole
    · exact (dangles.undeclared base member).2 bare
  · intro attached body refers
    by_contra unknown
    refine attached ⟨body, refers, fun base member => ⟨fun named => ?_, fun named => ?_⟩⟩
    · exact unknown (mem_knownNames.mpr ⟨base, member, Or.inl named⟩)
    · exact unknown (mem_knownNames.mpr ⟨base, member, Or.inr named⟩)

theorem Interface.isPruned_pruned (i : Interface) :
    i.IsPruned origin classes (i.pruned origin (knownNames classes)) := by
  refine ⟨rfl, ?_⟩
  simp only [Interface.pruned, Property.isResolvable_eq_not_dangles]

theorem ApiModule.isPruned_pruned (m : ApiModule) :
    m.IsPruned origin classes (m.pruned origin (knownNames classes)) := by
  refine ⟨rfl, ?_⟩
  rw [ApiModule.pruned, List.forall₂_map_right_iff, List.forall₂_same]
  exact fun i _ => i.isPruned_pruned

theorem Interface.resolve_of_forall {i : Interface}
    (resolvable : ∀ p ∈ i.parameters, p.isResolvable origin known = true) :
    i.resolve origin known = pure i := by
  have stays : i.parameters.filter (·.isResolvable origin known) = i.parameters :=
    List.filter_eq_self.mpr resolvable
  have goes : i.parameters.filter (fun p => !p.isResolvable origin known) = [] := by
    rw [List.filter_eq_nil_iff]
    intro p member
    simp [resolvable p member]
  rw [Interface.resolve, Property.resolvable, stays, goes]
  rfl

theorem Interface.resolve_pruned (i : Interface) :
    (i.pruned origin known).resolve origin known = pure (i.pruned origin known) :=
  Interface.resolve_of_forall fun _ member => (List.mem_filter.mp member).2

theorem ApiModule.resolve_pruned (m : ApiModule) :
    (m.pruned origin known).resolve origin known = pure (m.pruned origin known) := by
  have each : Interface.resolve origin known ∘ Interface.pruned origin known =
      fun i => pure (i.pruned origin known) := funext Interface.resolve_pruned
  rw [ApiModule.resolve, ApiModule.pruned, List.mapM_map, each, List.mapM_pure, pure_bind]

theorem ApiModule.resolveAll_pruned (modules : List ApiModule) :
    ApiModule.resolveAll (modules.map (ApiModule.pruned origin (knownNames classes))) classes
      origin = pure (modules.map (ApiModule.pruned origin (knownNames classes))) := by
  have each : ApiModule.resolve origin (knownNames classes) ∘
      ApiModule.pruned origin (knownNames classes) =
        fun m => pure (m.pruned origin (knownNames classes)) := funext ApiModule.resolve_pruned
  rw [ApiModule.resolveAll, List.mapM_map, each, List.mapM_pure]

theorem knownNames_subset (grown : classes ⊆ larger) : knownNames classes ⊆ knownNames larger := by
  intro name listed
  obtain ⟨base, member, named⟩ := mem_knownNames.mp listed
  exact mem_knownNames.mpr ⟨base, grown member, named⟩

theorem Property.isResolvable_mono (grown : known ⊆ more) {p : Property}
    (resolvable : p.isResolvable origin known = true) : p.isResolvable origin more = true := by
  rw [Property.isResolvable_iff] at resolvable ⊢
  exact fun body refers => grown (resolvable body refers)

theorem ApiModule.parametersWithin_pruned (grown : known ⊆ more) (m : ApiModule) :
    (m.pruned origin known).ParametersWithin (m.pruned origin more) := by
  rw [ApiModule.ParametersWithin, ApiModule.pruned, ApiModule.pruned, List.forall₂_map_left_iff,
    List.forall₂_map_right_iff, List.forall₂_same]
  intro i _
  exact List.monotone_filter_right _ fun p => Property.isResolvable_mono grown

end

theorem Generic.unqualify_suffix (origin reference : List Char) :
    unqualify origin reference <:+ reference := by
  cases cut : Text.dropStart? namespaceLead reference with
  | none => simp only [unqualify, cut, List.suffix_rfl]
  | some name =>
    obtain rfl := (Text.dropStart?_eq_some_iff _ _ _).mp cut
    rw [unqualify_lead, withoutOrigin]
    refine List.IsSuffix.trans ?_ (List.suffix_append namespaceLead name)
    split
    · exact List.suffix_rfl
    · cases further : Text.dropStart? (origin ++ ['.']) name with
      | none => exact List.suffix_rfl
      | some rest =>
        obtain rfl := (Text.dropStart?_eq_some_iff _ _ _).mp further
        exact List.suffix_append _ rest

theorem justName_of_bare {name : String} (bare : '<' ∉ name.toList) : justName name = name := by
  rw [justName, Text.before_eq_self bare, String.ofList_toList]

theorem mem_knownNames_iff_of_bare {classes : List BaseClass} {name : String}
    (bare : '<' ∉ name.toList) :
    name ∈ knownNames classes ↔ name ∈ classes.map BaseClass.justName := by
  constructor
  · intro listed
    obtain ⟨base, member, named⟩ := mem_knownNames.mp listed
    refine List.mem_map.mpr ⟨base, member, ?_⟩
    rcases named with rfl | named
    · exact justName_of_bare bare
    · exact named
  · exact List.mem_append_right _

section
variable {origin : String} {classes selected : List BaseClass}
  (returned : (BaseClass.sortUnique classes).outcome = .ok selected)
include returned

theorem Property.isResolvable_of_selected {p : Property}
    (bare : p.location = some .body → '<' ∉ p.dataType.reference.toList) :
    p.isResolvable origin (knownNames selected) = p.isResolvable origin (knownNames classes) := by
  rw [Bool.eq_iff_iff, Property.isResolvable_iff, Property.isResolvable_iff]
  refine forall_congr' fun body => imp_congr_right fun _ => ?_
  have plain : '<' ∉ (modelName origin p.dataType.reference).toList := by
    rw [modelName, String.toList_ofList]
    exact fun inside => bare body ((Generic.unqualify_suffix _ _).subset inside)
  rw [mem_knownNames_iff_of_bare plain, mem_knownNames_iff_of_bare plain]
  exact (BaseClass.isSelection_of_outcome returned).names _

theorem ApiModule.pruned_of_selected {m : ApiModule}
    (bare : ∀ i ∈ m.interfaces, ∀ p ∈ i.parameters, p.location = some .body →
      '<' ∉ p.dataType.reference.toList) :
    m.pruned origin (knownNames selected) = m.pruned origin (knownNames classes) := by
  have same : m.interfaces.map (Interface.pruned origin (knownNames selected)) =
      m.interfaces.map (Interface.pruned origin (knownNames classes)) := by
    refine List.map_congr_left fun i member => ?_
    rw [Interface.pruned, Interface.pruned, List.filter_congr fun p inside =>
      Property.isResolvable_of_selected returned (bare i member p inside)]
  rw [ApiModule.pruned, ApiModule.pruned, same]

end

/-- Resolution removes the dangling bodies and nothing else, at once and for good: what is left
stays when it is resolved again or with more classes. For references without type arguments the
selected classes do as well as all of them. -/
theorem ApiModule.resolveAll_removes_dangling (modules : List ApiModule)
    (classes : List BaseClass) (origin : String) :
    ∃ pruned, (ApiModule.resolveAll modules classes origin).outcome = .ok pruned ∧
      List.Forall₂ (ApiModule.IsPruned origin classes) modules pruned ∧
      ApiModule.resolveAll pruned classes origin = pure pruned ∧
      (∀ larger, classes ⊆ larger →
        ∃ more, (ApiModule.resolveAll modules larger origin).outcome = .ok more ∧
          List.Forall₂ ApiModule.ParametersWithin pruned more) ∧
      ((∀ m ∈ modules, ∀ i ∈ m.interfaces, ∀ p ∈ i.parameters, p.location = some .body →
          '<' ∉ p.dataType.reference.toList) →
        ∃ selected, (BaseClass.sortUnique classes).outcome = .ok selected ∧
          (ApiModule.resolveAll modules selected origin).outcome = .ok pruned) := by
  refine ⟨_, outcome_resolveAll modules classes origin, ?_, resolveAll_pruned modules, ?_, ?_⟩
  · rw [List.forall₂_map_right_iff, List.forall₂_same]
    exact fun m _ => m.isPruned_pruned
  · intro larger grown
    refine ⟨_, outcome_resolveAll modules larger origin, ?_⟩
    rw [List.forall₂_map_left_iff, List.forall₂_map_right_iff, List.forall₂_same]
    exact fun m _ => m.parametersWithin_pruned (knownNames_subset grown)
  · intro bare
    have returned := BaseClass.outcome_sortUnique classes
    refine ⟨_, returned, ?_⟩
    rw [outcome_resolveAll]
    exact congrArg Except.ok
      (List.map_congr_left fun m member => pruned_of_selected returned (bare m member))

def orderModules (models : List String) : List ApiModule :=
  [⟨"order", "Orders", [⟨"save", "", "post", "/order", [], ⟨false, .empty, "", none⟩,
    models.map fun model => ⟨model, "", true, ⟨false, .empty, "defs." ++ model, none⟩, some .body⟩⟩]⟩]

def orderClasses : List BaseClass :=
  [⟨"Order<T0>", "", []⟩, ⟨"Order", "", []⟩]

theorem ApiModule.pruned_orderModules :
    (ApiModule.resolveAll (orderModules ["shop.Order", "Ghost"]) orderClasses "shop").outcome =
        .ok (orderModules ["shop.Order"]) ∧
      ApiModule.resolveAll (orderModules ["shop.Order"]) orderClasses "shop" =
        pure (orderModules ["shop.Order"]) ∧
      (∃ more, (ApiModule.resolveAll (orderModules ["shop.Order", "Ghost"])
          (⟨"Ghost", "", []⟩ :: orderClasses) "shop").outcome = .ok more ∧
        List.Forall₂ ApiModule.ParametersWithin (orderModules ["shop.Order"]) more) ∧
      ∃ selected, (BaseClass.sortUnique orderClasses).outcome = .ok selected ∧
        (ApiModule.resolveAll (orderModules ["shop.Order", "Ghost"]) selected "shop").outcome =
          .ok (orderModules ["shop.Order"]) := by
  obtain ⟨pruned, returned, -, again, grows, selects⟩ :=
    ApiModule.resolveAll_removes_dangling (orderModules ["shop.Order", "Ghost"]) orderClasses "shop"
  have computed : (ApiModule.resolveAll (orderModules ["shop.Order", "Ghost"]) orderClasses
      "shop").outcome = .ok (orderModules ["shop.Order"]) := rfl
  obtain rfl := Except.ok.inj (returned.symm.trans computed)
  have grown : orderClasses ⊆ ⟨"Ghost", "", []⟩ :: orderClasses := List.subset_cons_self _ _
  exact ⟨returned, again, grows _ grown, selects (by decide)⟩

end ApiCatalog
