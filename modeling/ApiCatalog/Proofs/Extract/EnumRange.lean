import ApiCatalog.Extract.Enumeration
import ApiCatalog.Proofs.Extract.Outcome
import ApiCatalog.Proofs.Number.DoubleRange

/-!
Enumerations and the range of doubles. An enumeration is made fit for identifiers exactly if the
whole numbers among its members are within that range, and overflows if one is not; a computation
may hinge on several enumerations in this way.
-/

namespace ApiCatalog

def Value.listedMembers (schema : Value) : List Value :=
  ((schema.field "enum").toOption.bind fun listed => listed.members.toOption).getD []

def Value.ListsInRange (schema : Value) : Prop :=
  ∀ n, .int n ∈ schema.listedMembers → n.natAbs < Number.overflowThreshold

/-- A computation returns if some schemas list no whole number beyond the range of doubles, and
overflows if one of them does. -/
def Traced.HingesOn {α : Type} (schemas : List Value) (x : Traced α) : Prop :=
  ((∀ schema ∈ schemas, schema.ListsInRange) → ∃ value, x.outcome = .ok value) ∧
    ((∃ schema ∈ schemas, ¬ schema.ListsInRange) → x.outcome = .error .overflow)

namespace Traced

variable {α β : Type} {schemas others : List Value}

theorem hingesOn_of_ok {x : Traced α} {value : α} (returned : x.outcome = .ok value) :
    x.HingesOn [] :=
  ⟨fun _ => ⟨value, returned⟩, fun ⟨_, member, _⟩ => absurd member List.not_mem_nil⟩

theorem HingesOn.bind {x : Traced α} {next : α → Traced β} (first : x.HingesOn schemas)
    (rest : ∀ value, x.outcome = .ok value → (next value).HingesOn others) :
    (x >>= next).HingesOn (schemas ++ others) := by
  by_cases all : ∀ schema ∈ schemas, schema.ListsInRange
  · obtain ⟨value, returned⟩ := first.1 all
    have same : (x >>= next).outcome = (next value).outcome := by
      rw [outcome_bind, returned]
      rfl
    obtain ⟨returns, overflows⟩ := rest value returned
    rw [HingesOn, same]
    refine ⟨fun every => returns fun schema member => every schema (List.mem_append_right _ member),
      fun ⟨schema, member, beyond⟩ => ?_⟩
    rcases List.mem_append.mp member with before | after
    · exact absurd (all schema before) beyond
    · exact overflows ⟨schema, after, beyond⟩
  · have some : ∃ schema ∈ schemas, ¬ schema.ListsInRange := by simpa using all
    have same : (x >>= next).outcome = .error .overflow := by
      rw [outcome_bind, first.2 some]
      rfl
    exact ⟨fun every => absurd (fun schema member => every schema (List.mem_append_left _ member))
      all, fun _ => same⟩

theorem HingesOn.ok_bind {x : Except Fault α} {next : α → Traced β} {value : α}
    (returned : x = .ok value) (rest : (next value).HingesOn schemas) :
    ((liftM x : Traced α) >>= next).HingesOn schemas := by
  rw [returned, Traced.ok_bind]
  exact rest

theorem HingesOn.bind_ok {x : Traced α} {next : α → Traced β} (first : x.HingesOn schemas)
    (rest : ∀ value, x.outcome = .ok value → ∃ result, (next value).outcome = .ok result) :
    (x >>= next).HingesOn schemas := by
  rw [← List.append_nil schemas]
  refine first.bind fun value returned => ?_
  obtain ⟨result, last⟩ := rest value returned
  exact hingesOn_of_ok last

theorem HingesOn.ite {test : Prop} [Decidable test] {x y : Traced α} (first : x.HingesOn schemas)
    (second : y.HingesOn schemas) : (if test then x else y).HingesOn schemas := by
  split
  · exact first
  · exact second

theorem hingesOn_mapM {step : α → Traced β} {schemasOf : α → List Value} {xs : List α}
    (each : ∀ x ∈ xs, (step x).HingesOn (schemasOf x)) :
    (xs.mapM step).HingesOn (xs.flatMap schemasOf) := by
  induction xs with
  | nil => exact hingesOn_of_ok rfl
  | cons x xs ih =>
    rw [List.mapM_cons, List.flatMap_cons]
    refine (each x List.mem_cons_self).bind fun first _ => ?_
    exact (ih fun y member => each y (List.mem_cons_of_mem x member)).bind_ok
      fun others _ => ⟨first :: others, rfl⟩

theorem hingesOn_collect {step : α → Traced (Option β)} {schemasOf : α → List Value} {xs : List α}
    (each : ∀ x ∈ xs, (step x).HingesOn (schemasOf x)) :
    (collect step xs).HingesOn (xs.flatMap schemasOf) := by
  induction xs with
  | nil => exact hingesOn_of_ok rfl
  | cons x xs ih =>
    rw [collect, List.flatMap_cons]
    refine (each x List.mem_cons_self).bind fun kept _ => ?_
    exact (ih fun y member => each y (List.mem_cons_of_mem x member)).bind_ok
      fun more _ => ⟨kept.toList ++ more, rfl⟩

end Traced

namespace EnumMember

def IsBeyond (member : EnumMember) : Prop :=
  ∃ n, member = .int n ∧ Number.overflowThreshold ≤ n.natAbs

theorem number?_of_isBeyond {member : EnumMember} (beyond : member.IsBeyond) :
    member.number? = .error .overflow := by
  obtain ⟨n, rfl, large⟩ := beyond
  rw [number?, Number.Double.ofInt?_eq_none_iff.mpr large, Option.elim_none]

theorem exists_number? {member : EnumMember} (within : ¬ member.IsBeyond) :
    ∃ number, member.number? = .ok number := by
  cases member with
  | int n =>
    have near : Number.Double.ofInt? n ≠ none := by
      intro none
      exact within ⟨n, rfl, Number.Double.ofInt?_eq_none_iff.mp none⟩
    obtain ⟨x, near⟩ := Option.ne_none_iff_exists'.mp near
    exact ⟨ofDouble? x, by rw [number?, near, Option.elim_some]⟩
  | bool b => exact ⟨none, rfl⟩
  | float x => exact ⟨ofDouble? x, rfl⟩
  | text s =>
    rw [number?]
    split
    · exact ⟨none, rfl⟩
    · exact ⟨_, rfl⟩

theorem exists_addTwin {member : EnumMember} (within : ¬ member.IsBeyond)
    (known : List EnumMember) : ∃ more, addTwin known member = .ok more := by
  obtain ⟨number, denotes⟩ := exists_number? within
  cases number with
  | none => exact ⟨known, Outcome.bind_eq_ok_iff.mpr ⟨none, denotes, rfl⟩⟩
  | some number => exact ⟨_, Outcome.bind_eq_ok_iff.mpr ⟨some number, denotes, rfl⟩⟩

theorem exists_foldlM_addTwin {members : List EnumMember}
    (within : ∀ member ∈ members, ¬ member.IsBeyond) (known : List EnumMember) :
    ∃ combined, members.foldlM addTwin known = .ok combined := by
  induction members generalizing known with
  | nil => exact ⟨known, rfl⟩
  | cons member rest ih =>
    obtain ⟨more, added⟩ := exists_addTwin (within member List.mem_cons_self) known
    obtain ⟨combined, walked⟩ := ih (fun other later => within other
      (List.mem_cons_of_mem member later)) more
    rw [List.foldlM_cons]
    exact ⟨combined, Outcome.bind_eq_ok_iff.mpr ⟨more, added, walked⟩⟩

theorem foldlM_addTwin_of_isBeyond {members : List EnumMember}
    (beyond : ∃ member ∈ members, member.IsBeyond) (known : List EnumMember) :
    members.foldlM addTwin known = .error .overflow := by
  induction members generalizing known with
  | nil => simp at beyond
  | cons member rest ih =>
    rw [List.foldlM_cons]
    by_cases here : member.IsBeyond
    · rw [addTwin, number?_of_isBeyond here]
      rfl
    · obtain ⟨more, added⟩ := exists_addTwin here known
      rw [added]
      exact ih (by simpa [here] using beyond) more

theorem ofValue?_eq_int_iff {value : Value} {n : Int} :
    ofValue? value = some (.int n) ↔ value = .int n := by
  cases value <;> simp [ofValue?]

theorem exists_sanitize {members : List EnumMember}
    (within : ∀ member ∈ members, ¬ member.IsBeyond) : ∃ safe, sanitize members = .ok safe := by
  obtain ⟨combined, walked⟩ := exists_foldlM_addTwin within members
  exact ⟨combined.filter isSafe, Outcome.bind_eq_ok_iff.mpr ⟨combined, walked, rfl⟩⟩

theorem sanitize_of_isBeyond {members : List EnumMember}
    (beyond : ∃ member ∈ members, member.IsBeyond) : sanitize members = .error .overflow := by
  rw [sanitize, foldlM_addTwin_of_isBeyond beyond]
  rfl

theorem exists_isBeyond_iff {items : List Value} :
    (∃ member ∈ items.filterMap ofValue?, member.IsBeyond) ↔
      ∃ n, .int n ∈ items ∧ Number.overflowThreshold ≤ n.natAbs := by
  constructor
  · rintro ⟨member, inside, n, rfl, large⟩
    obtain ⟨value, listed, given⟩ := List.mem_filterMap.mp inside
    exact ⟨n, ofValue?_eq_int_iff.mp given ▸ listed, large⟩
  · rintro ⟨n, listed, large⟩
    exact ⟨.int n, List.mem_filterMap.mpr ⟨_, listed, ofValue?_eq_int_iff.mpr rfl⟩, n, rfl, large⟩

theorem ofListed_eq_sanitize {listed : Value} {items : List Value}
    (walked : listed.members = .ok items) :
    ofListed listed = some <$> sanitize (items.filterMap ofValue?) := by
  cases listed with
  | null => cases walked
  | _ => exact congrArg (· >>= fun items => some <$> sanitize (items.filterMap ofValue?)) walked

end EnumMember

theorem Value.hingesOn_ofListed {schema listed : Value} (found : schema.field "enum" = .ok listed)
    (row : listed = .null ∨ ∃ items, listed.members = .ok items) :
    (liftM (EnumMember.ofListed listed) : Traced (Option (List EnumMember))).HingesOn [schema] := by
  have read : schema.listedMembers = listed.members.toOption.getD [] := by
    rw [Value.listedMembers, found]
    rfl
  simp only [Traced.HingesOn, List.mem_singleton, forall_eq, exists_eq_left, Traced.outcome_lift]
  rcases row with rfl | ⟨items, walked⟩
  · have nothing : schema.ListsInRange := by
      intro n member
      rw [read] at member
      exact absurd member List.not_mem_nil
    exact ⟨fun _ => ⟨none, rfl⟩, fun beyond => absurd nothing beyond⟩
  · have inRange : schema.ListsInRange ↔
        ¬ ∃ member ∈ items.filterMap EnumMember.ofValue?, member.IsBeyond := by
      rw [EnumMember.exists_isBeyond_iff, Value.ListsInRange, read, walked]
      simp [Except.toOption]
    rw [EnumMember.ofListed_eq_sanitize walked, inRange, not_not]
    constructor
    · intro within
      obtain ⟨safe, sanitized⟩ := EnumMember.exists_sanitize fun member inside beyond =>
        within ⟨member, inside, beyond⟩
      exact ⟨some safe, by rw [sanitized]; rfl⟩
    · intro beyond
      rw [EnumMember.sanitize_of_isBeyond beyond]
      rfl

end ApiCatalog
