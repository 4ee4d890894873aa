import ApiCatalog.Yaml.Cursor

/-!
Faults of steps that may fail. A step fails only for given causes if each of its parts does, where
a malformed text is no fault, and a step on a state may rest on what the steps before it keep.
-/

namespace ApiCatalog.Yaml

section Plain

variable {α β : Type} {cause : Fault → Prop}

/-- A result that is no fault but of a given cause. -/
def FailsOnly (cause : Fault → Prop) (result : Except Failure α) : Prop :=
  ∀ fault, result = .error (.fault fault) → cause fault

theorem failsOnly_ok (value : α) : FailsOnly cause (.ok value : Except Failure α) := by
  intro fault same
  cases same

theorem failsOnly_pure (value : α) : FailsOnly cause (pure value : Except Failure α) :=
  failsOnly_ok value

theorem failsOnly_malformed : FailsOnly cause (.error .malformed : Except Failure α) := by
  intro fault same
  cases same

theorem failsOnly_fault {fault : Fault} (caused : cause fault) :
    FailsOnly cause (.error (.fault fault) : Except Failure α) := by
  intro other same
  cases same
  exact caused

theorem FailsOnly.bind {result : Except Failure α} {next : α → Except Failure β}
    (first : FailsOnly cause result) (second : ∀ value, FailsOnly cause (next value)) :
    FailsOnly cause (result >>= next) := by
  cases result with
  | ok value => exact second value
  | error failure =>
    intro fault same
    cases same
    exact first fault rfl

theorem FailsOnly.map {result : Except Failure α} (first : FailsOnly cause result) (f : α → β) :
    FailsOnly cause (f <$> result) := by
  cases result with
  | ok value => exact failsOnly_ok (f value)
  | error failure =>
    intro fault same
    cases same
    exact first fault rfl

theorem FailsOnly.ite {condition : Prop} [Decidable condition] {yes no : Except Failure α}
    (first : FailsOnly cause yes) (second : FailsOnly cause no) :
    FailsOnly cause (if condition then yes else no) := by
  split
  · exact first
  · exact second

theorem FailsOnly.mapM {f : α → Except Failure β} {xs : List α}
    (each : ∀ x ∈ xs, FailsOnly cause (f x)) : FailsOnly cause (xs.mapM f) := by
  induction xs with
  | nil => exact failsOnly_pure []
  | cons x xs inner =>
    rw [List.mapM_cons]
    refine (each x List.mem_cons_self).bind fun y => ?_
    exact (inner fun z member => each z (List.mem_cons_of_mem _ member)).bind fun ys =>
      failsOnly_pure _

end Plain

section Stateful

variable {σ α β : Type} {kept : σ → Prop} {cause : Fault → Prop}

/-- A step that, from a given state, comes to a state of a property and is no fault but of a given
cause. -/
def KeepsFrom (s : σ) (kept : σ → Prop) (cause : Fault → Prop)
    (step : StateT σ (Except Failure) α) : Prop :=
  FailsOnly cause (step.run s) ∧ ∀ value s', step.run s = .ok (value, s') → kept s'

def Keeps (kept : σ → Prop) (cause : Fault → Prop) (step : StateT σ (Except Failure) α) : Prop :=
  ∀ s, kept s → KeepsFrom s kept cause step

theorem keeps_pure (value : α) : Keeps kept cause (pure value : StateT σ (Except Failure) α) := by
  intro s holds
  refine ⟨failsOnly_ok (value, s), ?_⟩
  rintro _ _ ⟨⟩
  exact holds

theorem keeps_throw {failure : Failure} (caused : ∀ fault, failure = .fault fault → cause fault) :
    Keeps kept cause (throw failure : StateT σ (Except Failure) α) := by
  intro s holds
  refine ⟨?_, ?_⟩
  · intro fault same
    cases same
    exact caused fault rfl
  · rintro _ _ ⟨⟩

theorem keeps_malformed : Keeps kept cause (throw .malformed : StateT σ (Except Failure) α) :=
  keeps_throw fun _ same => nomatch same

theorem KeepsFrom.bind {s : σ} {step : StateT σ (Except Failure) α}
    {next : α → StateT σ (Except Failure) β} (first : KeepsFrom s kept cause step)
    (second : ∀ value, Keeps kept cause (next value)) : KeepsFrom s kept cause (step >>= next) := by
  obtain ⟨fails, keeps⟩ := first
  unfold KeepsFrom
  rw [StateT.run_bind]
  cases found : step.run s with
  | ok result =>
    obtain ⟨value, s'⟩ := result
    exact second value s' (keeps value s' found)
  | error failure =>
    refine ⟨?_, ?_⟩
    · intro fault same
      cases same
      exact fails fault found
    · rintro _ _ ⟨⟩

theorem Keeps.bind {step : StateT σ (Except Failure) α} {next : α → StateT σ (Except Failure) β}
    (first : Keeps kept cause step) (second : ∀ value, Keeps kept cause (next value)) :
    Keeps kept cause (step >>= next) :=
  fun s holds => (first s holds).bind second

theorem KeepsFrom.get_bind {s : σ} {next : σ → StateT σ (Except Failure) β}
    (second : KeepsFrom s kept cause (next s)) : KeepsFrom s kept cause (get >>= next) :=
  second

theorem keeps_get_bind {next : σ → StateT σ (Except Failure) β}
    (second : ∀ s, kept s → Keeps kept cause (next s)) : Keeps kept cause (get >>= next) :=
  fun s holds => .get_bind (second s holds s holds)

theorem keeps_modify {change : σ → σ} (keeps : ∀ s, kept s → kept (change s)) :
    Keeps kept cause (modify change : StateT σ (Except Failure) Unit) := by
  intro s holds
  refine ⟨failsOnly_ok ((), change s), ?_⟩
  rintro _ _ ⟨⟩
  exact keeps s holds

theorem keeps_set {s' : σ} (holds : kept s') :
    Keeps kept cause (set s' : StateT σ (Except Failure) Unit) := by
  intro s _
  refine ⟨failsOnly_ok ((), s'), ?_⟩
  rintro _ _ ⟨⟩
  exact holds

theorem keeps_lift_bind {result : Except Failure α} {next : α → StateT σ (Except Failure) β}
    (fails : FailsOnly cause result)
    (second : ∀ value, result = .ok value → Keeps kept cause (next value)) :
    Keeps kept cause ((liftM result : StateT σ (Except Failure) α) >>= next) := by
  cases result with
  | ok value => exact second value rfl
  | error failure =>
    intro s holds
    refine ⟨?_, ?_⟩
    · intro fault same
      cases same
      exact fails fault rfl
    · rintro _ _ ⟨⟩

theorem Keeps.ite {condition : Prop} [Decidable condition]
    {yes no : StateT σ (Except Failure) α} (first : Keeps kept cause yes)
    (second : Keeps kept cause no) : Keeps kept cause (if condition then yes else no) := by
  split
  · exact first
  · exact second

theorem Keeps.map {step : StateT σ (Except Failure) α} (first : Keeps kept cause step)
    (f : α → β) : Keeps kept cause (f <$> step) := by
  rw [← bind_pure_comp]
  exact first.bind fun value => keeps_pure (f value)

theorem Keeps.mapM {f : α → StateT σ (Except Failure) β} (each : ∀ x, Keeps kept cause (f x))
    (xs : List α) : Keeps kept cause (xs.mapM f) := by
  induction xs with
  | nil => exact keeps_pure []
  | cons x xs inner =>
    rw [List.mapM_cons]
    exact (each x).bind fun y => inner.bind fun ys => keeps_pure (y :: ys)

theorem Keeps.forM {f : α → StateT σ (Except Failure) Unit} (each : ∀ x, Keeps kept cause (f x))
    (xs : List α) : Keeps kept cause (xs.forM f) := by
  induction xs with
  | nil => exact keeps_pure ()
  | cons x xs inner => exact (each x).bind fun _ => inner

end Stateful

end ApiCatalog.Yaml
