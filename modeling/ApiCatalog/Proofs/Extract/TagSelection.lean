import ApiCatalog.Extract.Module
import ApiCatalog.Proofs.Extract.Outcome

/-!
Operations of a tag, and what becomes of the tag: a placeholder gives a remark and no module, and so
does a tag of which no interface is made; any other tag gives a module and no remark of its own.
-/

namespace ApiCatalog

def RawOperation.tags (raw : RawOperation) : Except Fault (List Value) := do
  ((← raw.operation.field "tags").orElse .emptyList).members

def RawOperation.hasTagAmong (keys : List Value) (raw : RawOperation) : Bool :=
  (raw.tags.toOption.getD []).any fun tag => keys.any (Value.same tag)

def TagPolicy.operationsOf (policy : TagPolicy) (operations : List RawOperation) (tag : Value) :
    List RawOperation :=
  operations.filter (RawOperation.hasTagAmong ((policy.matchKeys tag).toOption.getD []))

def TagPolicy.isInformative (policy : TagPolicy) (tag : Value) : Bool :=
  (policy.isPlaceholder tag).toOption == some false

theorem RawOperation.carries_eq {keys : List Value} {raw : RawOperation} {flag : Bool}
    (returned : raw.carries keys = .ok flag) : flag = raw.hasTagAmong keys := by
  unfold RawOperation.carries at returned
  obtain ⟨found, hfound, returned⟩ := Outcome.bind_eq_ok_iff.mp returned
  obtain ⟨tags, htags, returned⟩ := Outcome.bind_eq_ok_iff.mp returned
  have listed : raw.tags = .ok tags := Outcome.bind_eq_ok_iff.mpr ⟨found, hfound, htags⟩
  split at returned
  · rw [RawOperation.hasTagAmong, listed]
    exact (Except.ok.inj returned).symm
  · simp at returned

theorem RawOperation.select_eq {keys : List Value} {operations selected : List RawOperation}
    (returned : RawOperation.select keys operations = .ok selected) :
    selected = operations.filter (RawOperation.hasTagAmong keys) := by
  rw [Outcome.eq_filter_of_filterM returned]
  refine List.filter_congr fun raw member => ?_
  obtain ⟨flag, carried⟩ := Outcome.forall_of_filterM returned raw member
  rw [← RawOperation.carries_eq carried, carried]
  cases flag <;> rfl

section
variable (operations : List RawOperation) (byId : Bool) (origin : String) (policy : TagPolicy)
  (tag : Value)

structure TagPolicy.Gathers (lead : String) (interfaces : List Interface) : Prop where
  informative : policy.isPlaceholder tag = .ok false
  keyed : ∃ keys, policy.matchKeys tag = .ok keys
  shared : RawOperation.commonLead (policy.operationsOf operations tag) = .ok lead
  made : (Interface.ofOperations byId lead origin [] (policy.operationsOf operations tag)).outcome =
    .ok interfaces

inductive TagPolicy.Yields : Option ApiModule → List Remark → Prop
  | placeholder {name : Value} (repeats : policy.isPlaceholder tag = .ok true) :
      Yields none [.placeholderTag name]
  | empty {lead name : String} {description : Value}
      (gathers : policy.Gathers operations byId origin tag lead [])
      (identified : policy.identify tag = .ok (name, description)) :
      Yields none ((Interface.ofOperations byId lead origin []
        (policy.operationsOf operations tag)).remarks ++ [.emptyModule name])
  | filled {lead name : String} {description : Value} {text : String} {interfaces : List Interface}
      (gathers : policy.Gathers operations byId origin tag lead interfaces)
      (nonempty : interfaces ≠ [])
      (identified : policy.identify tag = .ok (name, description))
      (described : Check.text description = .valid text) :
      Yields (some ⟨name, text, interfaces⟩) (Interface.ofOperations byId lead origin []
        (policy.operationsOf operations tag)).remarks

end

theorem TagPolicy.yields_of_ofTag {operations : List RawOperation} {byId : Bool} {origin : String}
    {policy : TagPolicy} {tag : Value} {kept : Option ApiModule}
    (returned : (ApiModule.ofTag operations byId origin policy tag).outcome = .ok kept) :
    policy.Yields operations byId origin tag kept
      (ApiModule.ofTag operations byId origin policy tag).remarks := by
  unfold ApiModule.ofTag at returned ⊢
  obtain ⟨repeats, hrepeats, returned⟩ := Traced.outcome_bind_eq_ok_iff.mp returned
  rw [Traced.outcome_lift] at hrepeats
  rw [hrepeats, Traced.ok_bind]
  cases repeats with
  | true =>
    simp only [if_true] at returned ⊢
    obtain ⟨name, hname, returned⟩ := Traced.outcome_bind_eq_ok_iff.mp returned
    obtain ⟨_, -, returned⟩ := Traced.outcome_bind_eq_ok_iff.mp returned
    obtain rfl := Except.ok.inj returned
    rw [Traced.outcome_lift] at hname
    rw [hname, Traced.ok_bind]
    exact .placeholder hrepeats
  | false =>
    simp only [Bool.false_eq_true, if_false] at returned ⊢
    obtain ⟨keys, hkeys, returned⟩ := Traced.outcome_bind_eq_ok_iff.mp returned
    obtain ⟨selected, hselected, returned⟩ := Traced.outcome_bind_eq_ok_iff.mp returned
    rw [Traced.outcome_lift] at hkeys hselected
    obtain rfl : selected = policy.operationsOf operations tag := by
      rw [TagPolicy.operationsOf, hkeys]
      exact RawOperation.select_eq hselected
    obtain ⟨lead, hlead, returned⟩ := Traced.outcome_bind_eq_ok_iff.mp returned
    obtain ⟨interfaces, made, returned⟩ := Traced.outcome_bind_eq_ok_iff.mp returned
    obtain ⟨⟨name, description⟩, identified, returned⟩ := Traced.outcome_bind_eq_ok_iff.mp returned
    rw [Traced.outcome_lift] at hlead identified
    rw [hkeys, Traced.ok_bind, hselected, Traced.ok_bind, hlead, Traced.ok_bind,
      Traced.remarks_bind made, identified, Traced.ok_bind]
    have gathers : policy.Gathers operations byId origin tag lead interfaces :=
      ⟨hrepeats, ⟨keys, hkeys⟩, hlead, made⟩
    simp only at returned ⊢
    split at returned
    · rename_i nothing
      obtain ⟨_, -, returned⟩ := Traced.outcome_bind_eq_ok_iff.mp returned
      obtain rfl := Except.ok.inj returned
      obtain rfl := List.isEmpty_iff.mp nothing
      exact .empty gathers identified
    · rename_i something
      obtain ⟨built, hbuilt, same⟩ := Traced.outcome_map_eq_ok_iff.mp returned
      subst same
      rw [Traced.outcome_lift] at hbuilt
      rw [if_neg something, hbuilt, Traced.map_ok, Traced.remarks_pure, List.append_nil]
      simp only [Checked.orFault_eq_ok_iff, Checked.seq_eq_valid_iff, Checked.map_eq_valid_iff,
        Checked.under_eq_valid_iff] at hbuilt
      obtain ⟨_, _, ⟨_, text, ⟨_, named, rfl⟩, described, rfl⟩, holds, rfl⟩ := hbuilt
      cases named
      cases holds
      exact .filled gathers (by simpa using something) identified described

end ApiCatalog
