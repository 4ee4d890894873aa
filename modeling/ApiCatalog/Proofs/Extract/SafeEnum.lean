import ApiCatalog.Proofs.Extract.NumericTwin

/-!
What an enumeration becomes: its safe members in their order, and behind them numbers of which no
two are equal. A whole number that a text denotes is never missing, even if the text is unsafe, and
truth values do not take part in this.
-/

namespace ApiCatalog

theorem Value.members_of_opened {listed : Value} {items : List Value}
    (isList : listed.opened = .list items) : listed.members = .ok items := by
  rw [Value.members, isList]

namespace EnumMember

open Number

def safeScalars (items : List Value) : List EnumMember :=
  (items.filterMap ofValue?).filter fun member => decide (IsIdentifierSafe member.label)

theorem safeScalars_eq (items : List Value) :
    safeScalars items = (items.filterMap ofValue?).filter isSafe := by
  refine List.filter_congr fun member _ => ?_
  rw [Bool.eq_iff_iff, decide_eq_true_eq, isSafe_iff]

theorem int_mem_scalars_iff {items : List Value} {n : Int} :
    .int n ∈ items.filterMap ofValue? ↔ .int n ∈ items := by
  rw [List.mem_filterMap]
  constructor
  · rintro ⟨item, listed, given⟩
    exact ofValue?_eq_int_iff.mp given ▸ listed
  · intro listed
    exact ⟨.int n, listed, rfl⟩

theorem float_mem_scalars_iff {items : List Value} {x : Double} :
    .float x ∈ items.filterMap ofValue? ↔ .float x ∈ items := by
  rw [List.mem_filterMap]
  constructor
  · rintro ⟨item, listed, given⟩
    cases item <;> cases given
    exact listed
  · intro listed
    exact ⟨.float x, listed, rfl⟩

theorem number?_text {s : String} {n : Int} (plain : '_' ∉ s.toList)
    (whole : (doubleOfText? s.toList).bind Double.toInt? = some n) :
    (EnumMember.text s).number? = .ok (some (.int n)) := by
  obtain ⟨x, read, same⟩ := Option.bind_eq_some_iff.mp whole
  rw [number?, if_neg (by simpa using plain), read, Option.bind_some,
    ofDouble?_eq_some_iff.mpr (.inl ⟨n, same, rfl⟩)]

theorem exists_sanitize_of_range {items : List Value}
    (inRange : ∀ n, .int n ∈ items → n.natAbs < overflowThreshold) :
    ∃ safe, sanitize (items.filterMap ofValue?) = .ok safe := by
  apply exists_sanitize
  rintro member inside ⟨n, rfl, large⟩
  have within := inRange n (int_mem_scalars_iff.mp inside)
  omega

/-- The safe members of an enumeration and then their numbers. -/
theorem ofListed_eq_safeScalars_append {listed : Value} {items : List Value}
    (isList : listed.opened = .list items) (noFloat : ∀ x, .float x ∉ items)
    (inRange : ∀ n, .int n ∈ items → n.natAbs < overflowThreshold) :
    ∃ twins, ofListed listed = .ok (some (safeScalars items ++ twins)) ∧
      (∀ twin ∈ twins, twin.IsNumber ∧
        ∃ member ∈ items.filterMap ofValue?, member.number? = .ok (some twin)) ∧
      twins.Pairwise (fun a b => sameNumber a b = false) ∧
      (∀ twin ∈ twins, ∀ n, .int n ∈ safeScalars items → sameNumber twin (.int n) = false) ∧
      (∀ s n, .text s ∈ items → '_' ∉ s.toList →
        (doubleOfText? s.toList).bind Double.toInt? = some n →
          .int n ∈ safeScalars items ++ twins) ∧
      ofListed (.list (items.filter fun item => !item.isBool)) =
        .ok (some ((safeScalars items).filter (fun member => !member.isBool) ++ twins)) := by
  obtain ⟨safe, sanitized⟩ := exists_sanitize_of_range inRange
  obtain ⟨twins, walked, holds, rfl⟩ := of_sanitize sanitized
  refine ⟨twins.filter isSafe, ?_, ?_, holds.distinct.filter _, ?_, ?_, ?_⟩
  · rw [ofListed_eq_sanitize (Value.members_of_opened isList), sanitized, safeScalars_eq]
    rfl
  · intro twin inside
    obtain ⟨member, position, denotes⟩ := holds.denoted twin (List.mem_of_mem_filter inside)
    exact ⟨isNumber_of_number? denotes, member, position, denotes⟩
  · intro twin inside n listed
    exact holds.fresh twin (List.mem_of_mem_filter inside) _ (List.mem_of_mem_filter listed)
  · intro s n listed plain whole
    have member : .text s ∈ items.filterMap ofValue? := List.mem_filterMap.mpr ⟨_, listed, rfl⟩
    rcases int_mem_of_number? holds member (number?_text plain whole) with found | ⟨x, equal, -⟩
    · rw [safeScalars_eq, ← List.filter_append]
      exact List.mem_filter.mpr ⟨found, isSafe_int n⟩
    · exact absurd (float_mem_scalars_iff.mp equal) (noFloat x)
  · obtain ⟨others, same, walkedToo⟩ :=
      foldlM_addTwin_filter (any_sameNumber_filter · (items.filterMap ofValue?)) walked
    obtain rfl := List.append_cancel_left same
    rw [ofListed_eq_sanitize rfl, filterMap_ofValue?_filter, sanitize, walkedToo, safeScalars_eq,
      List.filter_comm _ isSafe, ← List.filter_append]
    rfl

def mixedItems : List Value :=
  [.text " 3 ", .bool true, .text "1", .null, .list [.int 7], .text "2.0", .int 2, .text "a b"]

theorem safeScalars_append_of_mixedItems :
    ∃ twins, ofListed (.list mixedItems) =
      .ok (some ([.bool true, .text "1", .text "null", .int 2] ++ twins)) ∧
        .int 3 ∈ twins ∧ .int 1 ∈ twins := by
  have parts : safeScalars mixedItems = [.bool true, .text "1", .text "null", .int 2] := by decide
  have inRange : ∀ n, .int n ∈ mixedItems → n.natAbs < overflowThreshold := by
    intro n listed
    obtain rfl : n = 2 := by simpa [mixedItems] using listed
    exact Nat.lt_of_lt_of_le (by decide) le_overflowThreshold
  obtain ⟨twins, returned, -, -, -, complete, -⟩ :=
    @ofListed_eq_safeScalars_append (.list mixedItems) mixedItems rfl (by simp [mixedItems]) inRange
  rw [parts] at returned complete
  have three := complete " 3 " 3 (by simp [mixedItems]) (by decide) (by decide +kernel)
  have one := complete "1" 1 (by simp [mixedItems]) (by decide) (by decide +kernel)
  exact ⟨twins, returned, by simpa using three, by simpa using one⟩

end EnumMember
end ApiCatalog
