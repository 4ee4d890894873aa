import ApiCatalog.Proofs.Extract.SafeEnum

/-!
Enumerations of whole numbers, given as numbers or written in digits. Each number passes through a
double on its way to a twin: it overflows beyond the range, and one of more than fifty-three
significant binary digits brings its neighbour along.
-/

namespace ApiCatalog

open Number

inductive Value.Denotes : Value → Int → Prop
  | int (n : Int) : Denotes (.int n) n
  | text {s : String} {n : Int} (writes : Writes s.toList n) : Denotes (.text s) n

namespace EnumMember

theorem number?_int {n : Int} (inRange : n.natAbs < overflowThreshold) :
    (EnumMember.int n).number? = .ok (some (.int (nearestWhole n))) := by
  obtain ⟨x, near, whole⟩ := Double.exists_ofInt? inRange
  rw [number?, near, Option.elim_some, ofDouble?_eq_some_iff.mpr (.inl ⟨_, whole, rfl⟩)]

theorem not_low_line_of_writes {text : List Char} {n : Int} (writes : Writes text n) :
    '_' ∉ text := by
  cases writes with
  | plain nonempty digit => exact fun member => absurd (digit _ member) (by decide)
  | minus nonempty digit =>
    rw [List.mem_cons, not_or]
    exact ⟨by decide, fun member => absurd (digit _ member) (by decide)⟩

theorem number?_of_writes {s : String} {n : Int} (writes : Writes s.toList n) :
    (EnumMember.text s).number? =
      .ok (if n.natAbs < overflowThreshold then some (.int (nearestWhole n)) else none) := by
  obtain ⟨x, read, within, beyond⟩ := of_writes writes
  rw [number?, if_neg (by simpa using not_low_line_of_writes writes), read, Option.bind_some]
  by_cases inRange : n.natAbs < overflowThreshold
  · rw [if_pos inRange, ofDouble?_eq_some_iff.mpr (.inl ⟨_, within inRange, rfl⟩)]
  · obtain ⟨noWhole, infinite⟩ := beyond (Nat.le_of_not_lt inRange)
    rw [if_neg inRange, ofDouble?, noWhole, infinite]
    rfl

theorem number?_of_denotes {item : Value} {n : Int} (denotes : item.Denotes n)
    {member number : EnumMember} (given : ofValue? item = some member) :
    member.number? = .ok (some number) ↔
      n.natAbs < overflowThreshold ∧ number = .int (nearestWhole n) := by
  cases denotes with
  | int =>
    obtain rfl := Option.some.inj given
    by_cases inRange : n.natAbs < overflowThreshold
    · simp [number?_int inRange, inRange, eq_comm]
    · have beyond : (EnumMember.int n).IsBeyond := ⟨n, rfl, Nat.le_of_not_lt inRange⟩
      simp [number?_of_isBeyond beyond, inRange]
  | text writes =>
    obtain rfl := Option.some.inj given
    rw [number?_of_writes writes]
    by_cases inRange : n.natAbs < overflowThreshold <;> simp [inRange, eq_comm]

theorem isSafe_of_denotes {item : Value} {n : Int} (denotes : item.Denotes n)
    {member : EnumMember} (given : ofValue? item = some member) : member.isSafe = true := by
  cases denotes with
  | int =>
    obtain rfl := Option.some.inj given
    exact isSafe_int n
  | text writes =>
    obtain rfl := Option.some.inj given
    exact (isSafe_iff _).mpr (isIdentifierSafe_of_writes writes)

section Whole

variable {items : List Value} (whole : ∀ item ∈ items, ∃ n, item.Denotes n)

include whole

theorem filter_isSafe_of_whole :
    (items.filterMap ofValue?).filter isSafe = items.filterMap ofValue? := by
  rw [List.filter_eq_self]
  intro member inside
  obtain ⟨item, listed, given⟩ := List.mem_filterMap.mp inside
  obtain ⟨n, denotes⟩ := whole item listed
  exact isSafe_of_denotes denotes given

theorem float_not_mem_of_whole (x : Double) : .float x ∉ items := by
  intro listed
  obtain ⟨n, denotes⟩ := whole _ listed
  cases denotes

theorem exists_denotes_of_number? {member number : EnumMember}
    (inside : member ∈ items.filterMap ofValue?) (denotes : member.number? = .ok (some number)) :
    ∃ item ∈ items, ∃ n, item.Denotes n ∧ n.natAbs < overflowThreshold ∧
      number = .int (nearestWhole n) := by
  obtain ⟨item, listed, given⟩ := List.mem_filterMap.mp inside
  obtain ⟨n, writes⟩ := whole item listed
  exact ⟨item, listed, n, writes, (number?_of_denotes writes given).mp denotes⟩

theorem twin_isSafe_of_whole {twins : List EnumMember}
    (holds : Twins (items.filterMap ofValue?) (items.filterMap ofValue?) twins) :
    twins.filter isSafe = twins := by
  rw [List.filter_eq_self]
  intro twin inside
  obtain ⟨member, position, denotes⟩ := holds.denoted twin inside
  obtain ⟨-, -, n, -, -, rfl⟩ := exists_denotes_of_number? whole position denotes
  exact isSafe_int _

theorem of_sanitize_whole {safe : List EnumMember}
    (returned : sanitize (items.filterMap ofValue?) = .ok safe) :
    ∃ twins, safe = items.filterMap ofValue? ++ twins ∧
      Twins (items.filterMap ofValue?) (items.filterMap ofValue?) twins := by
  obtain ⟨twins, -, holds, rfl⟩ := of_sanitize returned
  refine ⟨twins, ?_, holds⟩
  rw [filter_isSafe_of_whole whole, twin_isSafe_of_whole whole holds]

theorem int_mem_iff_of_sanitize {safe : List EnumMember}
    (returned : sanitize (items.filterMap ofValue?) = .ok safe) (n : Int) :
    .int n ∈ safe ↔ .int n ∈ items ∨
      ∃ item ∈ items, ∃ m, item.Denotes m ∧ m.natAbs < overflowThreshold ∧ nearestWhole m = n := by
  obtain ⟨twins, rfl, holds⟩ := of_sanitize_whole whole returned
  constructor
  · intro inside
    rcases List.mem_append.mp inside with listed | twin
    · exact .inl (int_mem_scalars_iff.mp listed)
    · obtain ⟨member, position, denotes⟩ := holds.denoted _ twin
      obtain ⟨item, listed, m, writes, inRange, same⟩ :=
        exists_denotes_of_number? whole position denotes
      exact .inr ⟨item, listed, m, writes, inRange, (EnumMember.int.inj same).symm⟩
  · rintro (listed | ⟨item, listed, m, writes, inRange, rfl⟩)
    · exact List.mem_append_left _ (int_mem_scalars_iff.mpr listed)
    · obtain ⟨member, given⟩ : ∃ member, ofValue? item = some member := by
        cases writes <;> exact ⟨_, rfl⟩
      have denotes := (number?_of_denotes writes given).mpr ⟨inRange, rfl⟩
      have inside := List.mem_filterMap.mpr ⟨item, listed, given⟩
      rcases int_mem_of_number? holds inside denotes with found | ⟨x, equal, -⟩
      · exact found
      · exact absurd (float_mem_scalars_iff.mp equal) (float_not_mem_of_whole whole x)

theorem ofListed_int_of_whole {ns : List Int} (numbers : items = ns.map Value.int) :
    sanitize (items.filterMap ofValue?) = .ok (ns.map EnumMember.int) ↔
      ∀ n ∈ ns, n.natAbs < overflowThreshold ∧ nearestWhole n ∈ ns := by
  have scalars : items.filterMap ofValue? = ns.map EnumMember.int := by
    rw [numbers, List.filterMap_map]
    exact congrFun (@List.filterMap_eq_map _ _ EnumMember.int) ns
  have listed (n : Int) : .int n ∈ ns.map EnumMember.int ↔ n ∈ ns := by simp
  constructor
  · intro returned n inside
    have position : .int n ∈ items := by simpa [numbers] using inside
    have inRange : n.natAbs < overflowThreshold := by
      by_contra beyond
      have overflows := sanitize_of_isBeyond
        ⟨_, int_mem_scalars_iff.mpr position, n, rfl, Nat.le_of_not_lt beyond⟩
      cases overflows.symm.trans returned
    refine ⟨inRange, ?_⟩
    rw [← listed, int_mem_iff_of_sanitize whole returned]
    exact .inr ⟨_, position, n, .int n, inRange, rfl⟩
  · intro closed
    have bounded (n : Int) (inside : .int n ∈ items) : n.natAbs < overflowThreshold :=
      (closed n (by simpa [numbers] using inside)).1
    obtain ⟨safe, returned⟩ := exists_sanitize_of_range bounded
    obtain ⟨twins, rfl, holds⟩ := of_sanitize_whole whole returned
    -- A twin would be the neighbour of a listed number, which is listed as well.
    have none : twins = [] := by
      rw [List.eq_nil_iff_forall_not_mem]
      intro twin inside
      obtain ⟨member, position, denotes⟩ := holds.denoted twin inside
      rw [scalars] at position
      obtain ⟨n, known, rfl⟩ := List.mem_map.mp position
      obtain ⟨inRange, neighbour⟩ := closed n known
      obtain rfl := Option.some.inj (Except.ok.inj (denotes.symm.trans (number?_int inRange)))
      have apart := holds.fresh _ inside _ (scalars ▸ (listed _).mpr neighbour)
      cases apart.symm.trans (beq_self_eq_true (nearestWhole n))
    rw [returned, none, List.append_nil, scalars]

end Whole

/-- An enumeration of whole numbers: when it returns, and which numbers stand in the result. -/
theorem ofListed_of_whole {listed : Value} {items : List Value}
    (isList : listed.opened = .list items) (whole : ∀ item ∈ items, ∃ n, item.Denotes n) :
    ((∀ n, .int n ∈ items → n.natAbs < overflowThreshold) →
      ∃ safe, ofListed listed = .ok (some safe)) ∧
    ((∃ n, .int n ∈ items ∧ overflowThreshold ≤ n.natAbs) →
      ofListed listed = .error .overflow) ∧
    (∀ safe, ofListed listed = .ok (some safe) →
      (∀ x, .float x ∉ safe) ∧
      (∀ n, .int n ∈ safe ↔ .int n ∈ items ∨
        ∃ item ∈ items, ∃ m, item.Denotes m ∧ m.natAbs < overflowThreshold ∧
          nearestWhole m = n) ∧
      ((∀ item ∈ items, ∀ n, item.Denotes n → ∃ x : Double, x.toInt? = some n) →
        ∀ n, .int n ∈ safe ↔ ∃ item ∈ items, item.Denotes n)) ∧
    (∀ ns : List Int, items = ns.map Value.int →
      (ofListed listed = .ok (some (ns.map EnumMember.int)) ↔
        ∀ n ∈ ns, n.natAbs < overflowThreshold ∧ nearestWhole n ∈ ns)) := by
  have walked := Value.members_of_opened isList
  have returns (safe : List EnumMember) : ofListed listed = .ok (some safe) ↔
      sanitize (items.filterMap ofValue?) = .ok safe := by
    rw [ofListed_eq_sanitize walked, Outcome.map_eq_ok_iff]
    simp
  refine ⟨fun inRange => ?_, fun beyond => ?_, fun safe returned => ?_, fun ns numbers => ?_⟩
  · obtain ⟨safe, sanitized⟩ := exists_sanitize_of_range inRange
    exact ⟨safe, (returns safe).mpr sanitized⟩
  · rw [ofListed_eq_sanitize walked, sanitize_of_isBeyond (exists_isBeyond_iff.mpr beyond)]
    rfl
  · rw [returns] at returned
    have numbers := int_mem_iff_of_sanitize whole returned
    refine ⟨fun x inside => ?_, numbers, fun exact n => ?_⟩
    · obtain ⟨twins, rfl, holds⟩ := of_sanitize_whole whole returned
      rcases List.mem_append.mp inside with known | twin
      · exact float_not_mem_of_whole whole x (float_mem_scalars_iff.mp known)
      · obtain ⟨member, position, denotes⟩ := holds.denoted _ twin
        obtain ⟨-, -, n, -, -, same⟩ := exists_denotes_of_number? whole position denotes
        cases same
    · rw [numbers]
      constructor
      · rintro (known | ⟨item, position, m, denotes, -, rfl⟩)
        · exact ⟨_, known, .int n⟩
        · obtain ⟨x, held⟩ := exact item position m denotes
          exact ⟨item, position, (Double.of_toInt? held).2.symm ▸ denotes⟩
      · rintro ⟨item, position, denotes⟩
        obtain ⟨x, held⟩ := exact item position n denotes
        obtain ⟨inRange, same⟩ := Double.of_toInt? held
        exact .inr ⟨item, position, n, denotes, inRange, same⟩
  · rw [returns]
    exact ofListed_int_of_whole whole numbers

theorem neighbour_mem_of_long_number :
    ∃ safe, ofListed (.list [.int 9007199254740993]) = .ok (some safe) ∧
      .int 9007199254740992 ∈ safe ∧
        ofListed (.list [.int 9007199254740993]) ≠ .ok (some [.int 9007199254740993]) := by
  have whole : ∀ item ∈ [Value.int 9007199254740993], ∃ n, item.Denotes n := by
    intro item inside
    obtain rfl := List.mem_singleton.mp inside
    exact ⟨_, .int _⟩
  have inRange : Int.natAbs 9007199254740993 < overflowThreshold :=
    Nat.lt_of_lt_of_le (by decide) two_pow_sub_one_le_overflowThreshold
  have neighbour : nearestWhole 9007199254740993 = 9007199254740992 := by decide
  obtain ⟨returns, -, results, unchanged⟩ :=
    @ofListed_of_whole (.list [.int 9007199254740993]) _ rfl whole
  obtain ⟨safe, returned⟩ := returns fun n inside => by
    obtain rfl : n = 9007199254740993 := by simpa using inside
    exact inRange
  refine ⟨safe, returned, ?_, ?_⟩
  · rw [(results safe returned).2.1]
    exact .inr ⟨_, List.mem_singleton_self _, _, .int _, inRange, neighbour⟩
  · intro kept
    have closed := (unchanged [9007199254740993] rfl).mp kept _ (List.mem_singleton_self _)
    rw [neighbour] at closed
    exact absurd closed.2 (by decide)

end EnumMember
end ApiCatalog
