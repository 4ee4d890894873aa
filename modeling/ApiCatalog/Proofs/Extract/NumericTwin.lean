import ApiCatalog.Proofs.Extract.EnumRange
import ApiCatalog.Proofs.Extract.SchemaType
import ApiCatalog.Proofs.Number.WholeLiteral

/-!
Numeric twins of the members of an enumeration. They go behind the members, no two of them are
equal, none equals a number that was listed, and no number that a member denotes is missing.
-/

namespace ApiCatalog

def Value.isBool : Value → Bool
  | .bool _ => true
  | _ => false

namespace EnumMember

open Number

/-- A number in its only form: whole if it can be, and finite. -/
def IsNumber : EnumMember → Prop
  | .int _ => True
  | .float x => x.isFinite = true ∧ x.toInt? = none
  | _ => False

def isBool : EnumMember → Bool
  | .bool _ => true
  | _ => false

theorem ofDouble?_eq_some_iff {x : Double} {number : EnumMember} :
    ofDouble? x = some number ↔
      (∃ n, x.toInt? = some n ∧ number = .int n) ∨
        (x.toInt? = none ∧ x.isFinite = true ∧ number = .float x) := by
  unfold ofDouble?
  cases whole : x.toInt? with
  | some n =>
    simp only [Option.some.injEq, exists_eq_left', reduceCtorEq, false_and, or_false]
    exact eq_comm
  | none =>
    simp only [reduceCtorEq, false_and, exists_false, true_and, false_or]
    by_cases finite : x.isFinite = true
    · rw [if_pos finite, Option.some.injEq, eq_comm, and_iff_right finite]
    · rw [if_neg finite]
      exact iff_of_false (by simp) fun found => finite found.1

theorem exists_ofDouble? {member number : EnumMember}
    (denotes : member.number? = .ok (some number)) : ∃ x, ofDouble? x = some number := by
  cases member with
  | bool b => cases denotes
  | float x => exact ⟨x, Except.ok.inj denotes⟩
  | int n =>
    rw [number?] at denotes
    cases near : Double.ofInt? n with
    | none => rw [near, Option.elim_none] at denotes; cases denotes
    | some x =>
      rw [near, Option.elim_some] at denotes
      exact ⟨x, Except.ok.inj denotes⟩
  | text s =>
    rw [number?] at denotes
    split at denotes
    · cases denotes
    · obtain ⟨x, -, found⟩ := Option.bind_eq_some_iff.mp (Except.ok.inj denotes)
      exact ⟨x, found⟩

theorem isNumber_of_number? {member number : EnumMember}
    (denotes : member.number? = .ok (some number)) : number.IsNumber := by
  obtain ⟨x, found⟩ := exists_ofDouble? denotes
  rcases ofDouble?_eq_some_iff.mp found with ⟨n, -, rfl⟩ | ⟨broken, finite, rfl⟩
  · trivial
  · exact ⟨finite, broken⟩

theorem number?_of_number? {member number : EnumMember}
    (denotes : member.number? = .ok (some number)) : number.number? = .ok (some number) := by
  obtain ⟨x, found⟩ := exists_ofDouble? denotes
  rcases ofDouble?_eq_some_iff.mp found with ⟨n, whole, rfl⟩ | ⟨-, -, rfl⟩
  · obtain ⟨inRange, same⟩ := Double.of_toInt? whole
    obtain ⟨y, near, back⟩ := Double.exists_ofInt? inRange
    rw [number?, near, Option.elim_some, ofDouble?_eq_some_iff.mpr (.inl ⟨n, same ▸ back, rfl⟩)]
  · exact congrArg Except.ok found

theorem sameDouble_comm (x y : Double) : x.sameNumber y = y.sameNumber x := by
  cases x <;> cases y <;> try rfl
  · exact Bool.beq_comm
  · rename_i n a m b
    simp only [Double.sameNumber]
    by_cases same : a.quanta = b.quanta
    · rw [same, Bool.beq_comm (a := n)]
    · rw [beq_eq_false_iff_ne.mpr same, beq_eq_false_iff_ne.mpr (Ne.symm same), Bool.false_and,
        Bool.false_and]

theorem sameNumber_comm (a b : EnumMember) : sameNumber a b = sameNumber b a := by
  cases a <;> cases b <;> try rfl
  · exact Bool.beq_comm
  · exact sameDouble_comm _ _

theorem sameNumber_self {number : EnumMember} (counts : number.IsNumber) :
    sameNumber number number = true := by
  cases number with
  | int n => exact beq_self_eq_true n
  | float x =>
    obtain ⟨finite, -⟩ := counts
    cases x with
    | finite negative magnitude => simp [sameNumber, Double.sameNumber]
    | _ => cases finite
  | _ => exact counts.elim

theorem eq_of_sameDouble {x y : Double} (broken : x.toInt? = none)
    (same : x.sameNumber y = true) (finite : x.isFinite = true) : x = y := by
  cases x with
  | nan => cases finite
  | infinite n => cases finite
  | finite n a =>
    cases y with
    | nan => cases same
    | infinite m => cases same
    | finite m b =>
      simp only [Double.sameNumber, Bool.and_eq_true, beq_iff_eq, Bool.or_eq_true] at same
      obtain ⟨quanta, rfl | zero⟩ := same
      · obtain ⟨qa, fa, ra⟩ := a
        obtain ⟨qb, fb, rb⟩ := b
        obtain rfl : qa = qb := quanta
        rfl
      · have whole : (Double.finite n a).toInt? = some 0 :=
          Double.toInt?_finite_iff.mpr ⟨0, by simpa using zero, by simp⟩
        cases broken.symm.trans whole

/-- What the numbers behind a row are, of which `known` stands before them. -/
structure Twins (members known twins : List EnumMember) : Prop where
  denoted : ∀ twin ∈ twins, ∃ member ∈ members, member.number? = .ok (some twin)
  distinct : twins.Pairwise fun a b => sameNumber a b = false
  fresh : ∀ twin ∈ twins, ∀ member ∈ known, sameNumber twin member = false
  complete : ∀ member ∈ members, ∀ number, member.number? = .ok (some number) →
    ∃ found ∈ known ++ twins, sameNumber number found = true

theorem addTwin_cases {known more : List EnumMember} {member : EnumMember}
    (added : addTwin known member = .ok more) :
    (member.number? = .ok none ∧ more = known) ∨
      ∃ number, member.number? = .ok (some number) ∧
        more = if known.any (sameNumber number) then known else known ++ [number] := by
  obtain ⟨found, denotes, rest⟩ := Outcome.bind_eq_ok_iff.mp added
  cases found with
  | none => exact .inl ⟨denotes, (Outcome.pure_eq_ok_iff.mp rest).symm⟩
  | some number => exact .inr ⟨number, denotes, (Outcome.pure_eq_ok_iff.mp rest).symm⟩

theorem exists_twins_of_addTwin {known more : List EnumMember} {member : EnumMember}
    (added : addTwin known member = .ok more) :
    ∃ twins, more = known ++ twins ∧ Twins [member] known twins := by
  rcases addTwin_cases added with ⟨nothing, rfl⟩ | ⟨number, denotes, rfl⟩
  · refine ⟨[], (List.append_nil _).symm, by simp, .nil, by simp, ?_⟩
    intro other inside number denotes
    obtain rfl := List.mem_singleton.mp inside
    cases nothing.symm.trans denotes
  · split
    · rename_i there
      refine ⟨[], (List.append_nil _).symm, by simp, .nil, by simp, ?_⟩
      intro other inside other' denotes'
      obtain rfl := List.mem_singleton.mp inside
      obtain rfl := Option.some.inj (Except.ok.inj (denotes.symm.trans denotes'))
      obtain ⟨found, position, same⟩ := List.any_eq_true.mp there
      exact ⟨found, List.mem_append_left _ position, same⟩
    · rename_i absent
      refine ⟨[number], rfl, by simpa using denotes, List.pairwise_singleton _ _, ?_, ?_⟩
      · intro twin inside other position
        obtain rfl := List.mem_singleton.mp inside
        by_contra same
        exact absent (List.any_eq_true.mpr ⟨other, position, Bool.eq_true_of_not_eq_false same⟩)
      · intro other inside other' denotes'
        obtain rfl := List.mem_singleton.mp inside
        obtain rfl := Option.some.inj (Except.ok.inj (denotes.symm.trans denotes'))
        exact ⟨number, by simp, sameNumber_self (isNumber_of_number? denotes)⟩

theorem Twins.append {front back known first second : List EnumMember}
    (before : Twins front known first) (behind : Twins back (known ++ first) second) :
    Twins (front ++ back) known (first ++ second) := by
  constructor
  · intro twin inside
    rcases List.mem_append.mp inside with here | there
    · obtain ⟨member, position, denotes⟩ := before.denoted twin here
      exact ⟨member, List.mem_append_left _ position, denotes⟩
    · obtain ⟨member, position, denotes⟩ := behind.denoted twin there
      exact ⟨member, List.mem_append_right _ position, denotes⟩
  · refine List.pairwise_append.mpr ⟨before.distinct, behind.distinct, ?_⟩
    intro a inFirst b inSecond
    rw [sameNumber_comm]
    exact behind.fresh b inSecond a (List.mem_append_right _ inFirst)
  · intro twin inside member position
    rcases List.mem_append.mp inside with here | there
    · exact before.fresh twin here member position
    · exact behind.fresh twin there member (List.mem_append_left _ position)
  · intro member position number denotes
    rw [← List.append_assoc]
    rcases List.mem_append.mp position with here | there
    · obtain ⟨found, inside, same⟩ := before.complete member here number denotes
      exact ⟨found, List.mem_append_left _ inside, same⟩
    · exact behind.complete member there number denotes

theorem exists_twins_of_foldlM {members known combined : List EnumMember}
    (walked : members.foldlM addTwin known = .ok combined) :
    ∃ twins, combined = known ++ twins ∧ Twins members known twins := by
  induction members generalizing known with
  | nil =>
    obtain rfl := Outcome.pure_eq_ok_iff.mp walked
    exact ⟨[], (List.append_nil _).symm, by simp, .nil, by simp, by simp⟩
  | cons member rest ih =>
    rw [List.foldlM_cons] at walked
    obtain ⟨more, added, later⟩ := Outcome.bind_eq_ok_iff.mp walked
    obtain ⟨first, rfl, before⟩ := exists_twins_of_addTwin added
    obtain ⟨second, rfl, behind⟩ := ih later
    exact ⟨first ++ second, List.append_assoc _ _ _, before.append behind⟩

theorem any_sameNumber_filter (number : EnumMember) (known : List EnumMember) :
    (known.filter fun member => !member.isBool).any (sameNumber number) =
      known.any (sameNumber number) := by
  rw [List.any_filter]
  congr 1
  funext member
  cases member with
  | bool b => cases number <;> rfl
  | _ => rfl

theorem addTwin_congr {known other more : List EnumMember} {member : EnumMember}
    (alike : ∀ number, other.any (sameNumber number) = known.any (sameNumber number))
    (added : addTwin known member = .ok more) :
    ∃ twins, more = known ++ twins ∧ addTwin other member = .ok (other ++ twins) := by
  rcases addTwin_cases added with ⟨nothing, rfl⟩ | ⟨number, denotes, rfl⟩
  · refine ⟨[], (List.append_nil _).symm, ?_⟩
    rw [List.append_nil]
    exact Outcome.bind_eq_ok_iff.mpr ⟨none, nothing, rfl⟩
  · have step : addTwin other member =
        .ok (if other.any (sameNumber number) then other else other ++ [number]) :=
      Outcome.bind_eq_ok_iff.mpr ⟨some number, denotes, rfl⟩
    rw [step, alike]
    split
    · exact ⟨[], (List.append_nil _).symm, by rw [List.append_nil]⟩
    · exact ⟨[number], rfl, rfl⟩

theorem foldlM_addTwin_filter {members known other combined : List EnumMember}
    (alike : ∀ number, other.any (sameNumber number) = known.any (sameNumber number))
    (walked : members.foldlM addTwin known = .ok combined) :
    ∃ twins, combined = known ++ twins ∧
      (members.filter fun member => !member.isBool).foldlM addTwin other = .ok (other ++ twins) := by
  induction members generalizing known other with
  | nil =>
    obtain rfl := Outcome.pure_eq_ok_iff.mp walked
    exact ⟨[], (List.append_nil _).symm, congrArg Except.ok (List.append_nil _).symm⟩
  | cons member rest ih =>
    rw [List.foldlM_cons] at walked
    obtain ⟨more, added, later⟩ := Outcome.bind_eq_ok_iff.mp walked
    by_cases truth : member.isBool = true
    · have nothing : member.number? = .ok none := by
        cases member with
        | bool b => rfl
        | _ => cases truth
      obtain rfl : known = more := by
        rw [addTwin, nothing] at added
        exact Except.ok.inj added
      rw [List.filter_cons_of_neg (by simp [truth])]
      exact ih alike later
    · obtain ⟨first, rfl, addedToo⟩ := addTwin_congr alike added
      have alikeToo : ∀ number, (other ++ first).any (sameNumber number) =
          (known ++ first).any (sameNumber number) := by
        intro number
        rw [List.any_append, List.any_append, alike]
      obtain ⟨second, rfl, laterToo⟩ := ih alikeToo later
      refine ⟨first ++ second, List.append_assoc _ _ _, ?_⟩
      rw [List.filter_cons_of_pos (by simpa using truth), List.foldlM_cons, addedToo,
        ← List.append_assoc]
      exact laterToo

instance (label : List Char) : Decidable (IsIdentifierSafe label) :=
  @instDecidableAnd _ _ inferInstance (List.decidableBAll _ label)

theorem isSafe_iff (member : EnumMember) :
    member.isSafe = true ↔ IsIdentifierSafe member.label := by
  constructor
  · exact isIdentifierSafe
  · rintro ⟨filled, each⟩
    simp only [isSafe, Bool.and_eq_true, Bool.not_eq_true', List.isEmpty_eq_false_iff,
      List.all_eq_true]
    refine ⟨filled, fun c inside => ?_⟩
    simp only [isLabelChar, Bool.or_eq_true, Bool.and_eq_true, decide_eq_true_eq, beq_iff_eq]
    rcases each c inside with small | capital | digit | low | dash | dollar
    · exact .inl (.inl (.inl (.inl (.inr small))))
    · exact .inl (.inl (.inl (.inr capital)))
    · exact .inl (.inl (.inl (.inl (.inl digit))))
    · exact .inl (.inl (.inr low))
    · exact .inl (.inr dash)
    · exact .inr dollar

theorem isIdentifierSafe_of_writes {text : List Char} {n : Int} (writes : Writes text n) :
    IsIdentifierSafe text := by
  have between : ∀ c : Char, c.isDigit = true → '0' ≤ c ∧ c ≤ '9' := by
    intro c digit
    simpa [Char.isDigit, Char.le_def] using digit
  cases writes with
  | plain nonempty digit =>
    exact ⟨nonempty, fun c member => .inr (.inr (.inl (between c (digit c member))))⟩
  | minus nonempty digit =>
    refine ⟨List.cons_ne_nil _ _, List.forall_mem_cons.mpr ⟨by decide, fun c member => ?_⟩⟩
    exact .inr (.inr (.inl (between c (digit c member))))

theorem isSafe_int (n : Int) : (EnumMember.int n).isSafe = true :=
  (isSafe_iff _).mpr (isIdentifierSafe_of_writes (writes_integerText n))

theorem of_sanitize {members safe : List EnumMember} (returned : sanitize members = .ok safe) :
    ∃ twins, members.foldlM addTwin members = .ok (members ++ twins) ∧
      Twins members members twins ∧ safe = members.filter isSafe ++ twins.filter isSafe := by
  obtain ⟨combined, walked, kept⟩ := Outcome.bind_eq_ok_iff.mp returned
  obtain ⟨twins, rfl, holds⟩ := exists_twins_of_foldlM walked
  refine ⟨twins, walked, holds, ?_⟩
  rw [← List.filter_append]
  exact (Outcome.pure_eq_ok_iff.mp kept).symm

theorem int_mem_of_number? {members twins : List EnumMember} (holds : Twins members members twins)
    {member : EnumMember} (inside : member ∈ members) {n : Int}
    (denotes : member.number? = .ok (some (.int n))) :
    .int n ∈ members ++ twins ∨ ∃ x, .float x ∈ members ∧ x.toInt? = some n := by
  obtain ⟨found, position, same⟩ := holds.complete member inside _ denotes
  cases found with
  | int m =>
    obtain rfl : n = m := beq_iff_eq.mp same
    exact .inl position
  | float x =>
    have whole : x.toInt? = some n := beq_iff_eq.mp same
    rcases List.mem_append.mp position with listed | twin
    · exact .inr ⟨x, listed, whole⟩
    · obtain ⟨other, -, denotesToo⟩ := holds.denoted _ twin
      cases (isNumber_of_number? denotesToo).2.symm.trans whole
  | _ => cases same

theorem filterMap_ofValue?_filter (items : List Value) :
    (items.filter fun item => !item.isBool).filterMap ofValue? =
      (items.filterMap ofValue?).filter fun member => !member.isBool := by
  rw [List.filterMap_filter, List.filter_filterMap]
  congr 1
  funext item
  cases item <;> rfl

end EnumMember
end ApiCatalog
