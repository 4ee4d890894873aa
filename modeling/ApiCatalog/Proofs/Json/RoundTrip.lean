import ApiCatalog.Proofs.Json.NumberText
import ApiCatalog.Proofs.Json.StringText

/-!
Reading undoes writing. Every tree whose numbers have a notation and whose names are distinct is
read back from its text, compact or indented, in ASCII or not.
-/

namespace ApiCatalog

section Entries

variable {κ α : Type} {same : κ → κ → Bool}

theorem putEntry_of_absent {key : κ} {entries : List (κ × α)}
    (absent : ∀ entry ∈ entries, same entry.1 key = false) (value : α) :
    putEntry same key value entries = entries ++ [(key, value)] := by
  induction entries with
  | nil => rfl
  | cons entry entries inner =>
    have other := absent entry List.mem_cons_self
    simp [putEntry, other, inner fun e member => absent e (List.mem_cons_of_mem _ member)]

theorem collectEntries_of_distinct {entries : List (κ × α)}
    (distinct : entries.Pairwise fun a b => same a.1 b.1 = false) :
    collectEntries same entries = entries := by
  have kept : ∀ before, (∀ a ∈ before, ∀ b ∈ entries, same a.1 b.1 = false) →
      entries.foldl (fun kept entry => putEntry same entry.1 entry.2 kept) before =
        before ++ entries := by
    induction entries with
    | nil => simp
    | cons entry entries inner =>
      intro before apart
      obtain ⟨first, others⟩ := List.pairwise_cons.mp distinct
      have absent := putEntry_of_absent
        (fun a member => apart a member entry List.mem_cons_self) entry.2
      rw [List.foldl_cons, absent, inner others]
      · simp
      · intro a member b behind
        rcases List.mem_append.mp member with front | last
        · exact apart a front b (List.mem_cons_of_mem _ behind)
        · rw [List.mem_singleton.mp last]
          exact first b behind
  simpa [collectEntries] using kept [] (by simp)

end Entries

namespace Json

/-- Trees that a text can hold: whole numbers keep to the limit of digits, doubles are finite, and
the names of an object are distinct. -/
inductive Writable : Json → Prop
  | null : Writable .null
  | bool (b : Bool) : Writable (.bool b)
  | int {n : Int} (short : Number.withinDigitLimit n = true) : Writable (.int n)
  | float {x : Number.Double} (finite : x.isFinite = true) : Writable (.float x)
  | string (s : String) : Writable (.string s)
  | list {items : List Json} (each : ∀ item ∈ items, Writable item) : Writable (.list items)
  | object {members : List (String × Json)}
      (distinct : members.Pairwise fun a b => (a.1 == b.1) = false)
      (each : ∀ member ∈ members, Writable member.2) : Writable (.object members)

theorem skipSpace_append {blank : List Char} (space : ∀ c ∈ blank, isSpace c = true)
    (text : List Char) : skipSpace (blank ++ text) = skipSpace text :=
  List.dropWhile_append_of_pos space

theorem skipSpace_cons {c : Char} (solid : isSpace c = false) (text : List Char) :
    skipSpace (c :: text) = c :: text := by
  simp [skipSpace, solid]

theorem isSpace_of_mem_lineBreak (style : Style) (depth : Nat) :
    ∀ c ∈ style.lineBreak depth, isSpace c = true := by
  intro c member
  unfold Style.lineBreak at member
  split at member
  · cases member
  · rcases List.mem_cons.mp member with rfl | space
    · rfl
    · rw [List.eq_of_mem_replicate space]
      rfl

theorem endsNumber_lineBreak (style : Style) (depth : Nat) {c : Char} {more : List Char}
    (other : c.isDigit = false ∧ c ≠ '.' ∧ c ≠ 'e' ∧ c ≠ 'E') :
    EndsNumber (style.lineBreak depth ++ c :: more) := by
  unfold Style.lineBreak
  split
  · exact endsNumber_cons other
  · exact endsNumber_cons (by decide)

def BeginsValue (text : List Char) : Prop :=
  ∃ c more, text = c :: more ∧ isSpace c = false ∧ c ≠ ']' ∧ c ≠ '\uFEFF'

theorem beginsValue_of_startsNumber {text : List Char} (starts : StartsNumber text) :
    BeginsValue text := by
  obtain ⟨negative, first, more, rfl, digit⟩ := starts
  cases negative with
  | true => exact ⟨'-', _, rfl, by decide⟩
  | false =>
    refine ⟨first, more, rfl, ?_, ?_, ?_⟩
    · by_contra space
      simp only [isSpace, Bool.not_eq_false, Bool.or_eq_true, beq_iff_eq] at space
      rcases space with ((rfl | rfl) | rfl) | rfl <;> exact absurd digit (by decide)
    · rintro rfl
      exact absurd digit (by decide)
    · rintro rfl
      exact absurd digit (by decide)

theorem beginsValue_write (style : Style) (depth : Nat) (value : Json) :
    BeginsValue (write style depth value) := by
  match value with
  | .null => exact ⟨_, _, rfl, by decide⟩
  | .bool true => exact ⟨_, _, rfl, by decide⟩
  | .bool false => exact ⟨_, _, rfl, by decide⟩
  | .int n =>
    have starts := startsNumber_integerText n []
    rw [List.append_nil] at starts
    exact beginsValue_of_startsNumber starts
  | .float .nan => exact ⟨_, _, rfl, by decide⟩
  | .float (.infinite _) => exact ⟨_, _, rfl, by decide⟩
  | .float (.finite negative magnitude) =>
    have starts := startsNumber_floatText negative magnitude []
    rw [List.append_nil] at starts
    exact beginsValue_of_startsNumber starts
  | .string s => exact ⟨_, _, rfl, by decide⟩
  | .list [] => exact ⟨_, _, rfl, by decide⟩
  | .list (item :: items) => exact ⟨_, _, rfl, by decide⟩
  | .object [] => exact ⟨_, _, rfl, by decide⟩
  | .object (member :: members) => exact ⟨_, _, rfl, by decide⟩

theorem skipSpace_write {blank : List Char} (space : ∀ c ∈ blank, isSpace c = true) (style : Style)
    (depth : Nat) (value : Json) (rest : List Char) :
    skipSpace (blank ++ (write style depth value ++ rest)) = write style depth value ++ rest := by
  obtain ⟨c, more, begins, solid, -⟩ := beginsValue_write style depth value
  rw [skipSpace_append space, begins, List.cons_append, skipSpace_cons solid]

/-- A value whose text is read back at every depth, if nothing behind it goes on with a number. The
steps suffice since two of them go one level deeper and every level opens with a bracket. -/
def ReadsBack (style : Style) (value : Json) : Prop :=
  ∀ depth fuel rest, EndsNumber rest → 2 * (write style depth value).length ≤ fuel →
    readValue fuel (write style depth value ++ rest) = .ok (value, rest)

theorem endsNumber_writeItems (style : Style) (depth outer : Nat) (items : List Json)
    (rest : List Char) :
    EndsNumber (writeItems style depth items ++ (style.lineBreak outer ++ ']' :: rest)) := by
  cases items with
  | nil => exact endsNumber_lineBreak style outer (by decide)
  | cons item items => exact endsNumber_cons (by decide)

theorem readItems_write {style : Style} {items : List Json}
    (each : ∀ item ∈ items, ReadsBack style item) {item : Json} (first : ReadsBack style item)
    (depth outer fuel : Nat) (rest : List Char)
    (enough : 2 * (write style depth item ++ writeItems style depth items).length + 1 ≤ fuel) :
    readItems fuel (write style depth item ++
      (writeItems style depth items ++ (style.lineBreak outer ++ ']' :: rest))) =
        .ok (item :: items, rest) := by
  induction items generalizing item fuel with
  | nil =>
    obtain ⟨fuel, rfl⟩ := Nat.exists_eq_succ_of_ne_zero (Nat.ne_zero_of_lt enough)
    rw [List.length_append] at enough
    have read := first depth fuel _ (endsNumber_writeItems style depth outer [] rest) (by omega)
    have close : skipSpace (style.lineBreak outer ++ ']' :: rest) = ']' :: rest :=
      skipSpace_append (isSpace_of_mem_lineBreak style outer) _
    rw [writeItems, List.nil_append] at read ⊢
    simp [readItems, read, close, Bind.bind, Except.bind, Pure.pure, Except.pure]
  | cons next items inner =>
    obtain ⟨fuel, rfl⟩ := Nat.exists_eq_succ_of_ne_zero (Nat.ne_zero_of_lt enough)
    rw [writeItems, List.length_append, List.length_cons, List.append_assoc,
      List.length_append] at enough
    have read := first depth fuel _ (endsNumber_writeItems style depth outer (next :: items) rest)
      (by omega)
    have others := inner (fun item member => each item (List.mem_cons_of_mem _ member))
      (each next List.mem_cons_self) fuel (by omega)
    have gap := skipSpace_write (isSpace_of_mem_lineBreak style depth) style depth next
      (writeItems style depth items ++ (style.lineBreak outer ++ ']' :: rest))
    simp only [writeItems, List.cons_append, List.append_assoc] at read ⊢
    have comma := fun text => @skipSpace_cons ',' rfl text
    simp [readItems, read, comma, gap, others, Bind.bind, Except.bind, Pure.pure, Except.pure]

theorem endsNumber_writeMembers (style : Style) (depth outer : Nat) (members : List (String × Json))
    (rest : List Char) :
    EndsNumber (writeMembers style depth members ++ (style.lineBreak outer ++ '\x7d' :: rest)) := by
  cases members with
  | nil => exact endsNumber_lineBreak style outer (by decide)
  | cons member members => exact endsNumber_cons (by decide)

theorem exists_colon (style : Style) :
    ∃ gap, style.colon = ':' :: gap ∧ ∀ c ∈ gap, isSpace c = true := by
  unfold Style.colon
  split
  · exact ⟨[' '], rfl, by simp [isSpace]⟩
  · exact ⟨[], rfl, by simp⟩

def memberText (style : Style) (depth : Nat) (member : String × Json) : List Char :=
  quote style.ascii member.1 ++ style.colon ++ write style depth member.2

theorem readMembers_memberText {style : Style} {member : String × Json}
    (value : ReadsBack style member.2) {depth fuel : Nat} {rest : List Char}
    (ends : EndsNumber rest) (enough : 2 * (memberText style depth member).length ≤ fuel) :
    readMembers (fuel + 1) (memberText style depth member ++ rest) =
      match skipSpace rest with
      | '\x7d' :: rest => .ok ([member], rest)
      | ',' :: rest => do
        let (members, rest) ← readMembers fuel (skipSpace rest)
        return (member :: members, rest)
      | rest => .error (.mistake .expectingComma rest) := by
  obtain ⟨gap, colon, space⟩ := exists_colon style
  obtain ⟨name, tree⟩ := member
  have size : 2 * (write style depth tree).length ≤ fuel := by
    simp only [memberText, List.length_append] at enough
    omega
  have read := value depth fuel rest ends size
  have text : memberText style depth (name, tree) ++ rest =
      '"' :: (name.toList.flatMap (escapeChar style.ascii) ++
        '"' :: (':' :: (gap ++ (write style depth tree ++ rest)))) := by
    simp [memberText, quote, colon]
  rw [text]
  have mark := fun text => @skipSpace_cons ':' rfl text
  simp only [readMembers, readString_quote, mark, skipSpace_write space, read, Bind.bind,
    Except.bind]
  rfl

theorem readMembers_write {style : Style} {members : List (String × Json)}
    (each : ∀ member ∈ members, ReadsBack style member.2) {member : String × Json}
    (first : ReadsBack style member.2) (depth outer fuel : Nat) (rest : List Char)
    (enough : 2 * (memberText style depth member ++
      writeMembers style depth members).length + 1 ≤ fuel) :
    readMembers fuel (memberText style depth member ++
      (writeMembers style depth members ++ (style.lineBreak outer ++ '\x7d' :: rest))) =
        .ok (member :: members, rest) := by
  induction members generalizing member fuel with
  | nil =>
    obtain ⟨fuel, rfl⟩ := Nat.exists_eq_succ_of_ne_zero (Nat.ne_zero_of_lt enough)
    rw [List.length_append] at enough
    have close : skipSpace (writeMembers style depth [] ++
        (style.lineBreak outer ++ '\x7d' :: rest)) = '\x7d' :: rest :=
      skipSpace_append (isSpace_of_mem_lineBreak style outer) _
    rw [readMembers_memberText first (endsNumber_writeMembers style depth outer [] rest)
      (by omega), close]
    rfl
  | cons next members inner =>
    obtain ⟨fuel, rfl⟩ := Nat.exists_eq_succ_of_ne_zero (Nat.ne_zero_of_lt enough)
    obtain ⟨name, tree⟩ := next
    have unfolded : writeMembers style depth ((name, tree) :: members) =
        ',' :: (style.lineBreak depth ++ (memberText style depth (name, tree) ++
          writeMembers style depth members)) := by
      simp [writeMembers, memberText]
    rw [unfolded, List.length_append, List.length_cons, List.length_append] at enough
    have others := inner (fun member inside => each member (List.mem_cons_of_mem _ inside))
      (each (name, tree) List.mem_cons_self) fuel (by omega)
    have gap : skipSpace (style.lineBreak depth ++ (memberText style depth (name, tree) ++
        (writeMembers style depth members ++ (style.lineBreak outer ++ '\x7d' :: rest)))) =
        memberText style depth (name, tree) ++
          (writeMembers style depth members ++ (style.lineBreak outer ++ '\x7d' :: rest)) :=
      skipSpace_append (isSpace_of_mem_lineBreak style depth) _
    rw [readMembers_memberText first (endsNumber_writeMembers style depth outer _ rest) (by omega),
      unfolded]
    have comma := fun text => @skipSpace_cons ',' rfl text
    simp only [List.cons_append, List.append_assoc, comma, gap, others]
    rfl

theorem readValue_list {fuel : Nat} {text : List Char} (begins : BeginsValue (skipSpace text)) :
    readValue (fuel + 1) ('[' :: text) = (do
      let (items, rest) ← readItems fuel (skipSpace text)
      return (.list items, rest)) := by
  obtain ⟨c, more, same, -, close, -⟩ := begins
  simp [readValue, same, close]

theorem readValue_object {fuel : Nat} {text more : List Char}
    (begins : skipSpace text = '"' :: more) :
    readValue (fuel + 1) ('\x7b' :: text) = (do
      let (members, rest) ← readMembers fuel (skipSpace text)
      return (.object (collectEntries (· == ·) members), rest)) := by
  simp [readValue, begins]

theorem BeginsValue.append {text : List Char} (begins : BeginsValue text) (rest : List Char) :
    BeginsValue (text ++ rest) := by
  obtain ⟨c, more, rfl, properties⟩ := begins
  exact ⟨c, more ++ rest, rfl, properties⟩

theorem readsBack_of_step {style : Style} {value : Json}
    (step : ∀ depth fuel rest, EndsNumber rest →
      2 * (write style depth value).length ≤ fuel + 1 →
        readValue (fuel + 1) (write style depth value ++ rest) = .ok (value, rest)) :
    ReadsBack style value := by
  intro depth fuel rest ends enough
  obtain ⟨c, more, begins, -⟩ := beginsValue_write style depth value
  have positive : fuel ≠ 0 := by
    rw [begins, List.length_cons] at enough
    omega
  obtain ⟨fuel, rfl⟩ := Nat.exists_eq_succ_of_ne_zero positive
  exact step depth fuel rest ends enough

theorem readsBack_list {style : Style} {items : List Json}
    (each : ∀ item ∈ items, ReadsBack style item) : ReadsBack style (.list items) := by
  refine readsBack_of_step ?_
  intro depth fuel rest ends enough
  cases items with
  | nil => rfl
  | cons item items =>
    have text : write style depth (.list (item :: items)) ++ rest =
        '[' :: (style.lineBreak (depth + 1) ++ (write style (depth + 1) item ++
          (writeItems style (depth + 1) items ++ (style.lineBreak depth ++ ']' :: rest)))) := by
      simp [write]
    have gap := skipSpace_write (isSpace_of_mem_lineBreak style (depth + 1)) style (depth + 1) item
      (writeItems style (depth + 1) items ++ (style.lineBreak depth ++ ']' :: rest))
    simp only [write, List.length_cons, List.length_append, List.length_nil] at enough
    have read := readItems_write (fun item member => each item (List.mem_cons_of_mem _ member))
      (each item List.mem_cons_self) (depth + 1) depth fuel rest
      (by rw [List.length_append]; omega)
    have begins := (beginsValue_write style (depth + 1) item).append
      (writeItems style (depth + 1) items ++ (style.lineBreak depth ++ ']' :: rest))
    rw [← gap] at begins
    rw [text, readValue_list begins, gap, read]
    rfl

theorem readsBack_object {style : Style} {members : List (String × Json)}
    (distinct : members.Pairwise fun a b => (a.1 == b.1) = false)
    (each : ∀ member ∈ members, ReadsBack style member.2) : ReadsBack style (.object members) := by
  refine readsBack_of_step ?_
  intro depth fuel rest ends enough
  cases members with
  | nil => rfl
  | cons member members =>
    obtain ⟨name, tree⟩ := member
    have text : write style depth (.object ((name, tree) :: members)) ++ rest =
        '\x7b' :: (style.lineBreak (depth + 1) ++ (memberText style (depth + 1) (name, tree) ++
          (writeMembers style (depth + 1) members ++
            (style.lineBreak depth ++ '\x7d' :: rest)))) := by
      simp [write, memberText]
    have gap : skipSpace (style.lineBreak (depth + 1) ++
        (memberText style (depth + 1) (name, tree) ++
          (writeMembers style (depth + 1) members ++ (style.lineBreak depth ++ '\x7d' :: rest)))) =
        memberText style (depth + 1) (name, tree) ++
          (writeMembers style (depth + 1) members ++ (style.lineBreak depth ++ '\x7d' :: rest)) :=
      skipSpace_append (isSpace_of_mem_lineBreak style (depth + 1)) _
    simp only [write, List.length_cons, List.length_append, List.length_nil] at enough
    have read := readMembers_write
      (fun member inside => each member (List.mem_cons_of_mem _ inside))
      (each (name, tree) List.mem_cons_self) (depth + 1) depth fuel rest
      (by simp only [memberText, List.length_append]; omega)
    rw [text, readValue_object (gap.trans rfl), gap, read]
    simp only [Bind.bind, Except.bind, collectEntries_of_distinct distinct]
    rfl

theorem readsBack_of_writable (style : Style) {value : Json} (writable : Writable value) :
    ReadsBack style value := by
  induction writable with
  | null => exact readsBack_of_step fun depth fuel rest ends enough => rfl
  | bool b =>
    refine readsBack_of_step fun depth fuel rest ends enough => ?_
    cases b <;> rfl
  | int short =>
    exact readsBack_of_step fun depth fuel rest ends enough =>
      readValue_integerText fuel short ends
  | @float x finite =>
    cases x with
    | nan => cases finite
    | infinite negative => cases finite
    | finite negative magnitude =>
      exact readsBack_of_step fun depth fuel rest ends enough =>
        readValue_floatText fuel negative magnitude ends
  | string s =>
    refine readsBack_of_step fun depth fuel rest ends enough => ?_
    have text : write style depth (.string s) ++ rest =
        '"' :: (s.toList.flatMap (escapeChar style.ascii) ++ '"' :: rest) := by
      simp [write, quote]
    rw [text]
    simp only [readValue, readScalar_quote, readString_quote, Bind.bind, Except.bind]
    rfl
  | list each inner => exact readsBack_list inner
  | object distinct each inner => exact readsBack_object distinct inner

theorem parse_write (style : Style) {value : Json} (writable : Writable value)
    {blank : List Char} (space : ∀ c ∈ blank, isSpace c = true) :
    parse (write style 0 value ++ blank) = .ok value := by
  have ends : EndsNumber blank := by
    intro c more same
    have solid := space c (same ▸ List.mem_cons_self)
    simp only [isSpace, Bool.or_eq_true, beq_iff_eq] at solid
    rcases solid with ((rfl | rfl) | rfl) | rfl <;> decide
  have read := readsBack_of_writable style writable 0
    (2 * (write style 0 value ++ blank).length + 2) blank ends (by rw [List.length_append]; omega)
  have behind : skipSpace blank = [] := (Text.dropWhile_eq_nil_iff_forall isSpace blank).mpr space
  obtain ⟨c, more, begins, solid, -, plain⟩ := (beginsValue_write style 0 value).append blank
  have before : skipSpace (write style 0 value ++ blank) = write style 0 value ++ blank := by
    rw [begins, skipSpace_cons solid]
  have whole : readDocument (write style 0 value ++ blank) = .ok value := by
    unfold readDocument
    split
    · rename_i mark
      rw [begins] at mark
      injection mark with same
      exact absurd same plain
    · rw [before, read]
      simp only [Bind.bind, Except.bind, behind]
  rw [parse, whole]

end Json
end ApiCatalog
