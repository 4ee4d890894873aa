import ApiCatalog.Proofs.Json.RoundTrip

/-!
Numbers that are too long. Readers leave an end of their text, so a reader that stops at a number
with too many digits has met them in the text.
-/

namespace ApiCatalog.Json

/-- A text with more digits in a row than numbers may have. -/
def HasLongNumber (text : List Char) : Prop :=
  ∃ digits, digits <:+: text ∧ (∀ c ∈ digits, c.isDigit = true) ∧
    Number.digitLimit < digits.length

theorem HasLongNumber.of_suffix {rest text : List Char} (long : HasLongNumber rest)
    (ends : rest <:+ text) : HasLongNumber text := by
  obtain ⟨digits, part, digit, length⟩ := long
  exact ⟨digits, part.trans ends.isInfix, digit, length⟩

section

variable {α β : Type} {text rest : List Char}

def ReadsEnd (text : List Char) (result : Reading (α × List Char)) : Prop :=
  (∀ value rest, result = .ok (value, rest) → rest <:+ text) ∧
    (result = .error .numberTooLong → HasLongNumber text)

theorem readsEnd_ok (value : α) (ends : rest <:+ text) : ReadsEnd text (.ok (value, rest)) := by
  refine ⟨?_, nofun⟩
  rintro _ _ ⟨⟩
  exact ends

theorem readsEnd_mistake (what : Mistake) (left : List Char) :
    ReadsEnd text (.error (.mistake what left) : Reading (α × List Char)) :=
  ⟨nofun, nofun⟩

theorem ReadsEnd.of_suffix {result : Reading (α × List Char)} (reads : ReadsEnd rest result)
    (ends : rest <:+ text) : ReadsEnd text result :=
  ⟨fun value left same => (reads.1 value left same).trans ends,
    fun same => (reads.2 same).of_suffix ends⟩

theorem ReadsEnd.bind {result : Reading (α × List Char)}
    {next : α × List Char → Reading (β × List Char)} (first : ReadsEnd text result)
    (second : ∀ value rest, rest <:+ text → ReadsEnd rest (next (value, rest))) :
    ReadsEnd text (result >>= next) := by
  match result, first with
  | .ok (value, rest), first =>
    have ends := first.1 value rest rfl
    exact (second value rest ends).of_suffix ends
  | .error failure, first =>
    refine ⟨nofun, ?_⟩
    rintro ⟨⟩
    exact first.2 rfl

end

theorem skipSpace_suffix (text : List Char) : skipSpace text <:+ text :=
  List.dropWhile_suffix _

theorem suffix_of_skipSpace {text rest : List Char} {sign : Char}
    (found : skipSpace text = sign :: rest) : rest <:+ text :=
  (List.suffix_cons sign rest).trans (found ▸ skipSpace_suffix text)

/-! Strings. -/

theorem readsEnd_readUnicode (text : List Char) : ReadsEnd text (readUnicode text) := by
  unfold readUnicode
  split
  case h_2 => exact readsEnd_mistake _ _
  case h_1 a b c d e rest =>
    have ends : e :: rest <:+ a :: b :: c :: d :: e :: rest := List.suffix_append [a, b, c, d] _
    split
    · exact readsEnd_mistake _ _
    split
    case isFalse => exact readsEnd_ok _ ends
    -- An escape of a second half is passed over together with the first.
    split
    case h_2 => exact readsEnd_ok _ ends
    case h_1 a b c d e' rest' pair =>
      split
      · exact readsEnd_mistake _ _
      split
      · refine readsEnd_ok _ (List.IsSuffix.trans ?_ ends)
        rw [pair]
        exact List.suffix_append ['\\', 'u', a, b, c, d] _
      · exact readsEnd_ok _ ends

theorem readsEnd_readEscape (opening text : List Char) :
    ReadsEnd text (readEscape opening text) := by
  unfold readEscape
  split
  case h_1 => exact readsEnd_mistake _ _
  case h_2 rest => exact (readsEnd_readUnicode rest).of_suffix (List.suffix_cons _ _)
  case h_11 => exact readsEnd_mistake _ _
  all_goals exact readsEnd_ok _ (List.suffix_cons _ _)

theorem readsEnd_readChars (opening : List Char) (fuel : Nat) (text : List Char) :
    ReadsEnd text (readChars opening fuel text) := by
  induction fuel generalizing text with
  | zero => exact readsEnd_mistake _ _
  | succ fuel inner =>
    unfold readChars
    split
    · exact readsEnd_mistake _ _
    · exact readsEnd_ok _ (List.suffix_cons _ _)
    · refine ReadsEnd.of_suffix ?_ (List.suffix_cons _ _)
      refine (readsEnd_readEscape opening _).bind fun c rest _ => ?_
      exact (inner rest).bind fun cs rest _ => readsEnd_ok _ List.suffix_rfl
    · split
      · exact readsEnd_mistake _ _
      · refine ReadsEnd.of_suffix ?_ (List.suffix_cons _ _)
        exact (inner _).bind fun cs rest _ => readsEnd_ok _ List.suffix_rfl

theorem readsEnd_readString (text : List Char) : ReadsEnd text (readString text) :=
  (readsEnd_readChars _ _ text).bind fun _ _ _ => readsEnd_ok _ List.suffix_rfl

/-! Numbers. -/

theorem splitFraction_suffix (text : List Char) : (splitFraction text).2 <:+ text := by
  unfold splitFraction
  split
  · dsimp only
    split
    · exact List.suffix_rfl
    · exact (List.dropWhile_suffix _).trans (List.suffix_cons _ _)
  · exact List.suffix_rfl

theorem splitSign_suffix (text : List Char) : (Number.splitSign text).2 <:+ text := by
  unfold Number.splitSign
  split
  · exact List.suffix_cons _ _
  · exact List.suffix_cons _ _
  · exact List.suffix_rfl

theorem splitExponent_suffix (text : List Char) : (splitExponent text).2 <:+ text := by
  unfold splitExponent
  split
  · dsimp only
    split
    · split
      · exact List.suffix_rfl
      · exact ((List.dropWhile_suffix _).trans (splitSign_suffix _)).trans (List.suffix_cons _ _)
    · exact List.suffix_rfl
  · exact List.suffix_rfl

theorem readsEnd_finishNumber (negative : Bool) {whole rest : List Char}
    (digit : ∀ c ∈ whole, c.isDigit = true) :
    ReadsEnd (whole ++ rest) (finishNumber negative whole rest) := by
  have ends : (splitExponent (splitFraction rest).2).2 <:+ whole ++ rest :=
    ((splitExponent_suffix _).trans (splitFraction_suffix _)).trans (List.suffix_append _ _)
  unfold finishNumber
  dsimp only
  split
  · split
    case isTrue long =>
      refine ⟨nofun, fun _ => ⟨whole, ?_, digit, long⟩⟩
      exact (List.prefix_append _ _).isInfix
    case isFalse => exact readsEnd_ok _ ends
  · exact readsEnd_ok _ ends

theorem readsEnd_finishDigits (negative : Bool) (text : List Char) :
    ReadsEnd text
      (finishNumber negative (text.takeWhile Char.isDigit) (text.dropWhile Char.isDigit)) := by
  have digit : ∀ c ∈ text.takeWhile Char.isDigit, c.isDigit = true :=
    List.all_eq_true.mp List.all_takeWhile
  have reads := @readsEnd_finishNumber negative _ (text.dropWhile Char.isDigit) digit
  rwa [List.takeWhile_append_dropWhile] at reads

theorem readsEnd_readNumber (text : List Char) : ReadsEnd text (readNumber text) := by
  unfold readNumber
  split
  case h_1 negative unsigned split =>
    have ends : unsigned <:+ text := by
      split at split
      · cases split
        exact List.suffix_cons _ _
      · cases split
        exact List.suffix_rfl
    split
    · refine ReadsEnd.of_suffix ?_ ends
      exact readsEnd_finishNumber negative (by simp)
    · split
      · refine ReadsEnd.of_suffix ?_ ends
        exact readsEnd_finishDigits negative _
      · exact readsEnd_mistake _ _
    · exact readsEnd_mistake _ _

theorem readsEnd_readScalar (text : List Char) : ReadsEnd text (readScalar text) := by
  obtain ⟨rest, rfl⟩ | ⟨word, -, rest, rfl, read⟩ | number := readScalar_cases text
  · rw [readScalar_quote]
    refine ReadsEnd.of_suffix ?_ (List.suffix_cons _ rest)
    exact (readsEnd_readString rest).bind fun _ _ _ => readsEnd_ok _ List.suffix_rfl
  · rw [read]
    exact readsEnd_ok _ (List.suffix_append _ rest)
  · rw [number]
    exact readsEnd_readNumber text

/-! Values. -/

structure ReadersReadEnd (fuel : Nat) : Prop where
  value : ∀ text, ReadsEnd text (readValue fuel text)
  items : ∀ text, ReadsEnd text (readItems fuel text)
  members : ∀ text, ReadsEnd text (readMembers fuel text)

theorem readsEnd_readValue {fuel : Nat} (inner : ReadersReadEnd fuel) (text : List Char) :
    ReadsEnd text (readValue (fuel + 1) text) := by
  unfold readValue
  split
  case h_1 rest =>
    refine ReadsEnd.of_suffix ?_ (List.suffix_cons _ rest)
    split
    case h_1 closed => exact readsEnd_ok _ (suffix_of_skipSpace closed)
    case h_2 =>
      refine ReadsEnd.of_suffix ?_ (skipSpace_suffix rest)
      exact (inner.items _).bind fun _ _ _ => readsEnd_ok _ List.suffix_rfl
  case h_2 rest =>
    refine ReadsEnd.of_suffix ?_ (List.suffix_cons _ rest)
    split
    case h_1 closed => exact readsEnd_ok _ (suffix_of_skipSpace closed)
    case h_2 =>
      refine ReadsEnd.of_suffix ?_ (skipSpace_suffix rest)
      exact (inner.members _).bind fun _ _ _ => readsEnd_ok _ List.suffix_rfl
  case h_3 => exact readsEnd_readScalar text

theorem readsEnd_readItems {fuel : Nat} (inner : ReadersReadEnd fuel) (text : List Char) :
    ReadsEnd text (readItems (fuel + 1) text) := by
  unfold readItems
  refine (inner.value text).bind fun item rest _ => ?_
  dsimp only
  split
  case h_1 closed => exact readsEnd_ok _ (suffix_of_skipSpace closed)
  case h_2 separated =>
    refine ReadsEnd.of_suffix ?_ ((skipSpace_suffix _).trans (suffix_of_skipSpace separated))
    exact (inner.items _).bind fun _ _ _ => readsEnd_ok _ List.suffix_rfl
  case h_3 => exact readsEnd_mistake _ _

theorem readsEnd_readMembers {fuel : Nat} (inner : ReadersReadEnd fuel) (text : List Char) :
    ReadsEnd text (readMembers (fuel + 1) text) := by
  unfold readMembers
  split
  case h_2 => exact readsEnd_mistake _ _
  case h_1 rest =>
    refine ReadsEnd.of_suffix ?_ (List.suffix_cons _ rest)
    refine (readsEnd_readString rest).bind fun name rest _ => ?_
    dsimp only
    split
    case h_2 => exact readsEnd_mistake _ _
    case h_1 paired =>
      refine ReadsEnd.of_suffix ?_ ((skipSpace_suffix _).trans (suffix_of_skipSpace paired))
      refine (inner.value _).bind fun value rest _ => ?_
      dsimp only
      split
      case h_1 closed => exact readsEnd_ok _ (suffix_of_skipSpace closed)
      case h_2 separated =>
        refine ReadsEnd.of_suffix ?_ ((skipSpace_suffix _).trans (suffix_of_skipSpace separated))
        exact (inner.members _).bind fun _ _ _ => readsEnd_ok _ List.suffix_rfl
      case h_3 => exact readsEnd_mistake _ _

theorem readersReadEnd (fuel : Nat) : ReadersReadEnd fuel := by
  induction fuel with
  | zero =>
    exact ⟨fun _ => readsEnd_mistake _ _, fun _ => readsEnd_mistake _ _,
      fun _ => readsEnd_mistake _ _⟩
  | succ fuel inner =>
    exact ⟨readsEnd_readValue inner, readsEnd_readItems inner, readsEnd_readMembers inner⟩

theorem hasLongNumber_of_readDocument {text : List Char}
    (fails : readDocument text = .error .numberTooLong) : HasLongNumber text := by
  unfold readDocument at fails
  split at fails
  case h_1 => cases fails
  case h_2 =>
    cases found : readValue (2 * text.length + 2) (skipSpace text) with
    | error failure =>
      rw [found] at fails
      cases fails
      have reads := (readersReadEnd (2 * text.length + 2)).value (skipSpace text)
      exact (reads.2 found).of_suffix (skipSpace_suffix text)
    | ok result =>
      rw [found] at fails
      dsimp only [Except.bind, Bind.bind] at fails
      split at fails <;> cases fails

theorem hasLongNumber_of_parse {text : List Char} (fails : parse text = .error .numberTooLong) :
    HasLongNumber text := by
  unfold parse at fails
  split at fails
  case h_1 => cases fails
  case h_2 found => exact hasLongNumber_of_readDocument found
  case h_3 => cases fails

theorem parse_of_long_digits {first : Char} {more : List Char} (nonzero : first ≠ '0')
    (digit : ∀ c ∈ first :: more, c.isDigit = true)
    (long : Number.digitLimit < (first :: more).length) :
    parse (first :: more) = .error .numberTooLong := by
  have starts : StartsNumber (first :: more) :=
    ⟨false, first, more, rfl, digit first List.mem_cons_self⟩
  obtain ⟨_, _, ⟨⟩, solid, -, unmarked⟩ := beginsValue_of_startsNumber starts
  have number : readNumber (first :: more) = .error .numberTooLong := by
    have ends := endsNumber_nil.endsDigits
    have read := readNumber_digits false digit (.inr ⟨first, more, rfl, nonzero⟩) ends
    rw [if_neg (by decide), List.nil_append, List.append_nil] at read
    rw [read]
    exact if_pos long
  have document : readDocument (first :: more) = .error .numberTooLong := by
    unfold readDocument
    split
    case h_1 marked => exact absurd (List.cons.inj marked).1 unmarked
    case h_2 =>
      rw [skipSpace_cons solid, readValue_number (2 * (first :: more).length + 1) starts, number]
      rfl
  rw [parse, document]

end ApiCatalog.Json
