import ApiCatalog.Proofs.Json.Source

/-!
Reading takes JSON texts apart: every text that is read has a source, and reading gives what the
source means by the convention of JSON.
-/

namespace ApiCatalog.Json

open Number

theorem exists_of_bind {α β : Type} {first : Reading (α × List Char)}
    {next : α × List Char → Reading β} {result : β} (done : first >>= next = .ok result) :
    ∃ value rest, first = .ok (value, rest) ∧ next (value, rest) = .ok result := by
  match first, done with
  | .ok (value, rest), done => exact ⟨value, rest, rfl, done⟩
  | .error failure, done => cases done

theorem exists_gap {text rest : List Char} (skipped : skipSpace text = rest) :
    ∃ gap : Gap, text = gap.chars ++ rest := by
  refine ⟨⟨text.takeWhile isSpace, List.all_eq_true.mp List.all_takeWhile⟩, ?_⟩
  rw [← skipped]
  exact List.takeWhile_append_dropWhile.symm

theorem piece_of_readUnicode {text rest : List Char} {c : Char}
    (read : readUnicode text = .ok (c, rest)) :
    ∃ piece : Piece, '\\' :: 'u' :: text = piece.text ++ rest ∧ piece.char = c := by
  unfold readUnicode at read
  split at read
  case h_2 => cases read
  case h_1 a b c d e rest =>
    split at read
    · cases read
    case h_2 high denotes =>
      let code : CodeUnit := ⟨[a, b, c, d], high, rfl, denotes⟩
      split at read
      case isFalse =>
        cases read
        exact ⟨.unit code, rfl, rfl⟩
      case isTrue first =>
        have lone : unitChar high = loneHalf := if_pos ⟨first.1, by omega⟩
        split at read
        case h_2 =>
          cases read
          exact ⟨.unit code, rfl, lone⟩
        case h_1 a' b' c' d' e' rest' paired =>
          split at read
          · cases read
          case h_2 low denotesLow =>
            split at read
            case isTrue second =>
              obtain ⟨rfl, rfl⟩ := Prod.mk.inj (Except.ok.inj read)
              exact ⟨.pair code ⟨[a', b', c', d'], low, rfl, denotesLow⟩ first second,
                congrArg (['\\', 'u', a, b, c, d] ++ ·) paired, rfl⟩
            case isFalse =>
              cases read
              exact ⟨.unit code, rfl, lone⟩

theorem piece_of_readEscape {opening text rest : List Char} {c : Char}
    (read : readEscape opening text = .ok (c, rest)) :
    ∃ piece : Piece, '\\' :: text = piece.text ++ rest ∧ piece.char = c := by
  have listed (place : Nat) (inside : place < 8) : shortEscapes[place] ∈ shortEscapes :=
    List.getElem_mem inside
  unfold readEscape at read
  split at read
  case h_2 => exact piece_of_readUnicode read
  all_goals cases read
  case h_3 => exact ⟨.short _ (listed 0 (by decide)), rfl, rfl⟩
  case h_4 => exact ⟨.short _ (listed 1 (by decide)), rfl, rfl⟩
  case h_5 => exact ⟨.short _ (listed 2 (by decide)), rfl, rfl⟩
  case h_6 => exact ⟨.short _ (listed 3 (by decide)), rfl, rfl⟩
  case h_7 => exact ⟨.short _ (listed 4 (by decide)), rfl, rfl⟩
  case h_8 => exact ⟨.short _ (listed 5 (by decide)), rfl, rfl⟩
  case h_9 => exact ⟨.short _ (listed 6 (by decide)), rfl, rfl⟩
  case h_10 => exact ⟨.short _ (listed 7 (by decide)), rfl, rfl⟩

theorem pieces_of_readChars {opening : List Char} {fuel : Nat} {text cs rest : List Char}
    (read : readChars opening fuel text = .ok (cs, rest)) :
    ∃ pieces : List Piece, text = pieces.flatMap Piece.text ++ '"' :: rest ∧
      pieces.map Piece.char = cs := by
  induction fuel generalizing text cs with
  | zero => cases read
  | succ fuel inner =>
    -- One more piece stands before those of the rest.
    have goesOn {piece : Piece} {left : List Char} (part : text = piece.text ++ left)
        (done : (readChars opening fuel left >>= fun found =>
          pure (piece.char :: found.1, found.2)) = .ok (cs, rest)) :
        ∃ pieces : List Piece, text = pieces.flatMap Piece.text ++ '"' :: rest ∧
          pieces.map Piece.char = cs := by
      obtain ⟨more, _, readMore, same⟩ := exists_of_bind done
      cases same
      obtain ⟨pieces, rfl, rfl⟩ := inner readMore
      refine ⟨piece :: pieces, ?_, rfl⟩
      rw [part, List.flatMap_cons, List.append_assoc]
    unfold readChars at read
    split at read
    · cases read
    · cases read
      exact ⟨[], rfl, rfl⟩
    case h_3 left =>
      obtain ⟨c, left, escaped, done⟩ := exists_of_bind read
      obtain ⟨piece, part, rfl⟩ := piece_of_readEscape escaped
      exact goesOn part done
    case h_4 c left noQuote noEscape =>
      split at read
      · cases read
      case isFalse visible =>
        have solid : 0x1f < c.toNat ∧ c ≠ '"' ∧ c ≠ '\\' :=
          ⟨by omega, fun same => noQuote (same ▸ rfl), fun same => noEscape (same ▸ rfl)⟩
        exact @goesOn (.plain c solid) left rfl read

theorem pieces_of_readString {text rest : List Char} {s : String}
    (read : readString text = .ok (s, rest)) :
    ∃ pieces : List Piece, '"' :: text = quoted pieces ++ rest ∧
      Convention.json.string pieces = .text s := by
  obtain ⟨cs, _, readCs, same⟩ := exists_of_bind read
  cases same
  obtain ⟨pieces, rfl, rfl⟩ := pieces_of_readChars readCs
  refine ⟨pieces, by simp [quoted], ?_⟩
  rw [List.map_eq_flatMap]
  rfl

theorem exists_fraction (text : List Char) : ∃ fraction rest,
    splitFraction text = (fraction, rest) ∧ (∀ c ∈ fraction, c.isDigit = true) ∧
      text = (if fraction = [] then [] else '.' :: fraction) ++ rest := by
  have none : ∀ c ∈ ([] : List Char), c.isDigit = true := nofun
  unfold splitFraction
  split
  case h_2 => exact ⟨[], text, rfl, none, rfl⟩
  case h_1 more =>
    dsimp only
    split
    · exact ⟨[], _, rfl, none, rfl⟩
    case isFalse filled =>
      have nonempty : more.takeWhile Char.isDigit ≠ [] := by simpa using filled
      refine ⟨_, _, rfl, List.all_eq_true.mp List.all_takeWhile, ?_⟩
      rw [if_neg nonempty, List.cons_append, List.takeWhile_append_dropWhile]

theorem exists_sign (text : List Char) : ∃ (sign : Option Char) (rest : List Char),
    splitSign text = (decide (sign = some '-'), rest) ∧ (∀ c ∈ sign, c = '+' ∨ c = '-') ∧
      text = sign.toList ++ rest := by
  unfold splitSign
  split
  · exact ⟨some '-', _, rfl, by simp, rfl⟩
  · exact ⟨some '+', _, rfl, by simp, rfl⟩
  · exact ⟨none, _, rfl, by simp, rfl⟩

theorem exists_exponent (text : List Char) : ∃ (exponent : Option Exponent) (rest : List Char),
    splitExponent text = (exponent.map Exponent.size, rest) ∧
      text = exponent.elim [] Exponent.text ++ rest := by
  unfold splitExponent
  split
  case h_2 => exact ⟨none, [], rfl, rfl⟩
  case h_1 mark rest =>
    split
    case isFalse => exact ⟨none, _, rfl, rfl⟩
    case isTrue marks =>
      obtain ⟨sign, unsigned, split, signs, rfl⟩ := exists_sign rest
      simp only [split]
      split
      · exact ⟨none, _, rfl, rfl⟩
      case isFalse filled =>
        have nonempty : unsigned.takeWhile Char.isDigit ≠ [] := by simpa using filled
        have digit : ∀ c ∈ unsigned.takeWhile Char.isDigit, c.isDigit = true :=
          List.all_eq_true.mp List.all_takeWhile
        refine ⟨some ⟨mark, sign, _, marks, signs, digit, nonempty⟩,
          unsigned.dropWhile Char.isDigit, ?_, ?_⟩
        · simp [Exponent.size]
        · simp [Exponent.text, List.takeWhile_append_dropWhile]

theorem numeral_of_finishNumber {negative : Bool} {whole text rest : List Char} {json : Json}
    (digit : ∀ c ∈ whole, c.isDigit = true)
    (leading : whole = ['0'] ∨ ∃ first more, whole = first :: more ∧ first ≠ '0')
    (read : finishNumber negative whole text = .ok (json, rest)) :
    ∃ numeral : Numeral,
      (if negative then ['-'] else []) ++ whole ++ text = numeral.text ++ rest ∧
        numeral.value = Value.ofJson json := by
  obtain ⟨fraction, left, point, digits, rfl⟩ := exists_fraction text
  obtain ⟨exponent, left, mark, rfl⟩ := exists_exponent left
  simp only [finishNumber, point, mark] at read
  split at read
  case isTrue solid =>
    have empty : fraction = [] ∧ exponent = none := by simpa using solid
    split at read
    · cases read
    case isFalse limit =>
      cases read
      refine ⟨⟨negative, whole, fraction, exponent, digit, leading, digits, ?_⟩, ?_, ?_⟩
      · intro _ _
        omega
      · simp [Numeral.text, Numeral.tail]
      · exact if_pos empty
  case isFalse inexact =>
    have broken : ¬ (fraction = [] ∧ exponent = none) := by simpa using inexact
    cases read
    refine ⟨⟨negative, whole, fraction, exponent, digit, leading, digits, ?_⟩, ?_, ?_⟩
    · intro none absent
      exact absurd ⟨none, absent⟩ broken
    · simp [Numeral.text, Numeral.tail]
    · refine (if_neg broken).trans ?_
      cases exponent <;> rfl

theorem numeral_of_readNumber {text rest : List Char} {json : Json}
    (read : readNumber text = .ok (json, rest)) :
    ∃ numeral : Numeral, text = numeral.text ++ rest ∧ numeral.value = Value.ofJson json := by
  unfold readNumber at read
  split at read
  case h_1 negative unsigned split =>
    have parted : text = (if negative then ['-'] else []) ++ unsigned := by
      split at split <;> cases split <;> rfl
    rw [parted]
    split at read
    · have found := numeral_of_finishNumber (by simp) (.inl rfl) read
      rwa [List.append_assoc] at found
    case h_2 c more nonzero =>
      split at read
      case isFalse => cases read
      case isTrue digit =>
        have leading : (c :: more).takeWhile Char.isDigit = c :: more.takeWhile Char.isDigit := by
          simp [digit]
        have found := numeral_of_finishNumber (List.all_eq_true.mp List.all_takeWhile)
          (.inr ⟨c, _, leading, nonzero⟩) read
        rwa [List.append_assoc, List.takeWhile_append_dropWhile] at found
    · cases read

theorem source_of_readScalar {text rest : List Char} {json : Json}
    (read : readScalar text = .ok (json, rest)) :
    ∃ source : Source, text = source.text ++ rest ∧
      source.value .json = Value.ofJson json := by
  obtain ⟨more, rfl⟩ | ⟨word, listed, more, rfl, found⟩ | number := readScalar_cases text
  · rw [readScalar_quote] at read
    obtain ⟨s, left, string, same⟩ := exists_of_bind read
    cases same
    obtain ⟨pieces, part, means⟩ := pieces_of_readString string
    exact ⟨.string pieces, part, means⟩
  · rw [found] at read
    cases read
    exact ⟨.word word listed, rfl, rfl⟩
  · rw [number] at read
    obtain ⟨numeral, part, means⟩ := numeral_of_readNumber read
    exact ⟨.number numeral, part, means⟩

/-! Keys are texts, and the entries of an object are collected alike on both sides. -/

theorem ofMembers_eq_map (members : List (String × Json)) :
    Value.ofJson.ofMembers members = members.map (Prod.map Value.text Value.ofJson) := by
  induction members with
  | nil => rfl
  | cons member rest inner => exact congrArg _ inner

theorem ofMembers_collectEntries (members : List (String × Json)) :
    collectEntries Value.same (Value.ofJson.ofMembers members) =
      Value.ofJson.ofMembers (collectEntries (· == ·) members) := by
  rw [ofMembers_eq_map, ofMembers_eq_map]
  exact collectEntries_map fun _ _ _ _ => rfl

/-- The readers of values, of items and of members, at one bound of steps: they take the text of a
source that means what they return. -/
structure ReadersTakeSources (fuel : Nat) : Prop where
  value : ∀ {text rest json}, readValue fuel text = .ok (json, rest) →
    ∃ source : Source, text = source.text ++ rest ∧ source.value .json = Value.ofJson json
  items : ∀ {text rest items}, readItems fuel text = .ok (items, rest) →
    ∃ source : Items, text = source.text ++ ']' :: rest ∧
      source.values .json = Value.ofJson.ofItems items
  members : ∀ {text rest members}, readMembers fuel text = .ok (members, rest) →
    ∃ source : Members, text = source.text ++ '\x7d' :: rest ∧
      source.entries .json = Value.ofJson.ofMembers members

theorem source_of_readValue {fuel : Nat} (inner : ReadersTakeSources fuel)
    {text rest : List Char} {json : Json} (read : readValue (fuel + 1) text = .ok (json, rest)) :
    ∃ source : Source, text = source.text ++ rest ∧ source.value .json = Value.ofJson json := by
  unfold readValue at read
  split at read
  case h_1 =>
    split at read
    case h_1 closed =>
      cases read
      obtain ⟨gap, rfl⟩ := exists_gap closed
      exact ⟨.emptyList gap, by simp [Source.text], rfl⟩
    case h_2 =>
      obtain ⟨items, _, row, same⟩ := exists_of_bind read
      cases same
      obtain ⟨source, taken, means⟩ := inner.items row
      obtain ⟨gap, rfl⟩ := exists_gap taken
      exact ⟨.list gap source, by simp [Source.text], congrArg Value.list means⟩
  case h_2 =>
    split at read
    case h_1 closed =>
      cases read
      obtain ⟨gap, rfl⟩ := exists_gap closed
      exact ⟨.emptyObject gap, by simp [Source.text], rfl⟩
    case h_2 =>
      obtain ⟨members, _, row, same⟩ := exists_of_bind read
      cases same
      obtain ⟨source, taken, means⟩ := inner.members row
      obtain ⟨gap, rfl⟩ := exists_gap taken
      refine ⟨.object gap source, by simp [Source.text], ?_⟩
      rw [Source.value, means, ofMembers_collectEntries]
      rfl
  case h_3 => exact source_of_readScalar read

theorem source_of_readItems {fuel : Nat} (inner : ReadersTakeSources fuel)
    {text rest : List Char} {items : List Json}
    (read : readItems (fuel + 1) text = .ok (items, rest)) :
    ∃ source : Items, text = source.text ++ ']' :: rest ∧
      source.values .json = Value.ofJson.ofItems items := by
  unfold readItems at read
  obtain ⟨json, left, value, done⟩ := exists_of_bind read
  obtain ⟨item, rfl, means⟩ := inner.value value
  dsimp only at done
  split at done
  case h_1 closed =>
    cases done
    obtain ⟨after, rfl⟩ := exists_gap closed
    exact ⟨.last item after, by simp [Items.text], congrArg (fun value => [value]) means⟩
  case h_2 separated =>
    obtain ⟨_, _, row, same⟩ := exists_of_bind done
    cases same
    obtain ⟨source, taken, meansMore⟩ := inner.items row
    obtain ⟨after, rfl⟩ := exists_gap separated
    obtain ⟨gap, rfl⟩ := exists_gap taken
    refine ⟨.more item after gap source, by simp [Items.text], ?_⟩
    exact congr (congrArg List.cons means) meansMore
  case h_3 => cases done

theorem source_of_readMembers {fuel : Nat} (inner : ReadersTakeSources fuel)
    {text rest : List Char} {members : List (String × Json)}
    (read : readMembers (fuel + 1) text = .ok (members, rest)) :
    ∃ source : Members, text = source.text ++ '\x7d' :: rest ∧
      source.entries .json = Value.ofJson.ofMembers members := by
  unfold readMembers at read
  split at read
  case h_2 => cases read
  case h_1 =>
    obtain ⟨_, left, string, done⟩ := exists_of_bind read
    obtain ⟨name, partName, meansName⟩ := pieces_of_readString string
    dsimp only at done
    split at done
    case h_2 => cases done
    case h_1 colon =>
      obtain ⟨json, left, found, ends⟩ := exists_of_bind done
      dsimp only at ends
      obtain ⟨value, partValue, means⟩ := inner.value found
      obtain ⟨close, rfl⟩ := exists_gap colon
      obtain ⟨far, rfl⟩ := exists_gap partValue
      have entry := congr (congrArg Prod.mk meansName) means
      split at ends
      case h_1 closed =>
        cases ends
        obtain ⟨after, rfl⟩ := exists_gap closed
        refine ⟨.last name close far value after, ?_, congrArg (fun entry => [entry]) entry⟩
        simp [Members.text, partName]
      case h_2 separated =>
        obtain ⟨_, _, row, same⟩ := exists_of_bind ends
        cases same
        obtain ⟨source, taken, meansMore⟩ := inner.members row
        obtain ⟨after, rfl⟩ := exists_gap separated
        obtain ⟨gap, rfl⟩ := exists_gap taken
        refine ⟨.more name close far value after gap source, ?_, ?_⟩
        · simp [Members.text, partName]
        · exact congr (congrArg List.cons entry) meansMore
      case h_3 => cases ends

theorem readersTakeSources (fuel : Nat) : ReadersTakeSources fuel := by
  induction fuel with
  | zero => exact ⟨nofun, nofun, nofun⟩
  | succ fuel inner =>
    exact ⟨source_of_readValue inner, source_of_readItems inner, source_of_readMembers inner⟩

theorem exists_source {text : List Char} {json : Json} (read : parse text = .ok json) :
    ∃ (before after : Gap) (source : Source), text = before.chars ++ (source.text ++ after.chars) ∧
      source.value .json = Value.ofJson json := by
  unfold parse at read
  split at read
  case h_2 | h_3 => cases read
  case h_1 found =>
    cases read
    unfold readDocument at found
    split at found
    case h_1 => cases found
    case h_2 =>
      obtain ⟨_, left, value, done⟩ := exists_of_bind found
      obtain ⟨source, part, means⟩ := (readersTakeSources _).value value
      obtain ⟨before, rfl⟩ := exists_gap part
      dsimp only at done
      split at done
      case h_2 => cases done
      case h_1 ended =>
        cases done
        obtain ⟨after, rfl⟩ := exists_gap ended
        exact ⟨before, after, source, by simp, means⟩

end ApiCatalog.Json
