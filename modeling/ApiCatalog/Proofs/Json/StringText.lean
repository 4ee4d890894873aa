import ApiCatalog.Json.Reader
import ApiCatalog.Json.Writer
import Mathlib.Tactic.Ring

/-!
Strings in JSON texts. Reading undoes every escape that writing puts in the place of a character,
pairs of units included, so that a quoted string is read back.
-/

namespace ApiCatalog.Text

theorem hexValue?_digitChar {digit : Nat} (small : digit < 16) :
    hexValue? (Nat.digitChar digit) = some digit := by
  have every : ∀ digit < 16, hexValue? (Nat.digitChar digit) = some digit := by decide
  exact every digit small

theorem hexNumber?_hexDigits (width n : Nat) :
    hexNumber? (hexDigits width n) = some (n % 16 ^ width) := by
  induction width generalizing n with
  | zero => simp [hexNumber?, hexDigits, Nat.mod_one]
  | succ width inner =>
    have front := inner (n / 16)
    unfold hexNumber? at front ⊢
    rw [hexDigits, List.foldl_append, front, List.foldl_cons, List.foldl_nil,
      hexValue?_digitChar (Nat.mod_lt n (by decide)), Nat.pow_succ', Nat.mod_mul]
    simp only [Option.bind_eq_bind, Option.bind_some, Option.pure_def, Option.some.injEq]
    omega

theorem length_hexDigits (width n : Nat) : (hexDigits width n).length = width := by
  induction width generalizing n with
  | zero => rfl
  | succ width inner => simp [hexDigits, inner]

end ApiCatalog.Text

namespace ApiCatalog.Json

theorem exists_hexDigits {point : Nat} (small : point < 0x10000) :
    ∃ a b c d, Text.hexDigits 4 point = [a, b, c, d] ∧
      Text.hexNumber? [a, b, c, d] = some point := by
  have length := Text.length_hexDigits 4 point
  have value := Text.hexNumber?_hexDigits 4 point
  have range : 16 ^ 4 = 0x10000 := by decide
  rw [range, Nat.mod_eq_of_lt small] at value
  match digits : Text.hexDigits 4 point, length with
  | [a, b, c, d], _ => exact ⟨a, b, c, d, rfl, digits ▸ value⟩

theorem readUnicode_unit {point : Nat} (small : point < 0x10000)
    (single : ¬ (0xD800 ≤ point ∧ point ≤ 0xDBFF)) (c : Char) (rest : List Char) :
    readUnicode (Text.hexDigits 4 point ++ c :: rest) = .ok (unitChar point, c :: rest) := by
  obtain ⟨a, b, c', d, digits, value⟩ := exists_hexDigits small
  simp [readUnicode, digits, value, single]

theorem readUnicode_pair {high low : Nat} (first : 0xD800 ≤ high ∧ high ≤ 0xDBFF)
    (second : 0xDC00 ≤ low ∧ low ≤ 0xDFFF) (c : Char) (rest : List Char) :
    readUnicode (Text.hexDigits 4 high ++ (unitEscape low ++ c :: rest)) =
      .ok (Char.ofNat (0x10000 + (high - 0xD800) * 1024 + (low - 0xDC00)), c :: rest) := by
  obtain ⟨a, b, c', d, digits, value⟩ := @exists_hexDigits high (by omega)
  obtain ⟨a', b', c'', d', digits', value'⟩ := @exists_hexDigits low (by omega)
  simp [readUnicode, unitEscape, digits, value, digits', value', first, second]

theorem not_half (c : Char) : ¬ (0xD800 ≤ c.toNat ∧ c.toNat ≤ 0xDFFF) := by
  have same := c.toNat_val
  rcases c.valid with low | ⟨high, -⟩ <;> omega

theorem toNat_lt (c : Char) : c.toNat < 0x110000 := by
  have same := c.toNat_val
  rcases c.valid with low | ⟨-, high⟩ <;> omega

theorem unitChar_toNat (c : Char) : unitChar c.toNat = c := by
  rw [unitChar, if_neg (not_half c), Char.ofNat_toNat]

theorem exists_pair {c : Char} (large : ¬ c.toNat < 0x10000) :
    ∃ high low, unicodeEscape c = unitEscape high ++ unitEscape low ∧
      (0xD800 ≤ high ∧ high ≤ 0xDBFF) ∧ (0xDC00 ≤ low ∧ low ≤ 0xDFFF) ∧
      Char.ofNat (0x10000 + (high - 0xD800) * 1024 + (low - 0xDC00)) = c := by
  have bound := toNat_lt c
  refine ⟨_, _, if_neg large, by omega, by omega, ?_⟩
  have point : 0x10000 + (0xD800 + (c.toNat - 0x10000) / 1024 - 0xD800) * 1024 +
      (0xDC00 + (c.toNat - 0x10000) % 1024 - 0xDC00) = c.toNat := by
    omega
  rw [point, Char.ofNat_toNat]

theorem readUnicode_unicodeEscape (c next : Char) (rest : List Char) :
    ∃ text, unicodeEscape c ++ next :: rest = '\\' :: 'u' :: text ∧
      readUnicode text = .ok (c, next :: rest) := by
  by_cases small : c.toNat < 0x10000
  · have single : ¬ (0xD800 ≤ c.toNat ∧ c.toNat ≤ 0xDBFF) := by
      have whole := not_half c
      omega
    have read := readUnicode_unit small single next rest
    rw [unitChar_toNat] at read
    refine ⟨_, ?_, read⟩
    rw [unicodeEscape, if_pos small]
    rfl
  · obtain ⟨high, low, written, first, second, same⟩ := exists_pair small
    have read := readUnicode_pair first second next rest
    rw [same] at read
    refine ⟨_, ?_, read⟩
    rw [written, List.append_assoc]
    rfl

theorem escapeChar_cases (ascii : Bool) (c : Char) :
    (∃ sign, escapeChar ascii c = ['\\', sign] ∧
      ∀ opening rest, readEscape opening (sign :: rest) = .ok (c, rest)) ∨
    escapeChar ascii c = unicodeEscape c ∨
    (escapeChar ascii c = [c] ∧ c ≠ '"' ∧ c ≠ '\\' ∧ 0x20 ≤ c.toNat) := by
  unfold escapeChar
  split
  · subst c
    exact .inl ⟨'"', rfl, fun _ _ => rfl⟩
  split
  · subst c
    exact .inl ⟨'\\', rfl, fun _ _ => rfl⟩
  split
  · subst c
    exact .inl ⟨'n', rfl, fun _ _ => rfl⟩
  split
  · subst c
    exact .inl ⟨'r', rfl, fun _ _ => rfl⟩
  split
  · subst c
    exact .inl ⟨'t', rfl, fun _ _ => rfl⟩
  split
  · subst c
    exact .inl ⟨'b', rfl, fun _ _ => rfl⟩
  split
  · subst c
    exact .inl ⟨'f', rfl, fun _ _ => rfl⟩
  split
  · exact .inr (.inl rfl)
  · rename_i quote slash _ _ _ _ _ plain
    exact .inr (.inr ⟨rfl, quote, slash, by omega⟩)

/-- Reading undoes the escape of a character. What stands behind it is never the end of the text,
since a quote closes the string. -/
theorem readChars_escapeChar (opening : List Char) (ascii : Bool) (fuel : Nat) (c next : Char)
    (rest : List Char) :
    readChars opening (fuel + 1) (escapeChar ascii c ++ next :: rest) =
      (do
        let (cs, rest) ← readChars opening fuel (next :: rest)
        return (c :: cs, rest)) := by
  rcases escapeChar_cases ascii c with
    ⟨sign, written, read⟩ | written | ⟨written, quote, slash, high⟩
  · simp only [written, List.cons_append, List.nil_append, readChars, read]
    rfl
  · obtain ⟨text, numbered, read⟩ := readUnicode_unicodeEscape c next rest
    simp only [written, numbered, readChars, readEscape, read]
    rfl
  · have visible : ¬ c.toNat ≤ 0x1f := by omega
    simp [written, readChars, visible]

theorem escapeChar_ne_nil (ascii : Bool) (c : Char) : escapeChar ascii c ≠ [] := by
  rcases escapeChar_cases ascii c with ⟨sign, written, -⟩ | written | ⟨written, -⟩
  · simp [written]
  · rw [written, unicodeEscape]
    split <;> simp [unitEscape]
  · simp [written]

theorem length_le_flatMap_escapeChar (ascii : Bool) (cs : List Char) :
    cs.length ≤ (cs.flatMap (escapeChar ascii)).length := by
  induction cs with
  | nil => exact Nat.le_refl 0
  | cons c cs inner =>
    have positive := List.length_pos_iff.mpr (escapeChar_ne_nil ascii c)
    rw [List.length_cons, List.flatMap_cons, List.length_append]
    omega

theorem readChars_flatMap (opening : List Char) (ascii : Bool) (rest : List Char) {cs : List Char}
    {fuel : Nat} (enough : cs.length < fuel) :
    readChars opening fuel (cs.flatMap (escapeChar ascii) ++ '"' :: rest) = .ok (cs, rest) := by
  induction cs generalizing fuel with
  | nil =>
    obtain ⟨fuel, rfl⟩ := Nat.exists_eq_succ_of_ne_zero (Nat.ne_zero_of_lt enough)
    rfl
  | cons c cs inner =>
    obtain ⟨fuel, rfl⟩ := Nat.exists_eq_succ_of_ne_zero (Nat.ne_zero_of_lt enough)
    rw [List.flatMap_cons, List.append_assoc]
    obtain ⟨next, more, behind⟩ : ∃ next more,
        cs.flatMap (escapeChar ascii) ++ '"' :: rest = next :: more :=
      List.exists_cons_of_ne_nil (by simp)
    rw [behind, readChars_escapeChar, ← behind, inner (Nat.lt_of_succ_lt_succ enough)]
    rfl

theorem readString_quote (ascii : Bool) (s : String) (rest : List Char) :
    readString (s.toList.flatMap (escapeChar ascii) ++ '"' :: rest) = .ok (s, rest) := by
  have enough := length_le_flatMap_escapeChar ascii s.toList
  unfold readString
  rw [readChars_flatMap _ ascii rest (by rw [List.length_append]; omega)]
  simp [String.ofList_toList]

end ApiCatalog.Json
