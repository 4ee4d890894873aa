import ApiCatalog.Proofs.Json.NumberText
import ApiCatalog.Proofs.Json.StringText

/-!
The characters of JSON texts. No text of a value holds a carriage return, since strings escape it,
so unifying the line breaks of such a text changes nothing.
-/

namespace ApiCatalog.Json

open Number

theorem return_notMem_of_digits {cs : List Char} (digit : ∀ c ∈ cs, c.isDigit = true) :
    '\r' ∉ cs :=
  fun member => absurd (digit '\r' member) (by decide)

theorem return_notMem_hexDigits (width n : Nat) : '\r' ∉ Text.hexDigits width n := by
  induction width generalizing n with
  | zero => simp [Text.hexDigits]
  | succ width inner =>
    have digit : ∀ d < 16, '\r' ≠ Nat.digitChar d := by decide
    have last := digit (n % 16) (Nat.mod_lt n (by decide))
    simp [Text.hexDigits, inner, last]

theorem return_notMem_escapeChar (ascii : Bool) (c : Char) : '\r' ∉ escapeChar ascii c := by
  rcases escapeChar_cases ascii c with ⟨sign, written, read⟩ | written | ⟨written, -, -, high⟩
  · rw [written]
    intro member
    have same : sign = '\r' := by
      simpa [eq_comm] using member
    have known := read [] []
    rw [same] at known
    cases known
  · have unit : ∀ point, '\r' ∉ unitEscape point := by
      intro point
      simp [unitEscape, return_notMem_hexDigits]
    rw [written, unicodeEscape]
    split
    · exact unit _
    · simp [unit]
  · rw [written]
    intro member
    obtain rfl := List.mem_singleton.mp member
    exact absurd high (by decide)

theorem return_notMem_quote (ascii : Bool) (s : String) : '\r' ∉ quote ascii s := by
  have inner : '\r' ∉ s.toList.flatMap (escapeChar ascii) := by
    intro member
    obtain ⟨c, -, inside⟩ := List.mem_flatMap.mp member
    exact return_notMem_escapeChar ascii c inside
  simp [quote, inner]

theorem return_notMem_integerText (n : Int) : '\r' ∉ integerText n := by
  have digits := return_notMem_of_digits fun c (member : c ∈ digitsOf n.natAbs) =>
    isDigit_of_mem_digitsOf member
  unfold integerText
  split <;> simp [digits]

theorem return_notMem_exponentPart (layout : DecimalLayout) (exponent : Option Int) :
    '\r' ∉ Literal.exponentPart layout exponent := by
  cases exponent with
  | none => simp [Literal.exponentPart]
  | some exponent =>
    have digits := return_notMem_of_digits fun c
      (member : c ∈ paddedDigits layout.exponentWidth exponent.natAbs) =>
        isDigit_of_mem_paddedDigits member
    by_cases negative : exponent < 0 <;>
      simp [Literal.exponentPart, DecimalLayout.exponentText, negative, digits]

theorem return_notMem_floatText (x : Double) : '\r' ∉ floatText x := by
  cases x with
  | nan => simp [floatText]
  | infinite negative => simp [floatText]
  | finite negative magnitude =>
    obtain ⟨literal, wellFormed, -, whole⟩ := exists_literal negative magnitude []
    have front := return_notMem_of_digits wellFormed.whole
    have fraction := return_notMem_of_digits wellFormed.fraction
    have behind := return_notMem_exponentPart numberLayout literal.exponent
    rw [List.append_nil, List.append_nil] at whole
    rw [whole, Literal.tail]
    split <;> split <;> simp [front, fraction, behind]

theorem return_notMem_lineBreak (style : Style) (depth : Nat) : '\r' ∉ style.lineBreak depth := by
  unfold Style.lineBreak
  split <;> simp

theorem return_notMem_colon (style : Style) : '\r' ∉ style.colon := by
  unfold Style.colon
  split <;> decide

mutual

theorem return_notMem_write (style : Style) (depth : Nat) : ∀ value, '\r' ∉ write style depth value
  | .null | .bool true | .bool false | .list [] | .object [] => by simp [write]
  | .int n => return_notMem_integerText n
  | .float x => return_notMem_floatText x
  | .string s => return_notMem_quote style.ascii s
  | .list (item :: items) => by
    simp [write, return_notMem_lineBreak, return_notMem_write style (depth + 1) item,
      return_notMem_writeItems style (depth + 1) items]
  | .object ((name, value) :: members) => by
    simp [write, return_notMem_lineBreak, return_notMem_colon, return_notMem_quote,
      return_notMem_write style (depth + 1) value,
      return_notMem_writeMembers style (depth + 1) members]

theorem return_notMem_writeItems (style : Style) (depth : Nat) :
    ∀ items, '\r' ∉ writeItems style depth items
  | [] => by simp [writeItems]
  | item :: items => by
    simp [writeItems, return_notMem_lineBreak, return_notMem_write style depth item,
      return_notMem_writeItems style depth items]

theorem return_notMem_writeMembers (style : Style) (depth : Nat) :
    ∀ members, '\r' ∉ writeMembers style depth members
  | [] => by simp [writeMembers]
  | (name, value) :: members => by
    simp [writeMembers, return_notMem_lineBreak, return_notMem_colon, return_notMem_quote,
      return_notMem_write style depth value, return_notMem_writeMembers style depth members]

end

end ApiCatalog.Json
