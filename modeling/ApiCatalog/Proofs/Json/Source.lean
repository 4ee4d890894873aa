import ApiCatalog.Document.Value
import ApiCatalog.Proofs.Json.Entries
import ApiCatalog.Proofs.Json.NumberText
import Mathlib.Data.List.Induction

/-!
JSON texts taken apart. A source keeps everything that is written: blanks, the spelling of numbers
and the escapes of strings. What it means is left to a convention for its leaves.
-/

namespace ApiCatalog.Text

theorem hexNumber?_append_singleton (digits : List Char) (c : Char) :
    hexNumber? (digits ++ [c]) = do return (← hexNumber? digits) * 16 + (← hexValue? c) := by
  unfold hexNumber?
  rw [List.foldl_append]
  rfl

theorem of_hexValue? {c : Char} {value : Nat} (found : hexValue? c = some value) :
    value < 16 ∧ 0x1f < c.toNat := by
  simp only [hexValue?, Char.le_def, UInt32.le_iff_toNat_le] at found
  split at found
  case isTrue digit =>
    cases found
    have lower : 48 ≤ c.toNat := digit.1
    have upper : c.toNat ≤ 57 := digit.2
    omega
  split at found
  case isTrue small =>
    cases found
    have lower : 97 ≤ c.toNat := small.1
    have upper : c.toNat ≤ 102 := small.2
    omega
  split at found
  case isTrue capital =>
    cases found
    have lower : 65 ≤ c.toNat := capital.1
    have upper : c.toNat ≤ 70 := capital.2
    omega
  case isFalse => cases found

theorem of_hexNumber? {digits : List Char} {point : Nat} (denotes : hexNumber? digits = some point) :
    point < 16 ^ digits.length ∧ ∀ c ∈ digits, 0x1f < c.toNat := by
  induction digits using List.reverseRecOn generalizing point with
  | nil =>
    cases denotes
    exact ⟨Nat.one_pos, nofun⟩
  | append_singleton digits c inner =>
    rw [hexNumber?_append_singleton] at denotes
    obtain ⟨front, known, rest⟩ := Option.bind_eq_some_iff.mp denotes
    obtain ⟨value, digit, same⟩ := Option.bind_eq_some_iff.mp rest
    cases same
    obtain ⟨below, visible⟩ := inner known
    obtain ⟨small, solid⟩ := of_hexValue? digit
    constructor
    · rw [List.length_append, List.length_singleton, Nat.pow_succ]
      omega
    · intro d member
      rcases List.mem_append.mp member with member | member
      · exact visible d member
      · rw [List.mem_singleton.mp member]
        exact solid

end ApiCatalog.Text

namespace ApiCatalog.Json

open Number

structure Gap where
  chars : List Char
  blank : ∀ c ∈ chars, isSpace c = true

/-! Strings. -/

structure CodeUnit where
  digits : List Char
  point : Nat
  four : digits.length = 4
  denotes : Text.hexNumber? digits = some point

def shortEscapes : List (Char × Char) :=
  [('"', '"'), ('\\', '\\'), ('/', '/'), ('b', '\x08'), ('f', '\x0c'), ('n', '\n'), ('r', '\r'),
    ('t', '\t')]

inductive Piece
  | plain (c : Char) (solid : 0x1f < c.toNat ∧ c ≠ '"' ∧ c ≠ '\\')
  | short (escape : Char × Char) (listed : escape ∈ shortEscapes)
  | unit (code : CodeUnit)
  /-- Two escapes for the halves of one character. -/
  | pair (high low : CodeUnit) (first : 0xD800 ≤ high.point ∧ high.point ≤ 0xDBFF)
    (second : 0xDC00 ≤ low.point ∧ low.point ≤ 0xDFFF)

namespace Piece

def text : Piece → List Char
  | plain c _ => [c]
  | short escape _ => ['\\', escape.1]
  | unit code => '\\' :: 'u' :: code.digits
  | pair high low _ _ => '\\' :: 'u' :: high.digits ++ '\\' :: 'u' :: low.digits

def char : Piece → Char
  | plain c _ => c
  | short escape _ => escape.2
  | unit code => unitChar code.point
  | pair high low _ _ =>
    Char.ofNat (0x10000 + (high.point - 0xD800) * 1024 + (low.point - 0xDC00))

theorem visible_of_mem_text {piece : Piece} {c : Char} (member : c ∈ piece.text) :
    0x1f < c.toNat := by
  have mark : c = '\\' ∨ c = 'u' → 0x1f < c.toNat := by
    rintro (rfl | rfl) <;> decide
  have digit (code : CodeUnit) (member : c ∈ code.digits) : 0x1f < c.toNat :=
    (Text.of_hexNumber? code.denotes).2 c member
  cases piece with
  | plain d solid =>
    obtain rfl := List.mem_singleton.mp member
    exact solid.1
  | short escape listed =>
    have every : ∀ escape ∈ shortEscapes, 0x1f < escape.1.toNat := by decide
    simp only [text, List.mem_cons, List.not_mem_nil, or_false] at member
    rcases member with slash | rfl
    · exact mark (.inl slash)
    · exact every escape listed
  | unit code =>
    simp only [text, List.mem_cons] at member
    rcases member with slash | letter | member
    · exact mark (.inl slash)
    · exact mark (.inr letter)
    · exact digit code member
  | pair high low =>
    simp only [text, List.mem_append, List.mem_cons] at member
    rcases member with (slash | letter | member) | slash | letter | member
    · exact mark (.inl slash)
    · exact mark (.inr letter)
    · exact digit high member
    · exact mark (.inl slash)
    · exact mark (.inr letter)
    · exact digit low member

end Piece

def quoted (pieces : List Piece) : List Char :=
  '"' :: (pieces.flatMap Piece.text ++ ['"'])

/-! Numbers. -/

structure Exponent where
  mark : Char
  sign : Option Char
  digits : List Char
  marks : mark = 'e' ∨ mark = 'E'
  signs : ∀ c ∈ sign, c = '+' ∨ c = '-'
  digit : ∀ c ∈ digits, c.isDigit = true
  nonempty : digits ≠ []

namespace Exponent

def text (exponent : Exponent) : List Char :=
  exponent.mark :: (exponent.sign.toList ++ exponent.digits)

def size (exponent : Exponent) : Int :=
  if exponent.sign = some '-' then -(ofDigits exponent.digits : Int)
  else ofDigits exponent.digits

end Exponent

structure Numeral where
  negative : Bool
  whole : List Char
  fraction : List Char
  exponent : Option Exponent
  wholeDigit : ∀ c ∈ whole, c.isDigit = true
  leading : whole = ['0'] ∨ ∃ first more, whole = first :: more ∧ first ≠ '0'
  fractionDigit : ∀ c ∈ fraction, c.isDigit = true
  short : fraction = [] → exponent = none → whole.length ≤ digitLimit

namespace Numeral

def tail (numeral : Numeral) : List Char :=
  (if numeral.fraction = [] then [] else '.' :: numeral.fraction) ++
    numeral.exponent.elim [] Exponent.text

def text (numeral : Numeral) : List Char :=
  (if numeral.negative then ['-'] else []) ++ numeral.whole ++ numeral.tail

def IsWhole (numeral : Numeral) : Prop :=
  numeral.fraction = [] ∧ numeral.exponent = none

instance (numeral : Numeral) : Decidable numeral.IsWhole :=
  inferInstanceAs (Decidable (_ ∧ _))

def value (numeral : Numeral) : Value :=
  if numeral.IsWhole then
    .int (if numeral.negative then -(ofDigits numeral.whole : Int) else ofDigits numeral.whole)
  else
    .float (Double.ofDecimal numeral.negative (ofDigits (numeral.whole ++ numeral.fraction))
      (numeral.exponent.elim 0 Exponent.size - numeral.fraction.length))

theorem exists_whole (numeral : Numeral) :
    ∃ first more, numeral.whole = first :: more ∧ first.isDigit = true := by
  obtain ⟨first, more, whole⟩ : ∃ first more, numeral.whole = first :: more := by
    rcases numeral.leading with zero | ⟨first, more, whole, -⟩
    · exact ⟨_, _, zero⟩
    · exact ⟨first, more, whole⟩
  exact ⟨first, more, whole, numeral.wholeDigit first (whole ▸ List.mem_cons_self)⟩

end Numeral

/-! Values. -/

mutual

inductive Source
  | string (pieces : List Piece)
  | word (word : List Char × Json) (listed : word ∈ valueWords)
  | number (numeral : Numeral)
  | emptyList (gap : Gap)
  | list (gap : Gap) (items : Items)
  | emptyObject (gap : Gap)
  | object (gap : Gap) (members : Members)

inductive Items
  | last (item : Source) (after : Gap)
  | more (item : Source) (after gap : Gap) (rest : Items)

inductive Members
  | last (name : List Piece) (close far : Gap) (value : Source) (after : Gap)
  | more (name : List Piece) (close far : Gap) (value : Source) (after gap : Gap) (rest : Members)

end

mutual

def Source.text : Source → List Char
  | .string pieces => quoted pieces
  | .word word _ => word.1
  | .number numeral => numeral.text
  | .emptyList gap => '[' :: (gap.chars ++ [']'])
  | .list gap items => '[' :: (gap.chars ++ (items.text ++ [']']))
  | .emptyObject gap => '\x7b' :: (gap.chars ++ ['\x7d'])
  | .object gap members => '\x7b' :: (gap.chars ++ (members.text ++ ['\x7d']))

def Items.text : Items → List Char
  | .last item after => item.text ++ after.chars
  | .more item after gap rest => item.text ++ (after.chars ++ ',' :: (gap.chars ++ rest.text))

def Members.text : Members → List Char
  | .last name close far value after =>
    quoted name ++ (close.chars ++ ':' :: (far.chars ++ (value.text ++ after.chars)))
  | .more name close far value after gap rest =>
    quoted name ++ (close.chars ++ ':' :: (far.chars ++ (value.text ++ (after.chars ++
      ',' :: (gap.chars ++ rest.text)))))

end

/-- What the leaves of a source mean. -/
structure Convention where
  number : Numeral → Value
  word : List Char × Json → Value
  chars : Piece → List Char

def Convention.string (as : Convention) (pieces : List Piece) : Value :=
  .text (String.ofList (pieces.flatMap as.chars))

/-- Numbers have the value that their digits denote, and two halves are one character. -/
def Convention.json : Convention where
  number := Numeral.value
  word word := Value.ofJson word.2
  chars piece := [piece.char]

mutual

def Source.value (as : Convention) : Source → Value
  | .string pieces => as.string pieces
  | .word word _ => as.word word
  | .number numeral => as.number numeral
  | .emptyList _ => .list []
  | .list _ items => .list (items.values as)
  | .emptyObject _ => .map []
  | .object _ members => .map (collectEntries Value.same (members.entries as))

def Items.values (as : Convention) : Items → List Value
  | .last item _ => [item.value as]
  | .more item _ _ rest => item.value as :: rest.values as

def Members.entries (as : Convention) : Members → List (Value × Value)
  | .last name _ _ value _ => [(as.string name, value.value as)]
  | .more name _ _ value _ _ rest => (as.string name, value.value as) :: rest.entries as

end

end ApiCatalog.Json
