import ApiCatalog.Number.Double
import ApiCatalog.Number.Integer
import ApiCatalog.Text.Blank
import ApiCatalog.Text.CharClass

/-! Reading doubles from text: decimal literals with optional fraction and exponent, and the words
for infinity and not-a-number. -/

namespace ApiCatalog.Number

def splitSign : List Char → Bool × List Char
  | '-' :: rest => (true, rest)
  | '+' :: rest => (false, rest)
  | text => (false, text)

def readExponent? (text : List Char) : Option Int :=
  let (negative, digits) := splitSign text
  if digits.isEmpty || !digits.all Char.isDigit then none
  else
    let size : Int := (ofDigits digits : Nat)
    some (if negative then -size else size)

def readUnsigned? (negative : Bool) (text : List Char) : Option Double :=
  let whole := text.takeWhile Char.isDigit
  let afterWhole := text.dropWhile Char.isDigit
  let (fraction, rest) := match afterWhole with
    | '.' :: more => (more.takeWhile Char.isDigit, more.dropWhile Char.isDigit)
    | other => ([], other)
  if whole.isEmpty && fraction.isEmpty then none
  else
    let value (exponent : Int) :=
      Double.ofDecimal negative (ofDigits (whole ++ fraction)) (exponent - fraction.length)
    match rest with
    | [] => some (value 0)
    | mark :: more =>
      if mark = 'e' ∨ mark = 'E' then (readExponent? more).map value else none

def readDouble? (text : List Char) : Option Double :=
  let (negative, rest) := splitSign text
  let word := rest.map Char.toLower
  if word = ['i', 'n', 'f'] ∨ word = ['i', 'n', 'f', 'i', 'n', 'i', 't', 'y'] then
    some (.infinite negative)
  else if word = ['n', 'a', 'n'] then some .nan
  else readUnsigned? negative rest

/-- A character outside ASCII as it counts in a number: white space as a space, a digit of any
script as its ASCII digit. -/
def asciiForm (c : Char) : Char :=
  if c.toNat < 128 then c
  else if Text.isBlank c then ' '
  else match Text.digitValue? c with
    | some value => Nat.digitChar value
    | none => c

def isMargin (c : Char) : Bool :=
  c == ' ' || (decide (9 ≤ c.toNat) && decide (c.toNat ≤ 13))

def asciiText (text : List Char) : List Char :=
  Text.stripBy isMargin (text.map asciiForm)

def doubleOfText? (text : List Char) : Option Double :=
  readDouble? (asciiText text)

end ApiCatalog.Number
