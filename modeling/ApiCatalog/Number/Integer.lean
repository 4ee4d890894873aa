/-! Whole numbers in decimal notation. -/

namespace ApiCatalog.Number

def digitsOf (n : Nat) : List Char :=
  Nat.toDigits 10 n

def integerText (n : Int) : List Char :=
  if n < 0 then '-' :: digitsOf n.natAbs else digitsOf n.natAbs

def paddedDigits (width n : Nat) : List Char :=
  let digits := digitsOf n
  List.replicate (width - digits.length) '0' ++ digits

def ofDigits (digits : List Char) : Nat :=
  Nat.ofDigitChars 10 digits 0

/-- The most decimal digits that a whole number may have to be read from or written as text. -/
def digitLimit : Nat := 4300

def isWord (n : Int) : Bool :=
  decide (-Int.ofNat (Nat.pow 2 63) ≤ n) && decide (n < Int.ofNat (Nat.pow 2 63))

def withinDigitLimit (n : Int) : Bool :=
  decide (n.natAbs < Nat.pow 10 digitLimit)

theorem ofDigits_digitsOf (n : Nat) : ofDigits (digitsOf n) = n :=
  Nat.ofDigitChars_toDigits (by decide) (by decide)

theorem isDigit_of_mem_digitsOf {n : Nat} {c : Char} (member : c ∈ digitsOf n) :
    c.isDigit = true :=
  Nat.isDigit_of_mem_toDigits (by decide) (by decide) member

end ApiCatalog.Number
