import ApiCatalog.Number.Double
import ApiCatalog.Number.Integer

/-!
Decimal text of doubles. The digits are the fewest that read back as the same double, and of those
the nearest to it; how the digits are laid out is a matter of the format that shows them.
-/

namespace ApiCatalog.Number

structure Decimal where
  digits : Nat
  exponent : Int
deriving DecidableEq, Repr

def Decimal.trim : Nat → Decimal → Decimal
  | 0, d => d
  | fuel + 1, d =>
    if d.digits % 10 = 0 ∧ d.digits ≠ 0 then Decimal.trim fuel ⟨d.digits / 10, d.exponent + 1⟩
    else d

def Decimal.readsAs (magnitude : Magnitude) (d : Decimal) : Bool :=
  Double.ofDecimal false d.digits d.exponent == .finite false magnitude

def leadingExponent (magnitude : Magnitude) : Int :=
  let binary : Int := (magnitude.quanta.log2 : Int) - 1074
  -- The decimal logarithm of two is a little less than 0.30103, so the guess is off by one at most.
  let guess := Int.fdiv (binary * 30103) 100000
  let next := guess + 1
  let reached :=
    if 0 ≤ next then decide (Nat.pow 10 next.toNat * unit ≤ magnitude.quanta)
    else decide (unit ≤ magnitude.quanta * Nat.pow 10 (-next).toNat)
  if reached then next else guess

/-- Of the two numbers next to a magnitude on the grid `10 ^ exponent`, the nearest one that reads
back as it. -/
def nearestOnGrid (magnitude : Magnitude) (exponent : Int) : Option Decimal :=
  let num :=
    if 0 ≤ exponent then magnitude.quanta else magnitude.quanta * Nat.pow 10 (-exponent).toNat
  let den := if 0 ≤ exponent then unit * Nat.pow 10 exponent.toNat else unit
  let low : Decimal := ⟨num / den, exponent⟩
  let high : Decimal := ⟨num / den + 1, exponent⟩
  let nearest : Decimal := ⟨roundQuotient num den, exponent⟩
  -- Below a power of two doubles lie closer together than above it: there the nearest number may
  -- miss the double while the one on the other side meets it.
  if nearest.readsAs magnitude then some nearest
  else if low.readsAs magnitude then some low
  else if high.readsAs magnitude then some high
  else none

/-- The fewest decimal digits that read back as a magnitude. Seventeen digits always do; the exact
expansion stands behind them. -/
def shortest (magnitude : Magnitude) : Decimal :=
  let leading := leadingExponent magnitude
  match (List.range 17).findSome? fun (more : Nat) => nearestOnGrid magnitude (leading - more) with
  | some d => d.trim 20
  | none => ⟨magnitude.quanta * Nat.pow 5 1074, -1074⟩

structure DecimalLayout where
  /-- The least exponent of the leading digit that is written without exponent. -/
  lowest : Int
  /-- The least exponent of the leading digit above those that is written with one again. -/
  limit : Int
  /-- The fewest digits of an exponent, which always has a sign. -/
  exponentWidth : Nat
  nan : List Char
  infinity : List Char

def DecimalLayout.exponentText (layout : DecimalLayout) (exponent : Int) : List Char :=
  (if exponent < 0 then '-' else '+') :: paddedDigits layout.exponentWidth exponent.natAbs

def DecimalLayout.place (layout : DecimalLayout) (d : Decimal) : List Char :=
  let digits := digitsOf d.digits
  let leading : Int := (digits.length : Int) - 1 + d.exponent
  if layout.lowest ≤ leading ∧ leading < layout.limit then
    -- The point stands before, behind or among the digits.
    if leading < 0 then
      '0' :: '.' :: (List.replicate ((-leading).toNat - 1) '0' ++ digits)
    else if 0 ≤ d.exponent then
      digits ++ List.replicate d.exponent.toNat '0' ++ ['.', '0']
    else
      digits.take (leading.toNat + 1) ++ '.' :: digits.drop (leading.toNat + 1)
  else
    let (first, more) := (digits.take 1, digits.drop 1)
    first ++ (if more.isEmpty then [] else '.' :: more) ++ 'e' :: layout.exponentText leading

def DecimalLayout.text (layout : DecimalLayout) : Double → List Char
  | .nan => layout.nan
  | .infinite negative => (if negative then ['-'] else []) ++ layout.infinity
  | .finite negative magnitude =>
    (if negative then ['-'] else []) ++
      (if magnitude.quanta = 0 then ['0', '.', '0'] else layout.place (shortest magnitude))

end ApiCatalog.Number
