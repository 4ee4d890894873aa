/-!
Binary floating-point numbers of double precision, as exact values. Every finite double is a whole
number of quanta of size `2 ^ -1074`, so comparison and rounding are arithmetic on natural numbers.
Rounding takes the nearest double and, between two equally near ones, the one whose significand
is even.
-/

namespace ApiCatalog.Number

def unit : Nat := Nat.pow 2 1074

def rangeWidth : Nat := 2098

/-- The first number of quanta beyond the range of doubles, `2 ^ 1024` units. -/
def rangeEnd : Nat := Nat.pow 2 rangeWidth

theorem rangeEnd_pos : 0 < rangeEnd := by
  unfold rangeEnd
  generalize rangeWidth = width
  exact Nat.two_pow_pos width

/-- Numbers of quanta written with a significand of fifty-three binary digits. -/
def Fits (quanta : Nat) : Prop :=
  ∃ significand scale, significand < Nat.pow 2 53 ∧ quanta = significand * Nat.pow 2 scale

structure Magnitude where
  quanta : Nat
  fits : Fits quanta
  inRange : quanta < rangeEnd
deriving DecidableEq

inductive Double
  | nan
  | infinite (negative : Bool)
  | finite (negative : Bool) (magnitude : Magnitude)
deriving DecidableEq

/-- The natural number nearest to a quotient, the even one of two equally near. -/
def roundQuotient (num den : Nat) : Nat :=
  if 2 * (num % den) < den ∨ (2 * (num % den) = den ∧ (num / den) % 2 = 0) then num / den
  else num / den + 1

def nearestQuanta (num den : Nat) : Nat :=
  let scale := (num / den).log2 - 52
  roundQuotient num (den * Nat.pow 2 scale) * Nat.pow 2 scale

theorem roundQuotient_le (num den : Nat) : roundQuotient num den ≤ num / den + 1 := by
  unfold roundQuotient
  split <;> omega

theorem fits_nearestQuanta (num den : Nat) : Fits (nearestQuanta num den) := by
  let scale := (num / den).log2 - 52
  have small : num / (den * 2 ^ scale) < 2 ^ 53 := by
    rw [← Nat.div_div_eq_div_mul]
    apply Nat.div_lt_of_lt_mul
    rw [← Nat.pow_add]
    exact Nat.lt_of_lt_of_le Nat.lt_log2_self
      (Nat.pow_le_pow_right (by decide) (by simp only [scale]; omega))
  have rounded := roundQuotient_le num (den * 2 ^ scale)
  -- A significand that rounds up to a power of two goes to the next scale.
  by_cases carry : roundQuotient num (den * 2 ^ scale) = 2 ^ 53
  · refine ⟨2 ^ 52, scale + 1, by decide, ?_⟩
    show roundQuotient num (den * 2 ^ scale) * 2 ^ scale = 2 ^ 52 * 2 ^ (scale + 1)
    rw [carry, Nat.pow_succ 2 scale]
    omega
  · have below : roundQuotient num (den * 2 ^ scale) < 2 ^ 53 := by omega
    exact ⟨roundQuotient num (den * 2 ^ scale), scale, below, rfl⟩

def Magnitude.ofQuanta? (num den : Nat) : Option Magnitude :=
  if inRange : nearestQuanta num den < rangeEnd then
    some ⟨nearestQuanta num den, fits_nearestQuanta num den, inRange⟩
  else none

namespace Double

def zero (negative : Bool) : Double :=
  .finite negative ⟨0, ⟨0, 0, by decide, rfl⟩, rangeEnd_pos⟩

def ofQuanta (negative : Bool) (num den : Nat) : Double :=
  match Magnitude.ofQuanta? num den with
  | some magnitude => .finite negative magnitude
  | none => .infinite negative

/-- The double nearest to `digits * 10 ^ exponent`. Values that are certainly beyond the range or
below half a quantum are settled without computing the power. -/
def ofDecimal (negative : Bool) (digits : Nat) (exponent : Int) : Double :=
  if digits = 0 then zero negative
  else if 310 ≤ exponent then .infinite negative
  else if exponent ≤ -((digits.log2 : Int) + 1080) then zero negative
  else if 0 ≤ exponent then ofQuanta negative (digits * Nat.pow 10 exponent.toNat * unit) 1
  else ofQuanta negative (digits * unit) (Nat.pow 10 (-exponent).toNat)

def ofInt? (n : Int) : Option Double :=
  (Magnitude.ofQuanta? (n.natAbs * unit) 1).map (.finite (decide (n < 0)))

def toInt? : Double → Option Int
  | .finite negative magnitude =>
    if magnitude.quanta % unit = 0 then
      let whole : Int := ((magnitude.quanta / unit : Nat) : Int)
      some (if negative then -whole else whole)
    else none
  | _ => none

def isFinite : Double → Bool
  | .finite _ _ => true
  | _ => false

def sameNumber : Double → Double → Bool
  | .finite n a, .finite m b => a.quanta == b.quanta && (n == m || a.quanta == 0)
  | .infinite n, .infinite m => n == m
  | _, _ => false

def isInt (x : Double) (n : Int) : Bool :=
  x.toInt? == some n

def isZero : Double → Bool
  | .finite _ magnitude => magnitude.quanta == 0
  | _ => false

def neg : Double → Double
  | .nan => .nan
  | .infinite negative => .infinite !negative
  | .finite negative magnitude => .finite (!negative) magnitude

def add : Double → Double → Double
  | .nan, _ | _, .nan => .nan
  | .infinite n, .infinite m => if n = m then .infinite n else .nan
  | .infinite n, .finite _ _ | .finite _ _, .infinite n => .infinite n
  | .finite n a, .finite m b =>
    if n = m then ofQuanta n (a.quanta + b.quanta) 1
    else if a.quanta = b.quanta then zero false
    else if b.quanta < a.quanta then ofQuanta n (a.quanta - b.quanta) 1
    else ofQuanta m (b.quanta - a.quanta) 1

def mul : Double → Double → Double
  | .nan, _ | _, .nan => .nan
  | .infinite n, .infinite m => .infinite (n != m)
  | .infinite n, .finite m a | .finite m a, .infinite n =>
    if a.quanta = 0 then .nan else .infinite (n != m)
  | .finite n a, .finite m b => ofQuanta (n != m) (a.quanta * b.quanta) unit

end Double
end ApiCatalog.Number
