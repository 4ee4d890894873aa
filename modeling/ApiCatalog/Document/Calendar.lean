import ApiCatalog.Number.Integer

/-! Days and moments as documents write them. -/

namespace ApiCatalog

structure Date where
  year : Nat
  month : Nat
  day : Nat
deriving DecidableEq, Repr

structure Moment where
  date : Date
  hour : Nat
  minute : Nat
  second : Nat
  microsecond : Nat
  offset : Option Int
deriving DecidableEq, Repr

namespace Date

def isLeapYear (year : Nat) : Bool :=
  year % 4 == 0 && (year % 100 != 0 || year % 400 == 0)

def monthLength (year month : Nat) : Nat :=
  if month = 2 then (if isLeapYear year then 29 else 28)
  else if month = 4 ∨ month = 6 ∨ month = 9 ∨ month = 11 then 30
  else 31

def isValid (d : Date) : Bool :=
  decide (1 ≤ d.year) && decide (d.year ≤ 9999) && decide (1 ≤ d.month) && decide (d.month ≤ 12) &&
    decide (1 ≤ d.day) && decide (d.day ≤ monthLength d.year d.month)

def daysBeforeYear (year : Nat) : Nat :=
  let past := year - 1
  past * 365 + past / 4 - past / 100 + past / 400

/-- The number of the day, counted from the first day of year one. -/
def ordinal (d : Date) : Nat :=
  let months := (List.range (d.month - 1)).map fun m => monthLength d.year (m + 1)
  daysBeforeYear d.year + months.foldr (· + ·) 0 + d.day

end Date

def Date.text (d : Date) : List Char :=
  Number.paddedDigits 4 d.year ++ '-' :: Number.paddedDigits 2 d.month ++
    '-' :: Number.paddedDigits 2 d.day

namespace Moment

def isValid (m : Moment) : Bool :=
  m.date.isValid && decide (m.hour < 24) && decide (m.minute < 60) && decide (m.second < 60) &&
    match m.offset with
    | none => true
    | some minutes => decide (minutes.natAbs < 1440)

/-- Microseconds since the first day, in universal time if the offset is known. -/
def instant (m : Moment) : Int :=
  let seconds : Int :=
    (((m.date.ordinal * 24 + m.hour) * 60 + m.minute) * 60 + m.second : Nat)
  -- Clocks east of the meridian are ahead of universal time.
  (seconds - 60 * m.offset.getD 0) * 1000000 + m.microsecond

/-- Whether two moments are the same; one with an offset never equals one without. -/
def same (a b : Moment) : Bool :=
  a.offset.isSome == b.offset.isSome && a.instant == b.instant

def offsetText (minutes : Int) : List Char :=
  (if minutes < 0 then '-' else '+') ::
    (Number.paddedDigits 2 (minutes.natAbs / 60) ++
      ':' :: Number.paddedDigits 2 (minutes.natAbs % 60))

def text (separator : Char) (m : Moment) : List Char :=
  m.date.text ++ separator :: (Number.paddedDigits 2 m.hour ++
    ':' :: Number.paddedDigits 2 m.minute ++ ':' :: Number.paddedDigits 2 m.second ++
    (if m.microsecond = 0 then [] else '.' :: Number.paddedDigits 6 m.microsecond) ++
    match m.offset with
    | none => []
    | some minutes => offsetText minutes)

end Moment
end ApiCatalog
