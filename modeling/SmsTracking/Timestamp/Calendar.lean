/-!
The proleptic Gregorian calendar: days are counted from the first of January 1970. Years run from
March to February inside the conversion, so a leap day is the last day of its year and the length
of a month depends on its place alone.
-/

namespace SmsTracking

structure Date where
  year : Int
  month : Nat
  day : Nat
deriving DecidableEq, Repr

namespace Date

def isLeapYear (year : Int) : Bool := year % 4 == 0 && (year % 100 != 0 || year % 400 == 0)

def daysInMonth (year : Int) (month : Nat) : Nat :=
  if month = 2 then if isLeapYear year then 29 else 28
  else if month ∈ [4, 6, 9, 11] then 30 else 31

def IsValid (d : Date) : Prop :=
  1 ≤ d.month ∧ d.month ≤ 12 ∧ 1 ≤ d.day ∧ d.day ≤ daysInMonth d.year d.month

instance (d : Date) : Decidable d.IsValid := inferInstanceAs (Decidable (_ ∧ _ ∧ _ ∧ _))

def cycle : Int := 146097

/-- From the first of March of the year 0 to the first of January 1970. -/
def epochShift : Int := 719468

/-- The day of a year that starts on the first of March, from 0. -/
def dayOfYear (d : Date) : Nat := (153 * ((d.month + 9) % 12) + 2) / 5 + (d.day - 1)

def toDay (d : Date) : Int :=
  let year := if d.month ≤ 2 then d.year - 1 else d.year
  let ofCycle := (year % 400).toNat
  year / 400 * cycle + (ofCycle * 365 + ofCycle / 4 - ofCycle / 100 + d.dayOfYear : Nat) -
    epochShift

/-- The year, from 0, in which day `n` of a cycle lies, and its day in that year. The last century
of a cycle and the last year of four hold one day more than the others. -/
def yearOfCycle (n : Nat) : Nat × Nat :=
  let century := min (n / 36524) 3
  let ofCentury := n - century * 36524
  let ofFour := ofCentury % 1461
  let year := min (ofFour / 365) 3
  (century * 100 + ofCentury / 1461 * 4 + year, ofFour - year * 365)

def ofDay (day : Int) : Date :=
  let shifted := day + epochShift
  let (year, ofYear) := yearOfCycle (shifted % cycle).toNat
  let place := (5 * ofYear + 2) / 153
  let month := if place < 10 then place + 3 else place - 9
  { year := shifted / cycle * 400 + year + (if month ≤ 2 then 1 else 0)
    month := month
    day := ofYear - (153 * place + 2) / 5 + 1 }

end Date

end SmsTracking
