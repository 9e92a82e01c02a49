import SmsTracking.Timestamp.Calendar

/-!
Points in time: a day, a second of the day and nanoseconds, in coordinated universal time. From one to
two billion nanoseconds a second runs on into a leap second, at the end of a minute or anywhere else.
Timestamps are ordered by day, second and nanosecond; the distance between two of them counts a leap
second that lies between them.
-/

namespace SmsTracking

structure Timestamp where
  day : Int
  second : Nat
  nano : Nat
  day_mem : -96465292 ≤ day ∧ day ≤ 95026236 := by decide
  second_lt : second < 86400 := by decide
  nano_lt : nano < 2000000000 := by decide
deriving DecidableEq

namespace Timestamp

def firstDay : Int := -96465292

def lastDay : Int := 95026236

/-- The timestamp with the given parts, if they are in range. -/
def ofParts? (day : Int) (second nano : Nat) : Option Timestamp :=
  if h : (firstDay ≤ day ∧ day ≤ lastDay) ∧ second < 86400 ∧ nano < 2000000000 then
    some ⟨day, second, nano, h.1, h.2.1, h.2.2⟩
  else none

def epoch : Timestamp := { day := 0, second := 0, nano := 0 }

instance : Inhabited Timestamp := ⟨epoch⟩

instance : LT Timestamp where
  lt a b := a.day < b.day ∨ a.day = b.day ∧
    (a.second < b.second ∨ a.second = b.second ∧ a.nano < b.nano)

instance : LE Timestamp where
  le a b := ¬ b < a

instance (a b : Timestamp) : Decidable (a < b) := inferInstanceAs (Decidable (_ ∨ _))

instance (a b : Timestamp) : Decidable (a ≤ b) := inferInstanceAs (Decidable (¬ _))

/-- One for each leap second that a difference of seconds of the day passes over. -/
def leapAdjustment (a b : Timestamp) : Int :=
  if b.second < a.second then if b.nano ≥ 1000000000 then 1 else 0
  else if a.second < b.second then if a.nano ≥ 1000000000 then -1 else 0
  else 0

/-- Nanoseconds from `b` to `a`. -/
def sub (a b : Timestamp) : Int :=
  ((a.day - b.day) * 86400 + (a.second - b.second) + leapAdjustment a b) * 1000000000 +
    (a.nano - b.nano)

instance : HSub Timestamp Timestamp Int := ⟨sub⟩

/-- Whole milliseconds from `started` to `finish`, 0 if the end lies before the start. -/
def millisecondsSince (finish started : Timestamp) : Nat := ((finish - started : Int) / 1000000).toNat

end Timestamp

end SmsTracking
