import SmsTracking.Decimal.Digits
import SmsTracking.Text.Blank
import SmsTracking.Timestamp.Basic

/-!
Timestamps as text. They are written as `YYYY-MM-DDTHH:MM:SS`, a fraction of three, six or nine
digits where one is needed, and `Z`; a year outside 0 to 9999 has a sign. A leap second is written as
the second after its own, the sixtieth at the end of a minute. The reader is wider: it takes short
numbers, blanks between the parts, any offset, and a sixtieth second.
-/

namespace SmsTracking.Timestamp

open Decimal Text

def writeYear (year : Int) : List Char :=
  if year < 0 then '-' :: padded 4 year.natAbs
  else if year ≤ 9999 then padded 4 year.toNat
  else '+' :: padded 4 year.toNat

def writeFraction (nano : Nat) : List Char :=
  if nano = 0 then []
  else if nano % 1000000 = 0 then '.' :: padded 3 (nano / 1000000)
  else if nano % 1000 = 0 then '.' :: padded 6 (nano / 1000)
  else '.' :: padded 9 nano

/-- A leap second is written as the second after its own. -/
def writeClock (second nano : Nat) : List Char :=
  let leap := nano / 1000000000
  padded 2 (second / 3600) ++ ':' :: padded 2 (second / 60 % 60) ++
    ':' :: padded 2 (second % 60 + leap) ++ writeFraction (nano % 1000000000)

def render (t : Timestamp) : List Char :=
  let date := Date.ofDay t.day
  writeYear date.year ++ '-' :: padded 2 date.month ++ '-' :: padded 2 date.day ++
    'T' :: writeClock t.second t.nano ++ ['Z']

instance : ToString Timestamp := ⟨fun t => String.ofList t.render⟩

/-- A number of one or more digits, at most `most`, after blanks. -/
def number? (most : Nat) (cs : List Char) : Option (Nat × List Char) :=
  match takeDigits most (skipBlanks cs) with
  | ([], _) => none
  | (ds, rest) => some (value ds, rest)

/-- A number without a limit on its digits, right where it is expected. -/
def longNumber? (cs : List Char) : Option (Nat × List Char) :=
  match takeDigits cs.length cs with
  | ([], _) => none
  | (ds, rest) => some (value ds, rest)

/-- At most four digits, or a sign and any number of them. -/
def year? (cs : List Char) : Option (Int × List Char) :=
  match skipBlanks cs with
  | '-' :: rest => (longNumber? rest).map fun (n, rest) => (-(n : Int), rest)
  | '+' :: rest => (longNumber? rest).map fun (n, rest) => ((n : Int), rest)
  | cs => (number? 4 cs).map fun (n, rest) => ((n : Int), rest)

/-- A separator, with blanks allowed in front of it. -/
def separator? (c : Char) (cs : List Char) : Option (List Char) :=
  match skipBlanks cs with
  | d :: rest => if d = c then some rest else none
  | [] => none

def date? (cs : List Char) : Option (Date × List Char) := do
  let (year, cs) ← year? cs
  let cs ← separator? '-' cs
  let (month, cs) ← number? 2 cs
  let cs ← separator? '-' cs
  let (day, cs) ← number? 2 cs
  let date : Date := ⟨year, month, day⟩
  if date.IsValid ∧ -262143 ≤ year ∧ year ≤ 262142 then some (date, cs) else none

/-- A point and at least one digit give a fraction; digits after the ninth are dropped. -/
def fraction? (cs : List Char) : Option (Nat × List Char) :=
  match cs with
  | '.' :: rest =>
    match takeDigits 9 rest with
    | ([], _) => none
    | (ds, rest) => some (value ds * Nat.pow 10 (9 - ds.length), rest.dropWhile Char.isDigit)
  | cs => some (0, cs)

/-- The second of the day and the nanoseconds. Second 60 belongs to the second before it. -/
def clock? (cs : List Char) : Option ((Nat × Nat) × List Char) := do
  let (hour, cs) ← number? 2 cs
  let cs ← separator? ':' cs
  let (minute, cs) ← number? 2 cs
  let cs ← separator? ':' cs
  let (second, cs) ← number? 2 cs
  let (nano, cs) ← fraction? cs
  if hour < 24 ∧ minute < 60 ∧ second ≤ 60 then
    let minutes := (hour * 60 + minute) * 60
    some (if second = 60 then (minutes + 59, nano + 1000000000) else (minutes + second, nano), cs)
  else none

/-- Two digits, and minutes again of two digits, with colons and blanks between them. -/
def offsetMinutes? (cs : List Char) : Option (Nat × List Char) :=
  match cs with
  | h :: h' :: rest =>
    match rest.dropWhile fun c => c = ':' || isBlank c with
    | m :: m' :: rest =>
      if [h, h', m, m'].all Char.isDigit && value [m, m'] < 60 then
        some (value [h, h'] * 60 + value [m, m'], rest)
      else none
    | _ => none
  | _ => none

/-- The offset from universal time in minutes: `Z`, `UTC`, or a sign with hours and minutes. -/
def offset? (cs : List Char) : Option (Int × List Char) :=
  match skipBlanks cs with
  | u :: t :: c :: rest =>
    if [u, t, c].map Char.toUpper = ['U', 'T', 'C'] then some (0, rest)
    else signed? (u :: t :: c :: rest)
  | cs => signed? cs
where
  signed? : List Char → Option (Int × List Char)
    | [] => none
    | sign :: rest =>
      if sign = 'Z' || sign = 'z' then some (0, rest)
      else if sign = '+' then (offsetMinutes? rest).map fun (n, rest) => ((n : Int), rest)
      else if sign = '-' || sign = '−' then
        (offsetMinutes? rest).map fun (n, rest) => (-(n : Int), rest)
      else none

def parse? (cs : List Char) : Option Timestamp := do
  let (date, cs) ← date? cs
  let cs ← match cs with
    | c :: cs => if c = 'T' || c = 't' || c = ' ' then some cs else none
    | [] => none
  let ((second, nano), cs) ← clock? cs
  let (minutes, cs) ← offset? cs
  if skipBlanks cs ≠ [] ∨ minutes.natAbs ≥ 1440 then none
  else
    let shifted : Int := second - minutes * 60
    ofParts? (date.toDay + shifted / 86400) (shifted % 86400).toNat nano

def ofString? (s : String) : Option Timestamp := parse? s.toList

end SmsTracking.Timestamp
