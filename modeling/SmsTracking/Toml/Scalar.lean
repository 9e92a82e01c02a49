import SmsTracking.Decimal.Digits
import SmsTracking.Text.Hex
import SmsTracking.Timestamp.Calendar
import SmsTracking.Toml.Value

/-!
Numbers, booleans, dates and times of a TOML document: everything that is written without quotes or
brackets. Underscores may stand between the digits of a number. Integers have 64 bits; a float that
is too large is refused, unless it is negative.
-/

namespace SmsTracking.Toml

open Decimal Text

/-- The digits of a run in which single underscores may separate them. -/
def grouped? (isDigit : Char → Bool) : List Char → Option (List Char)
  | [] => none
  | [c] => if isDigit c then some [c] else none
  | c :: '_' :: rest => if isDigit c then (grouped? isDigit rest).map (c :: ·) else none
  | c :: rest => if isDigit c then (grouped? isDigit rest).map (c :: ·) else none

def signed (cs : List Char) : Bool × List Char :=
  match cs with
  | '-' :: rest => (true, rest)
  | '+' :: rest => (false, rest)
  | cs => (false, cs)

/-- Digits without a zero in front, unless it is the only one. -/
def plain? (cs : List Char) : Option (List Char) :=
  match grouped? Char.isDigit cs with
  | some ('0' :: _ :: _) => none
  | ds => ds

def integerLimit : Nat := 9223372036854775808

def prefixed? (base : Nat) (isDigit : Char → Bool) (cs : List Char) : Option Int := do
  let ds ← grouped? isDigit cs
  let n := baseValue base ds
  if n < integerLimit then some n else none

def integer? (cs : List Char) : Option Int :=
  match cs with
  | '0' :: 'x' :: rest => prefixed? 16 (fun c => (hexValue? c).isSome) rest
  | '0' :: 'o' :: rest => prefixed? 8 (fun c => '0' ≤ c && c ≤ '7') rest
  | '0' :: 'b' :: rest => prefixed? 2 (fun c => c = '0' || c = '1') rest
  | cs => do
    let (negative, cs) := signed cs
    let ds ← plain? cs
    let n := value ds
    if negative then if n ≤ integerLimit then some (-n) else none
    else if n < integerLimit then some n
    else none

/-- The least number that rounds to no finite float. -/
def floatLimit : Nat := Nat.pow 2 1024 - Nat.pow 2 970

/-- Whether `digits · 10 ^ exponent` is beyond every float. -/
def tooLarge (digits : Nat) (exponent : Int) : Bool :=
  let magnitude := (Decimal.digits digits).length + exponent
  if digits = 0 || magnitude < 300 then false
  else if magnitude > 320 then true
  else if exponent ≥ 0 then digits * Nat.pow 10 exponent.toNat ≥ floatLimit
  else digits ≥ floatLimit * Nat.pow 10 (-exponent).toNat

def isFloat (cs : List Char) : Bool :=
  let (negative, rest) := signed cs
  if rest = "inf".toList || rest = "nan".toList then true
  else
    let isPlain (c : Char) : Bool := c.isDigit || c = '_'
    let whole := plain? (rest.takeWhile isPlain)
    let rest := rest.dropWhile isPlain
    let (fraction, rest, pointed) := match rest with
      | '.' :: rest => (grouped? Char.isDigit (rest.takeWhile isPlain), rest.dropWhile isPlain, true)
      | rest => (some [], rest, false)
    let (exponent, scaled) := match rest with
      | [] => (some 0, false)
      | e :: rest =>
        if e = 'e' || e = 'E' then
          let (down, ds) := signed rest
          ((grouped? Char.isDigit ds).map fun ds =>
            if down then -(value ds : Int) else value ds, true)
        else (none, false)
    match whole, fraction, exponent with
    | some whole, some fraction, some exponent =>
      (pointed || scaled) &&
        (negative || !tooLarge (value (whole ++ fraction)) (exponent - fraction.length))
    | _, _, _ => false

/-! Dates and times -/

def isNumber (cs : List Char) (width low high : Nat) : Bool :=
  cs.length = width && cs.all Char.isDigit && low ≤ value cs && value cs ≤ high

def isDate (cs : List Char) : Bool :=
  let year := cs.take 4
  let month := (cs.drop 5).take 2
  let day := cs.drop 8
  cs[4]? = some '-' && cs[7]? = some '-' && isNumber year 4 0 9999 && isNumber month 2 1 12 &&
    isNumber day 2 1 (Date.daysInMonth (value year) (value month))

/-- `HH:MM:SS`, perhaps with a fraction of any length. -/
def isTime (cs : List Char) : Bool :=
  let fraction := cs.drop 8
  cs[2]? = some ':' && cs[5]? = some ':' && isNumber (cs.take 2) 2 0 23 &&
    isNumber ((cs.drop 3).take 2) 2 0 59 && isNumber ((cs.drop 6).take 2) 2 0 60 &&
    match fraction with
    | [] => true
    | '.' :: ds => ds ≠ [] && ds.all Char.isDigit
    | _ => false

def isOffset (cs : List Char) : Bool :=
  match cs with
  | [c] => c = 'Z' || c = 'z'
  | sign :: rest =>
    (sign = '+' || sign = '-') && rest.length = 5 && rest[2]? = some ':' &&
      isNumber (rest.take 2) 2 0 23 && isNumber (rest.drop 3) 2 0 59
  | [] => false

def isTimeWithOffset (cs : List Char) : Bool :=
  let time := cs.takeWhile fun c => c.isDigit || c = ':' || c = '.'
  let offset := cs.drop time.length
  isTime time && (offset = [] || isOffset offset)

def isDatetime (cs : List Char) : Bool :=
  isTime cs || isDate cs ||
    (isDate (cs.take 10) && isTimeWithOffset (cs.drop 11) &&
      match cs[10]? with
      | some c => c = 'T' || c = 't' || c = ' '
      | none => false)

/-- Characters of which an unquoted value consists. -/
def isScalarChar (c : Char) : Bool :=
  c.isAlphanum || c = '+' || c = '-' || c = '_' || c = '.' || c = ':'

def scalar? (cs : List Char) : Option Value :=
  if cs = "true".toList then some (.bool true)
  else if cs = "false".toList then some (.bool false)
  else match integer? cs with
    | some n => some (.integer n)
    | none =>
      if isDatetime cs then some (.datetime (String.ofList cs))
      else if isFloat cs then some (.float (String.ofList cs))
      else none

/-- An unquoted value and what follows it. A date may be joined to a time by one space. -/
def takeScalar? (cs : List Char) : Option (Value × List Char) :=
  let run := cs.takeWhile isScalarChar
  let rest := cs.drop run.length
  let tail := match rest with
    | ' ' :: rest => rest.takeWhile isScalarChar
    | _ => []
  let joined := run ++ ' ' :: tail
  if tail ≠ [] ∧ isDate run ∧ isDatetime joined then
    some (.datetime (String.ofList joined), cs.drop joined.length)
  else (scalar? run).map (·, rest)

end SmsTracking.Toml
