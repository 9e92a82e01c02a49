import SmsTracking.Decimal.Shortest

/-!
Numbers of a JSON text. A number without fraction and exponent that fits into 64 bits, signed or
unsigned, is an integer; every other one, and minus zero, is a binary floating-point number. The
float is built from the leading digits that fit into 64 bits by one multiplication or division with
a power of ten, so it can differ from the nearest one in its last bit.
-/

namespace SmsTracking.Json

open Decimal

/-- Whole numbers of 64 bits, signed or unsigned. -/
structure Whole where
  val : Int
  inRange : -9223372036854775808 ≤ val ∧ val < 18446744073709551616 := by decide
deriving DecidableEq

inductive Number where
  | whole (n : Whole)
  | float (x : Binary64)
deriving DecidableEq

namespace Number

def ofInt? (n : Int) : Option Number :=
  if h : -9223372036854775808 ≤ n ∧ n < 18446744073709551616 then some (.whole ⟨n, h⟩) else none

def ofUInt64 (n : UInt64) : Number :=
  .whole ⟨n.toNat, by have := n.toNat_lt; omega⟩

def ofInt64 (n : Int64) : Number :=
  .whole ⟨n.toInt, by have := n.le_toInt; have := n.toInt_lt; omega⟩

def renderInt (n : Int) : List Char :=
  if n < 0 then '-' :: digits n.natAbs else digits n.natAbs

def render : Number → List Char
  | whole n => renderInt n.val
  | float x => x.shortest.render

/-- Two numbers are equal as values: minus zero equals zero. -/
def same : Number → Number → Bool
  | whole m, whole n => m == n
  | float x, float y => x == y || (x.significand == 0 && y.significand == 0)
  | _, _ => false

/-! Reading -/

/-- The sign, the digits before and after the point, and the exponent of a written number. -/
structure Lexeme where
  negative : Bool
  whole : List Char
  fraction : Option (List Char)
  exponent : Option (Bool × List Char)

def Lexeme.ofChars (cs : List Char) : Lexeme :=
  let (negative, cs) := match cs with
    | '-' :: cs => (true, cs)
    | cs => (false, cs)
  let whole := cs.takeWhile Char.isDigit
  let (fraction, cs) := match cs.dropWhile Char.isDigit with
    | '.' :: cs => (some (cs.takeWhile Char.isDigit), cs.dropWhile Char.isDigit)
    | cs => (none, cs)
  let exponent := match cs with
    | _ :: '-' :: ds => some (true, ds)
    | _ :: '+' :: ds => some (false, ds)
    | _ :: ds => some (false, ds)
    | [] => none
  { negative, whole, fraction, exponent }

/-- Leading digits as long as they fit into 64 bits, and the number of digits that are left. -/
def fit (start : Nat) : List Char → Nat × Nat
  | [] => (start, 0)
  | d :: ds =>
    let next := start * 10 + (d.toNat - '0'.toNat)
    if next < 18446744073709551616 then fit next ds else (start, ds.length + 1)

/-- The significand of a number with a fraction or an exponent, and its power of ten. -/
def parts (l : Lexeme) : Nat × Int :=
  let (start, dropped) := fit 0 l.whole
  match l.fraction with
  | none => (start, dropped)
  | some ds =>
    let (significand, rest) := fit start ds
    (significand, (dropped : Int) - (ds.length - rest : Nat))

/-- `f · 10 ^ exponent`, by steps of at most 308 powers of ten; `none` if it is too large. -/
def scaled (f : Float) (exponent : Int) : Nat → Option Float
  | 0 => some f
  | fuel + 1 =>
    if exponent.natAbs ≤ 308 then
      let power := Float.ofScientific 1 false exponent.natAbs
      if exponent ≥ 0 then
        if (f * power).isFinite then some (f * power) else none
      else some (f / power)
    else if f == 0 then some f
    else if exponent ≥ 0 then none
    else scaled (f / Float.ofScientific 1 false 308) (exponent + 308) fuel

def largestExponent : Nat := 2147483647

def floatOf (negative : Bool) (f : Float) : Number :=
  .float ⟨(if negative then -f else f).toBits⟩

def significandFloat (n : Nat) : Float := (UInt64.ofNat n).toFloat

/-- The number that a well-formed text stands for; `none` if it is too large for a float. -/
def ofLexeme? (l : Lexeme) : Option Number :=
  let (significand, power) := parts l
  let float (power : Int) := (scaled (significandFloat significand) power 4).map (floatOf l.negative)
  match l.exponent with
  | some (down, ds) =>
    let exponent := value ds
    if exponent > largestExponent then
      if significand ≠ 0 ∧ !down then none else some (floatOf l.negative 0)
    else float (if down then power - exponent else power + exponent)
  | none =>
    if l.fraction.isSome then float power
    else
      let whole := value l.whole
      if !l.negative ∧ whole < 18446744073709551616 then ofInt? whole
      else if l.negative ∧ 0 < whole ∧ whole ≤ 9223372036854775808 then ofInt? (-whole)
      else float power

def ofChars? (cs : List Char) : Option Number := ofLexeme? (.ofChars cs)

end Number

end SmsTracking.Json
