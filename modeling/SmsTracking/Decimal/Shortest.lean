import SmsTracking.Decimal.Digits

/-!
The shortest decimal that reads back as a given binary floating-point number. A finite number is
taken apart into a whole significand and a power of two; the decimals that round to it form an
interval around it. Grids of 1, 2, 3, ... digits are tried in turn, and the first grid with a point
in the interval gives the digits.
-/

namespace SmsTracking.Decimal

/-- A finite binary64 number, by its bits. -/
structure Binary64 where
  bits : UInt64
deriving DecidableEq, Repr, Inhabited

/-- `digits · 10 ^ exponent`, with a sign. -/
structure Scientific where
  negative : Bool
  digits : Nat
  exponent : Int
deriving DecidableEq, Repr

namespace Binary64

def negative (x : Binary64) : Bool := 9223372036854775808 ≤ x.bits.toNat

/-- The leading bit of a significand, `2 ^ 52`. -/
def hiddenBit : Nat := 4503599627370496

/-- The stored exponent; 0 means that the significand has no hidden bit. -/
def scale (x : Binary64) : Nat := x.bits.toNat / hiddenBit % 2048

def significand (x : Binary64) : Nat :=
  let low := x.bits.toNat % hiddenBit
  if x.scale = 0 then low else low + hiddenBit

/-- The number is `significand · 2 ^ power`, up to sign. -/
def power (x : Binary64) : Int := (max x.scale 1 : Nat) - 1075

/-- The lower neighbour is nearer than the upper one at a power of two. -/
def isPowerOfTwo (x : Binary64) : Bool := x.scale > 1 && x.significand == hiddenBit

/-- Numerator and denominator of `n · 2 ^ (power - 2)`. -/
def quarters (x : Binary64) (n : Nat) : Nat × Nat :=
  let p := x.power - 2
  if p ≥ 0 then (n * Nat.pow 2 p.toNat, 1) else (n, Nat.pow 2 (-p).toNat)

/-- The place of the leading digit: the number is at least `10 ^ (place - 1)`. -/
def place (num den : Nat) : Int :=
  if num ≥ den then (Decimal.digits (num / den)).length else 1 - (Decimal.digits (den / num)).length

/-- The multiple of `10 ^ grid` next to `num / den` that lies between the bounds, the nearer of two
such and the even one at a tie. -/
def gridPoint? (num den low high : Nat) (closed : Bool) (grid : Int) : Option Nat :=
  let (up, down) := if grid ≥ 0 then (Nat.pow 10 grid.toNat, 1) else (1, Nat.pow 10 (-grid).toNat)
  let value := num * down
  let unit := den * up
  let below := value / unit
  let inside (c : Nat) : Bool :=
    if closed then low * down ≤ c * unit && c * unit ≤ high * down
    else low * down < c * unit && c * unit < high * down
  let left := value - below * unit
  let right := (below + 1) * unit - value
  match inside below, inside (below + 1) with
  | true, true =>
    if left < right || (left == right && below % 2 == 0) then some below else some (below + 1)
  | true, false => some below
  | false, true => some (below + 1)
  | false, false => none

def dropZeros : Nat → Nat → Int → Nat × Int
  | 0, c, e => (c, e)
  | fuel + 1, c, e => if c % 10 = 0 then dropZeros fuel (c / 10) (e + 1) else (c, e)

def shortestFrom (num den low high : Nat) (closed : Bool) (top : Int) (n : Nat) : Nat → Nat × Int
  | 0 => (0, 0)
  | fuel + 1 =>
    match gridPoint? num den low high closed (top - n) with
    | some c => dropZeros 20 c (top - n)
    | none => shortestFrom num den low high closed top (n + 1) fuel

def shortest (x : Binary64) : Scientific :=
  let m := x.significand
  if m = 0 then ⟨x.negative, 0, 0⟩
  else
    let (num, den) := x.quarters (4 * m)
    let low := (x.quarters (4 * m - if x.isPowerOfTwo then 1 else 2)).1
    let high := (x.quarters (4 * m + 2)).1
    let (c, e) := shortestFrom num den low high (m % 2 == 0) (place num den) 1 17
    ⟨x.negative, c, e⟩

end Binary64

namespace Scientific

/-- All digits in place, and at least one of them after the point. -/
def positional (d : Scientific) : List Char :=
  let ds := Decimal.digits d.digits
  let sign := if d.negative then ['-'] else []
  if d.exponent ≥ 0 then sign ++ ds ++ List.replicate d.exponent.toNat '0' ++ ['.', '0']
  else
    let places := (-d.exponent).toNat
    let ds := List.replicate (places + 1 - ds.length) '0' ++ ds
    sign ++ ds.take (ds.length - places) ++ '.' :: ds.drop (ds.length - places)

/-- The power of ten of the leading digit. -/
def magnitude (d : Scientific) : Int := d.exponent + (Decimal.digits d.digits).length - 1

/-- One digit before the point and a signed power of ten. -/
def exponential (d : Scientific) : List Char :=
  let sign := if d.negative then ['-'] else []
  let mark := if d.magnitude < 0 then ['e', '-'] else ['e', '+']
  let point := match Decimal.digits d.digits with
    | [] => []
    | [c] => [c]
    | c :: ds => c :: '.' :: ds
  sign ++ point ++ mark ++ Decimal.digits d.magnitude.natAbs

/-- Positional from a hundred-thousandth up to below `10 ^ 16`, and exponential elsewhere. -/
def render (d : Scientific) : List Char :=
  if d.digits = 0 ∨ -5 ≤ d.magnitude ∧ d.magnitude < 16 then d.positional else d.exponential

end Scientific

end SmsTracking.Decimal
