/-!
Decimal digits: the value of a run of digits, the digits of a number, and numbers padded with
zeros to a fixed width.
-/

namespace SmsTracking.Decimal

def digits (n : Nat) : List Char := Nat.toDigits 10 n

def value (ds : List Char) : Nat := Nat.ofDigitChars 10 ds 0

/-- The digits of `n` with zeros in front up to `width`. -/
def padded (width n : Nat) : List Char :=
  List.replicate (width - (digits n).length) '0' ++ digits n

/-- The leading digits of a text, at most `most` of them, and what follows. -/
def takeDigits (most : Nat) (cs : List Char) : List Char × List Char :=
  let run := (cs.take most).takeWhile Char.isDigit
  (run, cs.drop run.length)

theorem value_digits (n : Nat) : value (digits n) = n := Nat.ofDigitChars_ten_toDigits

theorem value_padded (width n : Nat) : value (padded width n) = n := by
  rw [value, padded, Nat.ofDigitChars_append, Nat.ofDigitChars_replicate_zero, Nat.mul_zero]
  exact value_digits n

end SmsTracking.Decimal
