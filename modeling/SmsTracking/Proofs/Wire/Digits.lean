import Mathlib.Algebra.Group.Nat.Defs
import SmsTracking.Timestamp.Text

/-!
Numbers are read back from their digits. A reader of digits stops where the digits end or where it has
as many as it takes.
-/

namespace SmsTracking

namespace Decimal

theorem isDigit_of_mem_padded {width n : Nat} {c : Char} (h : c ∈ padded width n) :
    c.isDigit = true := by
  rcases List.mem_append.mp h with h | h
  · rw [(List.mem_replicate.mp h).2]
    rfl
  · exact Nat.isDigit_of_mem_toDigits (by decide) (by decide) h

theorem length_padded {width n : Nat} (pos : 0 < width) (h : n < 10 ^ width) :
    (padded width n).length = width := by
  have short : (digits n).length ≤ width :=
    (Nat.length_toDigits_le_iff (by decide) pos).mpr h
  simp only [padded, List.length_append, List.length_replicate]
  omega

theorem padded_ne_nil (width n : Nat) : padded width n ≠ [] := by
  intro h
  exact Nat.toDigits_ne_nil (List.append_eq_nil_iff.mp h).2

theorem ofDigitChars_lt {ds : List Char} (digits : ∀ c ∈ ds, c.isDigit = true) (n : Nat) :
    Nat.ofDigitChars 10 ds n < 10 ^ ds.length * (n + 1) := by
  induction ds generalizing n with
  | nil => exact Nat.lt_of_lt_of_eq n.lt_succ_self (Nat.one_mul _).symm
  | cons c ds ih =>
      obtain ⟨first, rest⟩ := List.forall_mem_cons.mp digits
      have range : 48 ≤ c.toNat ∧ c.toNat ≤ 57 := Char.isDigit_iff_toNat.mp first
      have zero : '0'.toNat = 48 := rfl
      rw [Nat.ofDigitChars_cons, zero]
      calc Nat.ofDigitChars 10 ds (10 * n + (c.toNat - 48))
          < 10 ^ ds.length * (10 * n + (c.toNat - 48) + 1) := ih rest _
        _ ≤ 10 ^ ds.length * (10 * (n + 1)) := Nat.mul_le_mul_left _ (by omega)
        _ = 10 ^ (c :: ds).length * (n + 1) := by
            rw [List.length_cons, Nat.pow_succ, Nat.mul_assoc]

theorem value_lt {ds : List Char} (digits : ∀ c ∈ ds, c.isDigit = true) :
    value ds < 10 ^ ds.length :=
  Nat.lt_of_lt_of_eq (ofDigitChars_lt digits 0) (Nat.mul_one _)

theorem isDigit_of_mem_takeDigits {most : Nat} {cs : List Char} {c : Char}
    (h : c ∈ (takeDigits most cs).1) : c.isDigit = true :=
  List.all_eq_true.mp List.all_takeWhile c h

theorem length_takeDigits_le (most : Nat) (cs : List Char) :
    (takeDigits most cs).1.length ≤ most :=
  Nat.le_trans (List.takeWhile_prefix _).length_le (List.length_take_le _ _)

theorem takeDigits_append {most : Nat} {ds rest : List Char}
    (digits : ∀ c ∈ ds, c.isDigit = true) (fits : ds.length ≤ most)
    (stops : ds.length = most ∨ ∀ c ∈ rest.head?, c.isDigit = false) :
    takeDigits most (ds ++ rest) = (ds, rest) := by
  have run : ((ds ++ rest).take most).takeWhile Char.isDigit = ds := by
    rw [List.take_append, List.take_of_length_le fits, List.takeWhile_append_of_pos digits]
    have none : (rest.take (most - ds.length)).takeWhile Char.isDigit = [] := by
      rcases stops with full | stops
      · rw [full, Nat.sub_self]
        rfl
      · cases rest with
        | nil => simp
        | cons c rest =>
            have := stops c rfl
            cases most - ds.length <;> simp [this]
    rw [none, List.append_nil]
  simp only [takeDigits, run, List.drop_left]

end Decimal

namespace Text

theorem isBlank_of_isDigit {c : Char} (h : c.isDigit = true) : isBlank c = false := by
  have range : 48 ≤ c.toNat ∧ c.toNat ≤ 57 := Char.isDigit_iff_toNat.mp h
  simp only [isBlank, Bool.or_eq_false_iff, Bool.and_eq_false_iff, decide_eq_false_iff_not,
    beq_eq_false_iff_ne]
  omega

/-- Digits are not skipped. -/
theorem skipBlanks_digits {ds rest : List Char} (digits : ∀ c ∈ ds, c.isDigit = true)
    (some : ds ≠ []) : skipBlanks (ds ++ rest) = ds ++ rest := by
  cases ds with
  | nil => exact absurd rfl some
  | cons c ds => exact skipBlanks_of_head (isBlank_of_isDigit (digits c List.mem_cons_self)) _

end Text

namespace Timestamp

open Decimal Text

theorem number?_padded {most width n : Nat} {rest : List Char} (pos : 0 < width)
    (small : n < 10 ^ width) (fits : width ≤ most)
    (stops : width = most ∨ ∀ c ∈ rest.head?, c.isDigit = false) :
    number? most (padded width n ++ rest) = some (n, rest) := by
  have digits : ∀ c ∈ padded width n, c.isDigit = true := fun c h => isDigit_of_mem_padded h
  have length := length_padded pos small
  rw [← length] at fits stops
  simp only [number?, skipBlanks_digits digits (padded_ne_nil _ _),
    takeDigits_append digits fits stops]
  split
  · rename_i none
    exact absurd (congrArg Prod.fst none) (padded_ne_nil _ _)
  · rename_i found
    cases found
    rw [value_padded]

theorem longNumber?_padded {width n : Nat} {rest : List Char}
    (stops : ∀ c ∈ rest.head?, c.isDigit = false) :
    longNumber? (padded width n ++ rest) = some (n, rest) := by
  have digits : ∀ c ∈ padded width n, c.isDigit = true := fun c h => isDigit_of_mem_padded h
  have fits : (padded width n).length ≤ (padded width n ++ rest).length := by simp
  simp only [longNumber?, takeDigits_append digits fits (.inr stops)]
  split
  · rename_i none
    exact absurd (congrArg Prod.fst none) (padded_ne_nil _ _)
  · rename_i found
    cases found
    rw [value_padded]

theorem separator?_self {c : Char} (h : isBlank c = false) (rest : List Char) :
    separator? c (c :: rest) = some rest := by
  simp [separator?, skipBlanks_of_head h]

end Timestamp

end SmsTracking
