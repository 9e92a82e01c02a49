import Mathlib.Algebra.Group.Nat.Defs
import SmsTracking.Uuid

/-!
An identifier is read back from its text. The digits of a number stand for it in any base up to 16,
zeros in front do not count, and the hyphens are taken out where they were put in.
-/

namespace SmsTracking

namespace Text

theorem hexValue?_digitChar {d : Nat} (h : d < 16) : hexValue? d.digitChar = some d := by
  have all : ∀ d ∈ List.range 16, hexValue? d.digitChar = some d := by decide
  exact all d (List.mem_range.mpr h)

theorem baseValue_append_singleton (base : Nat) (ds : List Char) (c : Char) :
    baseValue base (ds ++ [c]) = base * baseValue base ds + (hexValue? c).getD 0 := by
  simp [baseValue]

theorem baseValue_toDigits {base : Nat} (low : 1 < base) (high : base ≤ 16) (n : Nat) :
    baseValue base (Nat.toDigits base n) = n := by
  induction n using Nat.strongRecOn with
  | _ n ih =>
      rw [Nat.toDigits_eq_if low]
      split
      · rename_i small
        simp [baseValue, hexValue?_digitChar (Nat.lt_of_lt_of_le small high)]
      · rename_i large
        have digit : n % base < 16 := Nat.lt_of_lt_of_le (Nat.mod_lt _ (by omega)) high
        have smaller : n / base < n := Nat.div_lt_self (by omega) low
        rw [baseValue_append_singleton, ih _ smaller, hexValue?_digitChar digit]
        exact Nat.div_add_mod n base

theorem baseValue_replicate_append (base k : Nat) (ds : List Char) :
    baseValue base (List.replicate k '0' ++ ds) = baseValue base ds := by
  induction k with
  | zero => simp
  | succ k ih =>
      rw [List.replicate_succ, List.cons_append, baseValue, List.foldl_cons]
      exact ih

theorem isSome_hexValue?_of_mem_toDigits {c : Char} {n : Nat} (h : c ∈ Nat.toDigits 16 n) :
    (hexValue? c).isSome = true := by
  induction n using Nat.strongRecOn with
  | _ n ih =>
      rw [Nat.toDigits_eq_if (by decide)] at h
      split at h
      · rename_i small
        rw [List.mem_singleton.mp h, hexValue?_digitChar small]
        rfl
      · rcases List.mem_append.mp h with h | h
        · exact ih _ (by omega) h
        · rw [List.mem_singleton.mp h, hexValue?_digitChar (Nat.mod_lt _ (by decide))]
          rfl

end Text

namespace Uuid

open Text

theorem length_hexDigits {n : Nat} (h : n < 2 ^ 128) : (hexDigits n).length = 32 := by
  have short : (Nat.toDigits 16 n).length ≤ 32 :=
    (Nat.length_toDigits_le_iff (by decide) (by decide)).mpr h
  simp only [hexDigits, List.length_append, List.length_replicate]
  omega

theorem ofDigits?_hexDigits (id : Uuid) : ofDigits? (hexDigits id.bits.toNat) = some id := by
  have digits : ∀ c ∈ hexDigits id.bits.toNat, (hexValue? c).isSome = true := by
    intro c h
    rcases List.mem_append.mp h with h | h
    · rw [(List.mem_replicate.mp h).2]
      rfl
    · exact isSome_hexValue?_of_mem_toDigits h
  have value : baseValue 16 (hexDigits id.bits.toNat) = id.bits.toNat := by
    rw [hexDigits, baseValue_replicate_append, baseValue_toDigits (by decide) (by decide)]
  simp only [ofDigits?, length_hexDigits id.bits.isLt, List.all_eq_true.mpr digits, value,
    and_self, if_true]
  simp

theorem ofHyphenated?_groups {a b c d e : List Char} (ha : a.length = 8) (hb : b.length = 4)
    (hc : c.length = 4) (hd : d.length = 4) :
    ofHyphenated? (a ++ '-' :: b ++ '-' :: c ++ '-' :: d ++ '-' :: e) =
      ofDigits? (a ++ b ++ c ++ d ++ e) := by
  simp [ofHyphenated?, List.drop_append, List.getElem?_append, ha, hb, hc, hd,
    List.drop_eq_nil_of_le]

theorem take_groups (ds : List Char) :
    ds.take 8 ++ (ds.drop 8).take 4 ++ (ds.drop 12).take 4 ++ (ds.drop 16).take 4 ++ ds.drop 20 =
      ds := by
  rw [← List.take_add, ← List.take_add, ← List.take_add, List.take_append_drop]

theorem ofHyphenated?_hyphenate {ds : List Char} (h : ds.length = 32) :
    ofHyphenated? (hyphenate ds) = ofDigits? ds := by
  rw [hyphenate, ofHyphenated?_groups (by simp [h]) (by simp [h]) (by simp [h]) (by simp [h]),
    take_groups]

theorem parse?_render (id : Uuid) : parse? id.render = some id := by
  have digits : (hexDigits id.bits.toNat).length = 32 := length_hexDigits id.bits.isLt
  have length : id.render.length = 36 := by
    simp [render, hyphenate, digits]
  rw [parse?, if_neg (by omega), if_pos length, render, ofHyphenated?_hyphenate digits,
    ofDigits?_hexDigits]

theorem ofString?_toString (id : Uuid) : ofString? (toString id) = some id := by
  have text : (toString id).toList = id.render := String.toList_ofList
  rw [ofString?, text, parse?_render]

end Uuid

end SmsTracking
