import SmsTracking.Proofs.Wire.Calendar
import SmsTracking.Proofs.Wire.Digits

/-!
Timestamps are read from their texts part by part: the year with or without a sign, the clock with a
leap second or without, and the fraction in as many digits as it was written with. A leap second that
does not end its minute has the text of the second after it, and is read as that second
(`parse?_render`). What is read from a text comes back from its own (`isWritten_of_parse?`).
-/

namespace SmsTracking.Timestamp

open Decimal Text

theorem not_isDigit_of_head {c d : Char} (h : c.isDigit = false) (rest : List Char)
    (mem : d ∈ (c :: rest).head?) : d.isDigit = false := by
  cases mem
  exact h

theorem year?_writeYear (year : Int) (rest : List Char) :
    year? (writeYear year ++ '-' :: rest) = some (year, '-' :: rest) := by
  have stops : ∀ c ∈ ('-' :: rest).head?, c.isDigit = false :=
    fun c h => not_isDigit_of_head rfl rest h
  unfold writeYear
  split
  · rename_i negative
    have blank : isBlank '-' = false := rfl
    rw [List.cons_append, year?, skipBlanks_of_head blank]
    simp only [longNumber?_padded stops, Option.map_some]
    congr
    omega
  · rename_i positive
    split
    · have small : year.toNat < 10 ^ 4 := by omega
      have read : number? 4 (padded 4 year.toNat ++ '-' :: rest) = some (year.toNat, '-' :: rest) :=
        number?_padded (by decide) small (Nat.le_refl 4) (.inl rfl)
      have digits : ∀ c ∈ padded 4 year.toNat, c.isDigit = true :=
        fun c h => isDigit_of_mem_padded h
      rw [year?, skipBlanks_digits digits (padded_ne_nil _ _)]
      obtain ⟨c, ds, first⟩ := List.exists_cons_of_ne_nil (padded_ne_nil 4 year.toNat)
      have digit : c.isDigit = true := digits c (by simp [first])
      rw [first, List.cons_append] at read ⊢
      -- A digit is no sign, so that the reader takes the four digits.
      split
      · rename_i sign
        cases sign
        exact absurd digit (by decide)
      · rename_i sign
        cases sign
        exact absurd digit (by decide)
      · simp only [read, Option.map_some]
        congr
        omega
    · have blank : isBlank '+' = false := rfl
      rw [List.cons_append, year?, skipBlanks_of_head blank]
      simp only [longNumber?_padded stops, Option.map_some]
      congr
      omega

theorem fraction?_padded {width n : Nat} (pos : 0 < width) (fits : width ≤ 9)
    (small : n < 10 ^ width) (rest : List Char) :
    fraction? ('.' :: padded width n ++ 'Z' :: rest) = some (n * 10 ^ (9 - width), 'Z' :: rest) := by
  have length := length_padded pos small
  have read : takeDigits 9 (padded width n ++ 'Z' :: rest) = (padded width n, 'Z' :: rest) :=
    takeDigits_append (fun c h => isDigit_of_mem_padded h) (by omega)
      (.inr fun c h => not_isDigit_of_head rfl rest h)
  simp only [List.cons_append, fraction?, read]
  split
  · rename_i none
    exact absurd (congrArg Prod.fst none) (padded_ne_nil _ _)
  · rename_i found
    cases found
    rw [value_padded, length]
    simp

theorem fraction?_writeFraction {nano : Nat} (h : nano < 1000000000) (rest : List Char) :
    fraction? (writeFraction nano ++ 'Z' :: rest) = some (nano, 'Z' :: rest) := by
  unfold writeFraction
  split
  · rename_i zero
    subst zero
    simp [fraction?]
  · split
    · rw [fraction?_padded (by decide) (by decide) (by omega)]
      congr
      omega
    · split
      · rw [fraction?_padded (by decide) (by decide) (by omega)]
        congr
        omega
      · rw [fraction?_padded (by decide) (by decide) (by omega)]
        simp

/-- Two digits in front of a sign. -/
theorem number?_two {n : Nat} (small : n < 100) (rest : List Char) :
    number? 2 (padded 2 n ++ rest) = some (n, rest) :=
  number?_padded (by decide) small (Nat.le_refl 2) (.inl rfl)

theorem separator?_colon (rest : List Char) : separator? ':' (':' :: rest) = some rest :=
  separator?_self rfl rest

theorem separator?_hyphen (rest : List Char) : separator? '-' ('-' :: rest) = some rest :=
  separator?_self rfl rest

theorem clock?_writeClock {second nano : Nat} (h : second < 86400)
    (leap : nano < 1000000000 ∨ second % 60 = 59 ∧ nano < 2000000000) (rest : List Char) :
    clock? (writeClock second nano ++ 'Z' :: rest) = some ((second, nano), 'Z' :: rest) := by
  have whole : nano % 1000000000 < 1000000000 := Nat.mod_lt _ (by decide)
  simp only [writeClock, clock?, List.append_assoc, List.cons_append,
    number?_two (show second / 3600 < 100 by omega),
    number?_two (show second / 60 % 60 < 100 by omega),
    number?_two (show second % 60 + nano / 1000000000 < 100 by omega), separator?_colon,
    fraction?_writeFraction whole, Option.bind_eq_bind, Option.bind_some]
  rw [if_pos (by omega)]
  split
  · congr 3 <;> omega
  · congr 3 <;> omega

/-! What a text denotes -/

/-- The timestamp that the text of `t` denotes. -/
def written (t : Timestamp) : Timestamp :=
  if early : 1000000000 ≤ t.nano ∧ t.second % 60 ≠ 59 then
    { t with
      second := t.second + 1
      nano := t.nano - 1000000000
      second_lt := by have := t.second_lt; omega
      nano_lt := by have := t.nano_lt; omega }
  else t

/-- Only at the end of a minute is there a leap second. -/
def IsWritten (t : Timestamp) : Prop := t.nano < 1000000000 ∨ t.second % 60 = 59

instance (t : Timestamp) : Decidable t.IsWritten := inferInstanceAs (Decidable (_ ∨ _))

theorem written_of_isWritten {t : Timestamp} (h : t.IsWritten) : t.written = t := by
  apply dif_neg
  unfold IsWritten at h
  omega

theorem isWritten_written (t : Timestamp) : t.written.IsWritten := by
  have bound := t.nano_lt
  unfold written
  split
  · left
    show t.nano - 1000000000 < 1000000000
    omega
  · unfold IsWritten
    omega

@[simp] theorem written_eq_self_iff {t : Timestamp} : t.written = t ↔ t.IsWritten :=
  ⟨fun same => same ▸ t.isWritten_written, written_of_isWritten⟩

theorem writeClock_early {second nano : Nat} (early : second % 60 ≠ 59) (leap : 1000000000 ≤ nano)
    (h : nano < 2000000000) :
    writeClock (second + 1) (nano - 1000000000) = writeClock second nano := by
  have hour : (second + 1) / 3600 = second / 3600 := by omega
  have minute : (second + 1) / 60 % 60 = second / 60 % 60 := by omega
  have clock : (second + 1) % 60 + (nano - 1000000000) / 1000000000 =
      second % 60 + nano / 1000000000 := by omega
  have fraction : (nano - 1000000000) % 1000000000 = nano % 1000000000 := by omega
  simp only [writeClock, hour, minute, clock, fraction]

@[simp] theorem render_written (t : Timestamp) : t.written.render = t.render := by
  by_cases early : 1000000000 ≤ t.nano ∧ t.second % 60 ≠ 59
  · have clock := writeClock_early early.2 early.1 t.nano_lt
    simp only [written, dif_pos early, render, clock]
  · rw [written, dif_neg early]

/-! Back from the text -/

theorem date?_ofDay {day : Int} (h : -96465292 ≤ day ∧ day ≤ 95026236) (rest : List Char) :
    date? (writeYear (Date.ofDay day).year ++ '-' :: (padded 2 (Date.ofDay day).month ++
      '-' :: (padded 2 (Date.ofDay day).day ++ 'T' :: rest))) =
      some (Date.ofDay day, 'T' :: rest) := by
  have valid := Date.isValid_ofDay day
  have years := Date.year_ofDay_mem day h
  obtain ⟨_, last, _, long⟩ := id valid
  have short : Date.daysInMonth (Date.ofDay day).year (Date.ofDay day).month ≤ 31 := by
    unfold Date.daysInMonth
    split
    · split <;> omega
    · split <;> omega
  simp only [date?, year?_writeYear, separator?_hyphen,
    number?_two (show (Date.ofDay day).month < 100 by omega),
    number?_two (show (Date.ofDay day).day < 100 by omega), Option.bind_eq_bind, Option.bind_some]
  rw [if_pos ⟨valid, years⟩]

theorem parse?_render_of_isWritten {t : Timestamp} (h : t.IsWritten) :
    parse? t.render = some t := by
  have leap : t.nano < 1000000000 ∨ t.second % 60 = 59 ∧ t.nano < 2000000000 :=
    h.imp_right fun last => ⟨last, t.nano_lt⟩
  have zone : offset? ['Z'] = some (0, []) := by decide
  have text : t.render =
      writeYear (Date.ofDay t.day).year ++ '-' :: (padded 2 (Date.ofDay t.day).month ++
        '-' :: (padded 2 (Date.ofDay t.day).day ++ 'T' :: (writeClock t.second t.nano ++ ['Z']))) := by
    simp [render]
  have second := t.second_lt
  rw [text, parse?, date?_ofDay t.day_mem]
  simp only [clock?_writeClock t.second_lt leap, zone, Option.bind_eq_bind, Option.bind_some]
  have shift : ((t.second : Int) - 0 * 60) / 86400 = 0 := by omega
  have kept : (((t.second : Int) - 0 * 60) % 86400).toNat = t.second := by omega
  have blank : ¬ (skipBlanks [] ≠ [] ∨ Int.natAbs 0 ≥ 1440) := by decide
  rw [if_pos (by decide), if_neg blank, shift, kept, Date.toDay_ofDay, Int.add_zero, ofParts?,
    dif_pos ⟨t.day_mem, t.second_lt, t.nano_lt⟩]

theorem parse?_render (t : Timestamp) : parse? t.render = some t.written := by
  rw [← render_written t, parse?_render_of_isWritten t.isWritten_written]

/-! What was read comes back -/

theorem fraction?_lt {cs rest : List Char} {nano : Nat} (read : fraction? cs = some (nano, rest)) :
    nano < 1000000000 := by
  unfold fraction? at read
  split at read
  · rename_i digits
    have all : ∀ c ∈ (takeDigits 9 digits).1, c.isDigit = true :=
      fun c => isDigit_of_mem_takeDigits
    have most := length_takeDigits_le 9 digits
    split at read
    · cases read
    · rename_i ds _ _ taken
      cases read
      rw [taken] at all most
      calc value ds * 10 ^ (9 - ds.length)
          < 10 ^ ds.length * 10 ^ (9 - ds.length) :=
            Nat.mul_lt_mul_of_pos_right (value_lt all) (Nat.pow_pos (by decide))
        _ = 10 ^ 9 := by rw [← Nat.pow_add, Nat.add_sub_cancel' most]
  · cases read
    decide

theorem clock?_isWritten {cs rest : List Char} {second nano : Nat}
    (read : clock? cs = some ((second, nano), rest)) :
    nano < 1000000000 ∨ second % 60 = 59 := by
  simp only [clock?, Option.bind_eq_bind, Option.bind_eq_some_iff] at read
  obtain ⟨⟨hour, _⟩, _, _, _, ⟨minute, _⟩, _, _, _, ⟨clock, _⟩, _, ⟨fraction, _⟩, least, read⟩ := read
  have small := fraction?_lt least
  split at read
  · simp only [Option.some.injEq, Prod.mk.injEq] at read
    split at read
    · right
      have := congrArg Prod.fst read.1
      simp only at this
      omega
    · left
      have := congrArg Prod.snd read.1
      simp only at this
      omega
  · cases read

theorem isWritten_of_parse? {cs : List Char} {t : Timestamp} (read : parse? cs = some t) :
    t.IsWritten := by
  obtain ⟨⟨date, rest⟩, _, read⟩ := Option.bind_eq_some_iff.mp read
  cases rest with
  | nil => cases read
  | cons c rest =>
      dsimp only at read
      split at read
      · obtain ⟨_, _, read⟩ := Option.bind_eq_some_iff.mp read
        obtain ⟨⟨⟨second, nano⟩, _⟩, clock, read⟩ := Option.bind_eq_some_iff.mp read
        obtain ⟨⟨minutes, _⟩, _, read⟩ := Option.bind_eq_some_iff.mp read
        have ends := clock?_isWritten clock
        split at read
        · cases read
        · unfold ofParts? at read
          split at read
          · cases read
            -- An offset is a number of whole minutes.
            show nano < 1000000000 ∨ (((second : Int) - minutes * 60) % 86400).toNat % 60 = 59
            omega
          · cases read
      · cases read

theorem ofString?_toString (t : Timestamp) : ofString? (toString t) = some t.written := by
  have text : (toString t).toList = t.render := String.toList_ofList
  rw [ofString?, text, parse?_render]

end SmsTracking.Timestamp
