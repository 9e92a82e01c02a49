import Mathlib.Data.List.TakeWhile
import Mathlib.Tactic.IntervalCases
import SmsTracking.Proofs.Wire.Trees
import SmsTracking.Proofs.Wire.Uuid

/-!
The compact text of a value, character by character through the scanner. A string or an array ends at
its own last character, but a number or a word is known to have ended only by what follows it, so a
scanner that has read a value need not be at rest; it settles with the next character (`Settles`). Main
statement: the text of a value without floats is read as the draft of that value (`ofSymbols_render`).
-/

namespace SmsTracking.Json

open Decimal Text

/-! Numbers -/

theorem exists_digits_cons {n : Nat} (pos : 0 < n) :
    ∃ d ds, 0 < d ∧ d < 10 ∧ digits n = d.digitChar :: ds := by
  induction n using Nat.strongRecOn with
  | _ n ih =>
      rw [digits, Nat.toDigits_eq_if (by decide)]
      split
      · rename_i small
        exact ⟨n, [], pos, small, rfl⟩
      · rename_i large
        obtain ⟨d, ds, nonzero, digit, front⟩ := ih (n / 10) (by omega) (by omega)
        rw [digits] at front
        exact ⟨d, ds ++ [(n % 10).digitChar], nonzero, digit, by rw [front, List.cons_append]⟩

theorem isDigit_of_mem_digits {n : Nat} {c : Char} (mem : c ∈ digits n) : c.isDigit = true :=
  Nat.isDigit_of_mem_toDigits (by decide) (by decide) mem

theorem takeWhile_digits (n : Nat) : (digits n).takeWhile Char.isDigit = digits n :=
  List.takeWhile_eq_self_iff.mpr fun _ mem => isDigit_of_mem_digits mem

theorem dropWhile_digits (n : Nat) : (digits n).dropWhile Char.isDigit = [] :=
  List.dropWhile_eq_nil_iff.mpr fun _ mem => isDigit_of_mem_digits mem

namespace Number

theorem ofChars_digits (n : Nat) :
    Lexeme.ofChars (digits n) = ⟨false, digits n, none, none⟩ := by
  have unsigned : ∀ cs, digits n ≠ '-' :: cs := by
    intro cs same
    have digit : '-' ∈ digits n := same ▸ List.mem_cons_self
    exact absurd (isDigit_of_mem_digits digit) (by decide)
  unfold Lexeme.ofChars
  split
  · rename_i cs negative rest found
    split at found
    · rename_i same
      exact absurd same (unsigned _)
    · cases found
      simp only [takeWhile_digits, dropWhile_digits]

theorem ofChars_minus_digits (n : Nat) :
    Lexeme.ofChars ('-' :: digits n) = ⟨true, digits n, none, none⟩ := by
  simp only [Lexeme.ofChars, takeWhile_digits, dropWhile_digits]

theorem ofLexeme?_digits {n : Nat} (small : n < 18446744073709551616) :
    ofLexeme? ⟨false, digits n, none, none⟩ = ofInt? n := by
  simp [ofLexeme?, value_digits, small]

theorem ofLexeme?_minus_digits {n : Nat} (pos : 0 < n) (small : n ≤ 9223372036854775808) :
    ofLexeme? ⟨true, digits n, none, none⟩ = ofInt? (-n) := by
  simp [ofLexeme?, value_digits, pos, small]

/-- An integer is read back from its digits. -/
theorem ofChars?_renderInt (n : Whole) : ofChars? (renderInt n.val) = some (.whole n) := by
  have inRange := n.inRange
  have whole : ofInt? n.val = some (.whole n) := dif_pos inRange
  rw [ofChars?, renderInt]
  by_cases negative : n.val < 0
  · have back : -(n.val.natAbs : Int) = n.val := by omega
    rw [if_pos negative, ofChars_minus_digits, ofLexeme?_minus_digits (by omega) (by omega), back,
      whole]
  · have back : (n.val.natAbs : Int) = n.val := by omega
    rw [if_neg negative, ofChars_digits, ofLexeme?_digits (by omega), back, whole]

end Number

namespace Value

theorem renderItems_cons_cons (x y : Value) (xs : List Value) :
    renderItems (x :: y :: xs) = x.render ++ ',' :: renderItems (y :: xs) := by
  simp [renderItems]

theorem renderMembers_cons_cons (m n : String × Value) (ms : List (String × Value)) :
    renderMembers (m :: n :: ms) =
      renderString m.1 ++ ':' :: m.2.render ++ ',' :: renderMembers (n :: ms) := by
  simp [renderMembers]

end Value

namespace Scanner

variable {r : Reading}

def feed (s : Scanner) (cs : List Char) : Scanner := s.run (cs.map some)

/-- Between two tokens. -/
def atRest (r : Reading) : Scanner := { reading := r }

theorem feed_append (s : Scanner) (cs ds : List Char) : s.feed (cs ++ ds) = (s.feed cs).feed ds := by
  simp [feed, run]

theorem feed_cons (s : Scanner) (c : Char) (cs : List Char) :
    s.feed (c :: cs) = (s.step (some c)).feed cs := rfl

/-- What the scanner has read so far counts as `r` whatever follows the value, also if nothing does. -/
structure Settles (s : Scanner) (r : Reading) : Prop where
  step : ∀ c ∈ [',', ']', '\x7d'], s.step (some c) = (atRest r).step (some c)
  finish : s.finish = (atRest r).finish

theorem settles_atRest (r : Reading) : (atRest r).Settles r := ⟨fun _ _ => rfl, rfl⟩

theorem settles_word (r : Reading) (t : Token) : Settles ⟨.word [] t, r⟩ (r.step t) where
  step := by simp [Scanner.step, Scan.step, Scan.begin, atRest]
  finish := rfl

/-! Strings -/

/-- Inside a string, after these characters. -/
def inString (text : List Char) (r : Reading) : Scanner := ⟨.string text .none none, r⟩

theorem feed_control {c : Char} (control : c.toNat < 0x20) (text : List Char) :
    (inString text r).feed (['\\', 'u', '0', '0'] ++ Value.hexPair c.toNat) =
      inString (c :: text) r := by
  have zero : hexValue? '0' = some 0 := rfl
  have high := hexValue?_digitChar (d := c.toNat / 16) (by omega)
  have low := hexValue?_digitChar (d := c.toNat % 16) (by omega)
  have code : c.toNat / 16 * 16 + c.toNat % 16 = c.toNat := by omega
  have single : ¬ (0xD800 ≤ c.toNat ∧ c.toNat ≤ 0xDBFF) ∧ ¬ (0xDC00 ≤ c.toNat ∧ c.toNat ≤ 0xDFFF) := by
    omega
  simp [feed, run, step, inString, Value.hexPair, Scan.step, zero, high, low, code, Scan.addUnit,
    single]

theorem step_plain {c : Char} (quote : c ≠ '"') (backslash : c ≠ '\\') (printable : ¬ c.toNat < 0x20)
    (text : List Char) : (inString text r).step (some c) = inString (c :: text) r := by
  have plain : Scan.isControl c = false := decide_eq_false printable
  simp [step, inString, Scan.step, quote, backslash, plain, Flaw.worsen]

theorem feed_escapeChar (c : Char) (text : List Char) :
    (inString text r).feed (Value.escapeChar c) = inString (c :: text) r := by
  unfold Value.escapeChar
  split
  -- Any character but the seven that have an escape of their own.
  case h_8 =>
    rename_i quote backslash _ _ _ _ _
    split
    · rename_i control
      exact feed_control control text
    · rename_i printable
      exact step_plain quote backslash printable text
  all_goals rfl

theorem feed_escaped (cs text : List Char) :
    (inString text r).feed (cs.flatMap Value.escapeChar) = inString (cs.reverse ++ text) r := by
  induction cs generalizing text with
  | nil => rfl
  | cons c cs ih =>
      rw [List.flatMap_cons, feed_append, feed_escapeChar, ih, List.reverse_cons, List.append_assoc]
      rfl

theorem feed_renderString (r : Reading) (s : String) :
    (atRest r).feed (Value.renderString s) = atRest (r.step (.string (some s))) := by
  have opened : (atRest r).step (some '"') = inString [] r := rfl
  rw [Value.renderString, List.cons_append, feed_cons, opened, feed_append, feed_escaped,
    List.append_nil]
  simp [feed, run, step, inString, atRest, Scan.step, Scan.stringToken, Flaw.worsen]

/-! Numbers -/

def inNumber (phase : NumberPhase) (text : List Char) (r : Reading) : Scanner :=
  ⟨.number phase text, r⟩

theorem settles_inNumber {phase : NumberPhase} (whole : phase = .zero ∨ phase = .whole)
    (text : List Char) (r : Reading) :
    (inNumber phase text r).Settles (r.step (Scan.numberToken text)) := by
  rcases whole with rfl | rfl
  · refine ⟨?_, rfl⟩
    simp [inNumber, step, Scan.step, NumberPhase.next?, NumberPhase.isComplete, Scan.begin, atRest]
  · refine ⟨?_, rfl⟩
    simp [inNumber, step, Scan.step, NumberPhase.next?, NumberPhase.isComplete, Scan.begin, atRest]

theorem feed_digits {ds : List Char} (digits : ∀ c ∈ ds, c.isDigit = true) (text : List Char) :
    (inNumber .whole text r).feed ds = inNumber .whole (ds.reverse ++ text) r := by
  induction ds generalizing text with
  | nil => rfl
  | cons d ds ih =>
      obtain ⟨digit, rest⟩ := List.forall_mem_cons.mp digits
      have taken : (inNumber .whole text r).step (some d) = inNumber .whole (d :: text) r := by
        simp [inNumber, step, Scan.step, NumberPhase.next?, digit]
      rw [feed_cons, taken, ih rest, List.reverse_cons, List.append_assoc]
      rfl

/-- Digits of a positive number, where a number may start or after a minus. -/
theorem feed_digits_of_pos {n : Nat} (pos : 0 < n) {s : Scanner} {text : List Char}
    (starts : ∀ d, 0 < d → d < 10 →
      s.step (some d.digitChar) = inNumber .whole (d.digitChar :: text) r) :
    s.feed (digits n) = inNumber .whole ((digits n).reverse ++ text) r := by
  obtain ⟨d, ds, nonzero, small, front⟩ := exists_digits_cons pos
  have rest : ∀ c ∈ ds, c.isDigit = true := fun c mem =>
    isDigit_of_mem_digits (front ▸ List.mem_cons_of_mem _ mem)
  rw [front, feed_cons, starts d nonzero small, feed_digits rest, List.reverse_cons,
    List.append_assoc]
  rfl

theorem step_digitChar {d : Nat} (pos : 0 < d) (small : d < 10) :
    (atRest r).step (some d.digitChar) = inNumber .whole [d.digitChar] r := by
  interval_cases d <;> rfl

theorem step_minus_digitChar {d : Nat} (pos : 0 < d) (small : d < 10) :
    (inNumber .minus ['-'] r).step (some d.digitChar) =
      inNumber .whole [d.digitChar, '-'] r := by
  interval_cases d <;> rfl

theorem feed_renderInt (r : Reading) (n : Int) : ∃ phase, (phase = .zero ∨ phase = .whole) ∧
    (atRest r).feed (Number.renderInt n) = inNumber phase (Number.renderInt n).reverse r := by
  unfold Number.renderInt
  split
  · rename_i negative
    have signed : (atRest r).step (some '-') = inNumber .minus ['-'] r := rfl
    refine ⟨.whole, .inr rfl, ?_⟩
    rw [feed_cons, signed, feed_digits_of_pos (by omega) fun _ => step_minus_digitChar,
      List.reverse_cons]
  · by_cases zero : n.natAbs = 0
    · rw [zero]
      exact ⟨.zero, .inl rfl, rfl⟩
    · refine ⟨.whole, .inr rfl, ?_⟩
      rw [feed_digits_of_pos (by omega) fun _ => step_digitChar, List.append_nil]

theorem settles_renderInt (r : Reading) (n : Whole) :
    ((atRest r).feed (Number.renderInt n.val)).Settles (r.step (.number (some (.whole n)))) := by
  obtain ⟨phase, complete, fed⟩ := feed_renderInt r n.val
  have token : Scan.numberToken (Number.renderInt n.val).reverse = .number (some (.whole n)) := by
    rw [Scan.numberToken, List.reverse_reverse, Number.ofChars?_renderInt]
  rw [fed, ← token]
  exact settles_inNumber complete _ r

/-! Trees -/

/-- A value may start, inside these frames. -/
def Awaits (r : Reading) (frames : List Frame) : Prop :=
  ∀ t, t ≠ .closeArray → r.step t = Reading.startValue t frames

theorem Awaits.settles {frames : List Frame} (awaits : Awaits r frames) (t : Token) {d : Draft}
    (fills : Reading.startValue t frames = .filled d frames) (inside : t ≠ .closeArray) {s : Scanner}
    (settles : s.Settles (r.step t)) : s.Settles (.filled d frames) := by
  rw [← fills, ← awaits t inside]
  exact settles

/-- The text of the value is read as its draft wherever a value may start. -/
def Reads (v : Value) : Prop :=
  ∀ r frames, Awaits r frames →
    ((atRest r).feed v.render).Settles (.filled (.ofValue v) frames)

theorem awaits_value (frames : List Frame) : Awaits (.value frames) frames := fun _ _ => rfl

theorem awaits_firstItem (frames : List Frame) :
    Awaits (.firstItem frames) (.array [] :: frames) := fun _ other => if_neg other

/-- Items and the bracket after them. -/
theorem feed_renderItems {x : Value} {xs : List Value} (reads : ∀ y ∈ x :: xs, Reads y)
    {done : List Draft} {frames : List Frame} (awaits : Awaits r (.array done :: frames)) :
    (atRest r).feed (Value.renderItems (x :: xs) ++ [']']) =
      atRest (.filled (.array (done.reverse ++ Draft.ofItems (x :: xs)) none) frames) := by
  have settles := reads x List.mem_cons_self r _ awaits
  induction xs generalizing x r done with
  | nil =>
      have closed : (atRest (.filled (.ofValue x) (.array done :: frames))).step (some ']') =
          atRest (.filled (.array (.ofValue x :: done).reverse none) frames) := rfl
      rw [Value.renderItems, feed_append, feed_cons, settles.step _ (by decide), closed,
        List.reverse_cons]
      rfl
  | cons y ys ih =>
      have comma : (atRest (.filled (.ofValue x) (.array done :: frames))).step (some ',') =
          atRest (.value (.array (.ofValue x :: done) :: frames)) := rfl
      have later : ∀ z ∈ y :: ys, Reads z := fun z mem => reads z (List.mem_cons_of_mem _ mem)
      rw [Value.renderItems_cons_cons, List.append_assoc, feed_append, List.cons_append, feed_cons,
        settles.step _ (by decide), comma,
        ih later (awaits_value _) (later y List.mem_cons_self _ _ (awaits_value _)),
        List.reverse_cons, List.append_assoc]
      rfl

/-- A key with its colon and its value. -/
theorem settles_member {v : Value} (reads : Reads v) (key : String)
    (done : List (Option String × Draft)) (first : Bool) (frames : List Frame) :
    ((atRest (.key done first frames)).feed (Value.renderString key ++ ':' :: v.render)).Settles
      (.filled (.ofValue v) (.object done (some key) :: frames)) := by
  have colon : (atRest (.colon done (some key) frames)).step (some ':') =
      atRest (.value (.object done (some key) :: frames)) := rfl
  rw [feed_append, feed_renderString, feed_cons]
  exact colon ▸ reads _ _ (awaits_value _)

/-- Members and the brace after them. -/
theorem feed_renderMembers {m : String × Value} {ms : List (String × Value)}
    (reads : ∀ n ∈ m :: ms, Reads n.2) (done : List (Option String × Draft)) (first : Bool)
    (frames : List Frame) :
    (atRest (.key done first frames)).feed (Value.renderMembers (m :: ms) ++ ['\x7d']) =
      atRest (.filled (.object (done.reverse ++ Draft.ofMembers (m :: ms)) .closed) frames) := by
  induction ms generalizing m done first with
  | nil =>
      obtain ⟨k, v⟩ := m
      have settles := settles_member (reads _ List.mem_cons_self) k done first frames
      have closed :
          (atRest (.filled (.ofValue v) (.object done (some k) :: frames))).step (some '\x7d') =
            atRest (.filled (.object ((some k, .ofValue v) :: done).reverse .closed) frames) := rfl
      rw [Value.renderMembers, feed_append, feed_cons, settles.step _ (by decide), closed,
        List.reverse_cons]
      rfl
  | cons n ms ih =>
      obtain ⟨k, v⟩ := m
      have settles := settles_member (reads _ List.mem_cons_self) k done first frames
      have comma : (atRest (.filled (.ofValue v) (.object done (some k) :: frames))).step (some ',') =
          atRest (.key ((some k, .ofValue v) :: done) false frames) := rfl
      rw [Value.renderMembers_cons_cons, List.append_assoc, feed_append, List.cons_append, feed_cons,
        settles.step _ (by decide), comma,
        ih (fun l mem => reads l (List.mem_cons_of_mem _ mem)), List.reverse_cons,
        List.append_assoc]
      rfl

/-- The scanner reads a tree if it reads each of its parts. -/
theorem reads_of_isFloatFree {v : Value} (whole : v.isFloatFree = true) : Reads v := by
  induction v using Value.induct with
  | null =>
      intro r frames awaits
      exact awaits.settles .null rfl nofun (settles_word r .null)
  | bool b =>
      intro r frames awaits
      cases b with
      | false => exact awaits.settles (.bool false) rfl nofun (settles_word r (.bool false))
      | true => exact awaits.settles (.bool true) rfl nofun (settles_word r (.bool true))
  | number n =>
      intro r frames awaits
      cases n with
      | float x => cases whole
      | whole n => exact awaits.settles (.number (some (.whole n))) rfl nofun (settles_renderInt r n)
  | string s =>
      intro r frames awaits
      rw [Value.render, feed_renderString]
      exact awaits.settles (.string (some s)) rfl nofun (settles_atRest _)
  | array items ih =>
      intro r frames awaits
      have opened : (atRest r).step (some '[') = atRest (.firstItem frames) :=
        congrArg atRest (awaits .openArray (by decide))
      have each : ∀ x ∈ items, Reads x := fun x mem =>
        ih x mem (Value.isFloatFree_array.mp whole x mem)
      rw [Value.render, List.cons_append, feed_cons, opened]
      cases items with
      | nil => exact settles_atRest _
      | cons x xs =>
          rw [feed_renderItems each (awaits_firstItem frames)]
          exact settles_atRest _
  | object members ih =>
      intro r frames awaits
      have opened : (atRest r).step (some '\x7b') = atRest (.key [] true frames) :=
        congrArg atRest (awaits .openObject (by decide))
      have each : ∀ m ∈ members, Reads m.2 := fun m mem =>
        ih m mem (Value.isFloatFree_object.mp whole m mem)
      rw [Value.render, List.cons_append, feed_cons, opened]
      cases members with
      | nil => exact settles_atRest _
      | cons m ms =>
          rw [feed_renderMembers each]
          exact settles_atRest _

end Scanner

/-- The text of a value is read as the draft of that value, and nothing follows it. -/
theorem Draft.ofSymbols_render {v : Value} (whole : v.isFloatFree = true) :
    Draft.ofSymbols (v.render.map some) = (.ofValue v, false) :=
  (Scanner.reads_of_isFloatFree whole (.value []) [] (Scanner.awaits_value [])).finish

section Entry

variable {α : Type} {v : Value}

theorem decodeSymbols_of_drawn {decode : Decoder α} {xs : List Text.Symbol} {d : Draft}
    (drawn : Draft.ofSymbols xs = (d, false)) :
    decodeSymbols decode xs = decode (.text maxDepth) d := by
  rw [decodeSymbols, drawn]
  exact bind_pure _

theorem decodeText_toString (decode : Decoder α) (whole : v.isFloatFree = true) :
    decodeText decode (toString v) = decode (.text maxDepth) (.ofValue v) := by
  have text : (toString v).toList = v.render := String.toList_ofList
  rw [decodeText, text]
  exact decodeSymbols_of_drawn (Draft.ofSymbols_render whole)

theorem decodeBytes_toBytes (decode : Decoder α) (whole : v.isFloatFree = true) :
    decodeBytes decode v.toBytes = decode (.text maxDepth) (.ofValue v) := by
  have symbols : Text.symbols v.toBytes = v.render.map some := by
    rw [Value.toBytes, Text.symbols_toUTF8, String.toList_ofList]
  rw [decodeBytes, symbols]
  exact decodeSymbols_of_drawn (Draft.ofSymbols_render whole)

end Entry

end SmsTracking.Json
