import SmsTracking.Proofs.Wire.Scanning
import SmsTracking.Toml.Document

/-!
Documents that set bare keys to whole numbers, one on each line, with blanks around what counts. A
number may have a sign, and underscores between its digits. Main statement: if no key is set twice,
such a document is read as the table of its assignments (`ofString?_of_written`).
-/

namespace SmsTracking.Toml

open Decimal

/-! Numerals -/

/-- The digits as they may be written, with single underscores between them. -/
inductive Spelling : List Char → List Char → Prop
  | last (d : Char) : Spelling [d] [d]
  | next (d : Char) {ds cs : List Char} (spelling : Spelling ds cs) : Spelling (d :: ds) (d :: cs)
  | apart (d : Char) {ds cs : List Char} (spelling : Spelling ds cs) :
      Spelling (d :: ds) (d :: '_' :: cs)

/-- A decimal number, with or without a sign. -/
inductive Numeral : Int → List Char → Prop
  | plain {n : Nat} {cs : List Char} (spelling : Spelling (digits n) cs) : Numeral n cs
  | plus {n : Nat} {cs : List Char} (spelling : Spelling (digits n) cs) : Numeral n ('+' :: cs)
  | minus {n : Nat} {cs : List Char} (spelling : Spelling (digits n) cs) : Numeral (-n) ('-' :: cs)

theorem ne_of_holds {p : Char → Bool} {c : Char} (holds : p c = true) (d : Char)
    (fails : p d = false) : c ≠ d := by
  rintro rfl
  rw [holds] at fails
  cases fails

namespace Spelling

variable {ds cs : List Char}

theorem exists_cons (spelling : Spelling ds cs) : ∃ d es fs, ds = d :: es ∧ cs = d :: fs := by
  cases spelling with
  | last d => exact ⟨d, [], [], rfl, rfl⟩
  | next d spelling => exact ⟨d, _, _, rfl, rfl⟩
  | apart d spelling => exact ⟨d, _, _, rfl, rfl⟩

theorem self (nonempty : ds ≠ []) : Spelling ds ds := by
  induction ds with
  | nil => exact absurd rfl nonempty
  | cons d ds ih =>
      cases ds with
      | nil => exact .last d
      | cons e ds => exact .next d (ih (List.cons_ne_nil e ds))

theorem isDigit_or_eq (spelling : Spelling ds cs) (digits : ∀ d ∈ ds, d.isDigit = true) :
    ∀ c ∈ cs, c.isDigit = true ∨ c = '_' := by
  induction spelling with
  | last d => exact fun c mem => .inl (digits c mem)
  | next d spelling ih =>
      obtain ⟨first, later⟩ := List.forall_mem_cons.mp digits
      exact List.forall_mem_cons.mpr ⟨.inl first, ih later⟩
  | apart d spelling ih =>
      obtain ⟨first, later⟩ := List.forall_mem_cons.mp digits
      exact List.forall_mem_cons.mpr ⟨.inl first, List.forall_mem_cons.mpr ⟨.inr rfl, ih later⟩⟩

theorem grouped?_eq (spelling : Spelling ds cs) (digits : ∀ d ∈ ds, d.isDigit = true) :
    grouped? Char.isDigit cs = some ds := by
  induction spelling with
  | last d => exact if_pos (digits d List.mem_cons_self)
  | next d spelling ih =>
      obtain ⟨first, later⟩ := List.forall_mem_cons.mp digits
      obtain ⟨e, es, fs, rfl, rfl⟩ := spelling.exists_cons
      have plain : e ≠ '_' := ne_of_holds (later e List.mem_cons_self) '_' rfl
      simp [grouped?, first, plain, ih later]
  | apart d spelling ih =>
      obtain ⟨first, later⟩ := List.forall_mem_cons.mp digits
      simp [grouped?, first, ih later]

/-- A number has no zero in front. -/
theorem plain?_eq {n : Nat} (spelling : Spelling (digits n) cs) :
    plain? cs = some (digits n) := by
  rw [plain?, spelling.grouped?_eq fun _ mem => Json.isDigit_of_mem_digits mem]
  rcases Nat.eq_zero_or_pos n with rfl | pos
  · rfl
  · obtain ⟨d, ds, nonzero, small, split⟩ := Json.exists_digits_cons pos
    have first : d.digitChar ≠ '0' := by
      interval_cases d <;> decide
    rw [split]
    split
    · rename_i same
      exact absurd (List.cons.inj (Option.some.inj same)).1 first
    · rfl

end Spelling

/-- Characters with which a numeral may begin. -/
def opensNumeral (c : Char) : Bool := c.isDigit || c = '+' || c = '-'

namespace Numeral

variable {n : Int} {cs : List Char}

theorem renderInt (n : Int) : Numeral n (Json.Number.renderInt n) := by
  have spelling : Spelling (digits n.natAbs) (digits n.natAbs) := .self Nat.toDigits_ne_nil
  rw [Json.Number.renderInt]
  split
  · have back : -(n.natAbs : Int) = n := by omega
    have negative := Numeral.minus spelling
    rwa [back] at negative
  · have back : (n.natAbs : Int) = n := by omega
    have positive := Numeral.plain spelling
    rwa [back] at positive

/-- A numeral has digits and underscores behind its first character. -/
theorem exists_cons (numeral : Numeral n cs) : ∃ c ds, cs = c :: ds ∧ opensNumeral c = true ∧
    ∀ d ∈ ds, d.isDigit = true ∨ d = '_' := by
  cases numeral with
  | plain spelling =>
      have later := spelling.isDigit_or_eq fun _ mem => Json.isDigit_of_mem_digits mem
      obtain ⟨d, ds, es, split, rfl⟩ := spelling.exists_cons
      have digit : d.isDigit = true := Json.isDigit_of_mem_digits (split ▸ List.mem_cons_self)
      exact ⟨d, es, rfl, by simp [opensNumeral, digit], (List.forall_mem_cons.mp later).2⟩
  | plus spelling =>
      exact ⟨'+', _, rfl, rfl, spelling.isDigit_or_eq fun _ mem => Json.isDigit_of_mem_digits mem⟩
  | minus spelling =>
      exact ⟨'-', _, rfl, rfl, spelling.isDigit_or_eq fun _ mem => Json.isDigit_of_mem_digits mem⟩

theorem isScalarChar (numeral : Numeral n cs) : ∀ c ∈ cs, isScalarChar c = true := by
  have digit {d : Char} (digit : d.isDigit = true) : Toml.isScalarChar d = true := by
    simp [Toml.isScalarChar, Char.isAlphanum, digit]
  obtain ⟨c, ds, rfl, first, later⟩ := numeral.exists_cons
  refine List.forall_mem_cons.mpr ⟨?_, fun d mem => ?_⟩
  · simp only [opensNumeral, Bool.or_eq_true, decide_eq_true_eq] at first
    rcases first with (first | rfl) | rfl
    · exact digit first
    · rfl
    · rfl
  · rcases later d mem with later | rfl
    · exact digit later
    · rfl

theorem integer?_eq (numeral : Numeral n cs) (least : -integerLimit ≤ n)
    (greatest : n < integerLimit) : integer? cs = some n := by
  obtain ⟨c, ds, split, first, later⟩ := numeral.exists_cons
  have second {d : Char} {es : List Char} (same : cs = '0' :: d :: es) :
      d.isDigit = true ∨ d = '_' := by
    rw [split] at same
    exact later d ((List.cons.inj same).2 ▸ List.mem_cons_self)
  unfold integer?
  split
  · exact absurd (second rfl) (by decide)
  · exact absurd (second rfl) (by decide)
  · exact absurd (second rfl) (by decide)
  · cases numeral with
    | plain spelling =>
        have unsigned : signed cs = (false, cs) := by
          obtain ⟨d, es, fs, same, rfl⟩ := spelling.exists_cons
          have digit : d.isDigit = true := Json.isDigit_of_mem_digits (same ▸ List.mem_cons_self)
          simp [signed, ne_of_holds digit '-' rfl, ne_of_holds digit '+' rfl]
        have small := Int.ofNat_lt.mp greatest
        simp [unsigned, spelling.plain?_eq, value_digits, small]
    | plus spelling =>
        have small := Int.ofNat_lt.mp greatest
        simp [signed, spelling.plain?_eq, value_digits, small]
    | @minus n _ spelling =>
        have small : n ≤ integerLimit := by omega
        simp [signed, spelling.plain?_eq, value_digits, small]

theorem scalar?_eq (numeral : Numeral n cs) (least : -integerLimit ≤ n)
    (greatest : n < integerLimit) : scalar? cs = some (.integer n) := by
  obtain ⟨c, ds, split, first, _⟩ := numeral.exists_cons
  have noTrue : cs ≠ "true".toList := fun same =>
    ne_of_holds first 't' rfl (List.cons.inj (split.symm.trans same)).1
  have noFalse : cs ≠ "false".toList := fun same =>
    ne_of_holds first 'f' rfl (List.cons.inj (split.symm.trans same)).1
  rw [scalar?, if_neg noTrue, if_neg noFalse, numeral.integer?_eq least greatest]

end Numeral

/-! Blanks and line ends -/

/-- A line may end here, so that this follows it. -/
inductive LineEnd : List Char → List Char → Prop
  | eof : LineEnd [] []
  | lf (rest : List Char) : LineEnd ('\n' :: rest) rest
  | crlf (rest : List Char) : LineEnd ('\r' :: '\n' :: rest) rest

theorem LineEnd.length_lt {front cs rest : List Char} (ending : LineEnd cs rest)
    (nonempty : front ++ cs ≠ []) : rest.length < (front ++ cs).length := by
  cases ending with
  | eof => exact List.length_pos_of_ne_nil nonempty
  | lf rest =>
      rw [List.length_append, List.length_cons]
      omega
  | crlf rest =>
      rw [List.length_append, List.length_cons, List.length_cons]
      omega

theorem skipWs_cons {p : Char → Bool} {c : Char} (first : p c = true) (space : p ' ' = false)
    (tab : p '\t' = false) (cs : List Char) : skipWs (c :: cs) = c :: cs := by
  have ink : isWs c = false := by
    simp [isWs, ne_of_holds first ' ' space, ne_of_holds first '\t' tab]
  exact List.dropWhile_cons_of_neg (ne_true_of_eq_false ink)

/-- A key does not stand in a line that has ended. -/
theorem endLine?_bare {c : Char} (bare : isBareChar c = true) (cs : List Char) :
    endLine? (c :: cs) = none := by
  simp [endLine?, skipWs_cons bare rfl rfl, skipComment, newline?, ne_of_holds bare '#' rfl,
    ne_of_holds bare '\n' rfl, ne_of_holds bare '\r' rfl]

section Blank

variable {ws cs rest : List Char} (blank : ∀ c ∈ ws, isWs c = true)

include blank

theorem skipWs_append : skipWs (ws ++ cs) = skipWs cs :=
  List.dropWhile_append_of_pos blank

theorem takeWhile_blank {p : Char → Bool} (space : p ' ' = false) (tab : p '\t' = false)
    (stops : cs.takeWhile p = []) : (ws ++ cs).takeWhile p = [] := by
  cases ws with
  | nil => exact stops
  | cons w ws =>
      have first := blank w List.mem_cons_self
      simp only [isWs, Bool.or_eq_true, decide_eq_true_eq] at first
      rcases first with rfl | rfl
      · simp [space]
      · simp [tab]

theorem endLine?_eq (ending : LineEnd cs rest) : endLine? (ws ++ cs) = some rest := by
  rw [endLine?, skipWs_append blank]
  cases ending <;> rfl

/-- A number is not taken for a date that a time follows. -/
theorem takeScalar?_eq {n : Int} {numeral : List Char} (written : Numeral n numeral)
    (least : -integerLimit ≤ n) (greatest : n < integerLimit) (ending : LineEnd cs rest) :
    takeScalar? (numeral ++ (ws ++ cs)) = some (.integer n, ws ++ cs) := by
  have stops : cs.takeWhile isScalarChar = [] := by
    cases ending <;> rfl
  have run : (numeral ++ (ws ++ cs)).takeWhile isScalarChar = numeral := by
    rw [List.takeWhile_append_of_pos written.isScalarChar, takeWhile_blank blank rfl rfl stops,
      List.append_nil]
  have alone (tail : List Char) (follows : ws ++ cs = ' ' :: tail) :
      tail.takeWhile isScalarChar = [] := by
    cases ws with
    | nil =>
        rw [List.nil_append] at follows
        subst follows
        cases ending
    | cons w ws =>
        cases follows
        exact takeWhile_blank (List.forall_mem_cons.mp blank).2 rfl rfl stops
  simp only [takeScalar?, run, List.drop_left, written.scalar?_eq least greatest]
  rw [if_neg]
  · rfl
  · rintro ⟨follows, _⟩
    split at follows
    · rename_i tail joined
      exact follows (alone tail joined)
    · exact follows rfl

theorem value?_eq {n : Int} {numeral : List Char} (written : Numeral n numeral)
    (least : -integerLimit ≤ n) (greatest : n < integerLimit) (ending : LineEnd cs rest)
    (fuel depth : Nat) :
    value? (fuel + 1) depth (numeral ++ (ws ++ cs)) = some (.integer n, ws ++ cs) := by
  rw [← takeScalar?_eq blank written least greatest ending]
  obtain ⟨c, ds, rfl, first, _⟩ := written.exists_cons
  simp [value?, ne_of_holds first '[' rfl, ne_of_holds first '\x7b' rfl,
    ne_of_holds first '"' rfl, ne_of_holds first '\'' rfl]

theorem key?_eq {key : String} (bare : ∀ c ∈ key.toList, isBareChar c = true)
    (nonempty : key ≠ "") (fuel : Nat) (text : List Char) :
    key? (fuel + 1) (key.toList ++ (ws ++ '=' :: text)) = some (([], key), '=' :: text) := by
  have run : (key.toList ++ (ws ++ '=' :: text)).takeWhile isBareChar = key.toList := by
    rw [List.takeWhile_append_of_pos bare, takeWhile_blank blank rfl rfl rfl, List.append_nil]
  obtain ⟨c, ds, front⟩ := List.exists_cons_of_ne_nil (l := key.toList) (by simpa using nonempty)
  have simple : simpleKey? (key.toList ++ (ws ++ '=' :: text)) =
      some (key, ws ++ '=' :: text) := by
    rw [simpleKey?, run]
    split
    · rename_i empty
      exact absurd (front.symm.trans empty) (List.cons_ne_nil c ds)
    · rw [String.ofList_toList, List.drop_left]
  have still : skipWs (key.toList ++ (ws ++ '=' :: text)) = key.toList ++ (ws ++ '=' :: text) := by
    rw [front]
    exact skipWs_cons (bare c (front ▸ List.mem_cons_self)) rfl rfl _
  have gap : skipWs (ws ++ '=' :: text) = '=' :: text := skipWs_append blank
  rw [key?, still, simple]
  simp only [Option.bind_eq_bind, Option.bind_some, gap]
  rfl

end Blank

/-! Assignments -/

/-- A bare key, a number of 64 bits as it is written, and the blanks around them. -/
structure Assignment where
  key : String
  value : Int64
  numeral : List Char
  indent : List Char
  before : List Char
  after : List Char
  trail : List Char
  nonempty : key ≠ ""
  bare : ∀ c ∈ key.toList, isBareChar c = true
  written : Numeral value.toInt numeral
  blank : ∀ c ∈ indent ++ before ++ after ++ trail, isWs c = true

/-- The table of the assignments, in their order. -/
def tableOf (as : List Assignment) : Table :=
  .mk false false (as.map fun a => (a.key, .value (.integer a.value.toInt)))

namespace Assignment

/-- An assignment as it is usually written. -/
def plain (key : String) (value : Int64) (nonempty : key ≠ "")
    (bare : ∀ c ∈ key.toList, isBareChar c = true) : Assignment where
  key := key
  value := value
  numeral := Json.Number.renderInt value.toInt
  indent := []
  before := [' ']
  after := [' ']
  trail := []
  nonempty := nonempty
  bare := bare
  written := .renderInt value.toInt
  blank := by simp [isWs]

def text (a : Assignment) : List Char :=
  a.indent ++ (a.key.toList ++ (a.before ++ '=' :: (a.after ++ (a.numeral ++ a.trail))))

theorem exists_key_cons (a : Assignment) :
    ∃ c ds, a.key.toList = c :: ds ∧ isBareChar c = true := by
  have nonempty : a.key.toList ≠ [] := by
    simpa using a.nonempty
  obtain ⟨c, ds, front⟩ := List.exists_cons_of_ne_nil nonempty
  exact ⟨c, ds, front, a.bare c (front ▸ List.mem_cons_self)⟩

theorem put?_tableOf {as : List Assignment} {a : Assignment} (new : a.key ∉ as.map (·.key)) :
    (tableOf as).put? [] a.key (.integer a.value.toInt) = some (tableOf (as ++ [a])) := by
  have vacant : (tableOf as).find? a.key = none := by
    refine List.lookup_eq_none_iff.mpr fun e mem => ?_
    obtain ⟨b, among, rfl⟩ := List.mem_map.mp mem
    have other : a.key ≠ b.key := fun same => new (List.mem_map.mpr ⟨b, among, same.symm⟩)
    simpa using other
  have joined : (tableOf as).add a.key (.value (.integer a.value.toInt)) = tableOf (as ++ [a]) := by
    simp [tableOf, Table.add, Table.implicit, Table.dotted, Table.entries]
  rw [Table.put?, Table.change?, vacant, joined]
  rfl

theorem line?_eq {as : List Assignment} {a : Assignment} (new : a.key ∉ as.map (·.key))
    {cs rest : List Char} (ending : LineEnd cs rest) :
    line? ⟨tableOf as, []⟩ (a.text ++ cs) = some (⟨tableOf (as ++ [a]), []⟩, rest) := by
  obtain ⟨⟨⟨indent, before⟩, after⟩, trail⟩ := by simpa only [List.forall_mem_append] using a.blank
  have least : -(integerLimit : Int) ≤ a.value.toInt := a.value.le_toInt
  have greatest : a.value.toInt < (integerLimit : Int) := a.value.toInt_lt
  have parts : a.text ++ cs = a.indent ++ (a.key.toList ++ (a.before ++ '=' ::
      (a.after ++ (a.numeral ++ (a.trail ++ cs))))) := by
    simp [text]
  obtain ⟨c, ds, front, bare⟩ := a.exists_key_cons
  have keyed (text : List Char) : key? maxDepth (c :: (ds ++ (a.before ++ '=' :: text))) =
      some (([], a.key), '=' :: text) := by
    have read := key?_eq before a.bare a.nonempty 78 text
    rw [front] at read
    exact read
  obtain ⟨d, es, number, first, _⟩ := a.written.exists_cons
  have still (text : List Char) : skipWs (a.numeral ++ text) = a.numeral ++ text := by
    rw [number]
    exact skipWs_cons first rfl rfl _
  have change : (tableOf as).change? false (·.put? [] a.key (.integer a.value.toInt)) [] =
      some (tableOf (as ++ [a])) := put?_tableOf new
  rw [parts, line?, skipWs_append indent, front, List.cons_append, skipWs_cons bare rfl rfl]
  split
  · rename_i same
    exact absurd (List.cons.inj same).1 (ne_of_holds bare '[' rfl)
  · rename_i same
    exact absurd (List.cons.inj same).1 (ne_of_holds bare '[' rfl)
  · rw [endLine?_bare bare]
    simp only [keyed, Option.bind_eq_bind, Option.bind_some, skipWs_append after, still,
      value?_eq trail a.written least greatest ending, change, endLine?_eq trail ending]

end Assignment

/-- Lines with one assignment each, and blank ones between them. The last line may have no end. -/
inductive Written : List Assignment → List Char → Prop
  | nil : Written [] []
  | blank {as : List Assignment} {ws cs rest : List Char} (blank : ∀ c ∈ ws, isWs c = true)
      (ending : LineEnd cs rest) (written : Written as rest) : Written as (ws ++ cs)
  | line {as : List Assignment} {cs rest : List Char} (a : Assignment) (ending : LineEnd cs rest)
      (written : Written as rest) : Written (a :: as) (a.text ++ cs)

theorem line?_blank {p : Progress} {ws cs rest : List Char} (blank : ∀ c ∈ ws, isWs c = true)
    (ending : LineEnd cs rest) : line? p (ws ++ cs) = some (p, rest) := by
  rw [line?, skipWs_append blank]
  cases ending <;> rfl

theorem ne_bom_of_blank {ws cs : List Char} (blank : ∀ c ∈ ws, isWs c = true)
    (other : ∀ rest, cs ≠ '\uFEFF' :: rest) : ∀ rest, ws ++ cs ≠ '\uFEFF' :: rest := by
  cases ws with
  | nil => exact other
  | cons w ws =>
      exact fun rest same =>
        ne_of_holds (blank w List.mem_cons_self) '\uFEFF' rfl (List.cons.inj same).1

theorem lines?_nil (fuel : Nat) (p : Progress) : lines? fuel p [] = some p.root := by
  cases fuel <;> rfl

theorem lines?_eq_of_line? {p q : Progress} {fuel : Nat} {front cs rest : List Char}
    (ending : LineEnd cs rest) (nonempty : front ++ cs ≠ [])
    (enough : (front ++ cs).length ≤ fuel) (line : line? p (front ++ cs) = some (q, rest)) :
    ∃ less, rest.length ≤ less ∧ lines? fuel p (front ++ cs) = lines? less q rest := by
  have shorter := ending.length_lt nonempty
  match fuel, enough with
  | 0, enough => omega
  | fuel + 1, enough =>
      refine ⟨fuel, by omega, ?_⟩
      obtain ⟨c, ds, split⟩ := List.exists_cons_of_ne_nil nonempty
      rw [split] at line ⊢
      simp only [lines?, line, Option.bind_eq_bind, Option.bind_some]

theorem lines?_eq {as : List Assignment} {cs : List Char} (written : Written as cs)
    (before : List Assignment) (distinct : ((before ++ as).map (·.key)).Nodup) {fuel : Nat}
    (enough : cs.length ≤ fuel) :
    lines? fuel ⟨tableOf before, []⟩ cs = some (tableOf (before ++ as)) := by
  -- The table holds what has been read so far, and the fuel reaches as far as the rest does.
  induction written generalizing before fuel with
  | nil => rw [lines?_nil, List.append_nil]
  | @blank as ws cs rest blank ending written ih =>
      by_cases empty : ws ++ cs = []
      · obtain ⟨rfl, rfl⟩ := List.append_eq_nil_iff.mp empty
        cases ending
        exact ih before distinct enough
      · obtain ⟨less, enough, same⟩ :=
          lines?_eq_of_line? ending empty enough (line?_blank blank ending)
        rw [same]
        exact ih before distinct enough
  | @line as cs rest a ending written ih =>
      have new : a.key ∉ before.map (·.key) := by
        rw [List.map_append] at distinct
        obtain ⟨_, _, apart⟩ := List.nodup_append.mp distinct
        exact fun mem => apart _ mem _ List.mem_cons_self rfl
      have nonempty : a.text ++ cs ≠ [] := by
        simp [Assignment.text]
      obtain ⟨less, enough, same⟩ :=
        lines?_eq_of_line? ending nonempty enough (Assignment.line?_eq new ending)
      rw [same, ih _ (by simpa using distinct) enough, List.append_assoc]
      rfl

/-- What a document begins with is no byte order mark. -/
theorem Written.ne_bom {as : List Assignment} {cs : List Char} (written : Written as cs) :
    ∀ rest, cs ≠ '\uFEFF' :: rest := by
  cases written with
  | nil => exact fun _ => nofun
  | @blank _ ws cs _ blank ending _ =>
      refine ne_bom_of_blank blank fun rest => ?_
      cases ending <;> exact nofun
  | @line _ cs _ a _ _ =>
      obtain ⟨⟨⟨indent, _⟩, _⟩, _⟩ := by simpa only [List.forall_mem_append] using a.blank
      obtain ⟨c, ds, front, bare⟩ := a.exists_key_cons
      rw [Assignment.text, List.append_assoc, front]
      exact ne_bom_of_blank indent fun rest same =>
        ne_of_holds bare '\uFEFF' rfl (List.cons.inj same).1

theorem toValue_tableOf (as : List Assignment) :
    (tableOf as).toValue = .table (as.map fun a => (a.key, .integer a.value.toInt)) := by
  rw [tableOf, Table.toValue]
  congr 1
  induction as with
  | nil => rfl
  | cons a as ih => rw [List.map_cons, Table.toMembers, ih, List.map_cons, Item.toValue]

/-- The document is read as the table of its assignments. -/
theorem ofString?_of_written {as : List Assignment} {s : String} (written : Written as s.toList)
    (distinct : (as.map (·.key)).Nodup) :
    ofString? s = some (.table (as.map fun a => (a.key, .integer a.value.toInt))) := by
  have tables : lines? s.toList.length ⟨tableOf [], []⟩ s.toList = some (tableOf as) :=
    lines?_eq written [] distinct (Nat.le_refl _)
  have whole : parse? s.toList = lines? s.toList.length ⟨.empty, []⟩ s.toList := by
    unfold parse?
    split
    · rename_i rest mark
      exact absurd mark (written.ne_bom rest)
    · rfl
  rw [ofString?, whole]
  exact (congrArg (Option.map Table.toValue) tables).trans (congrArg some (toValue_tableOf as))

end SmsTracking.Toml
