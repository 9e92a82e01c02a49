import SmsTracking.Program.Turns
import SmsTracking.Service.Lifecycle

/-!
Programs that come to an end. A program that makes at most so many requests, whatever it is answered,
has ended after so many turns of its own, whoever else has had turns in between. Main statement: a
transition needs three turns for every try (`isSome_outcome?_run`, `transition_endsWithin`).
-/

namespace SmsTracking

namespace Program

variable {α : Type} {n : Nat}

/-- The program ends after at most so many requests. -/
def EndsWithin : Program α → Nat → Prop
  | done _, _ => True
  | abort _, _ => True
  | ask _ _, 0 => False
  | ask _ next, n + 1 => ∀ answer, (next answer).EndsWithin n

theorem EndsWithin.done (x : α) (n : Nat) : (Program.done x).EndsWithin n := by
  simp [EndsWithin]

theorem EndsWithin.abort (text : String) (n : Nat) :
    (Program.abort text : Program α).EndsWithin n := by
  simp [EndsWithin]

theorem EndsWithin.load {id : Uuid} {f : Except DomainError Message → Program α}
    (rest : ∀ answer, (f answer).EndsWithin n) : (Program.load id >>= f).EndsWithin (n + 1) :=
  rest

theorem EndsWithin.now {f : Timestamp → Program α} (rest : ∀ time, (f time).EndsWithin n) :
    (Program.now >>= f).EndsWithin (n + 1) :=
  rest

theorem EndsWithin.update {m : Message} {f : Update → Program α}
    (rest : ∀ answer, (f answer).EndsWithin n) : (Program.update m >>= f).EndsWithin (n + 1) :=
  rest

end Program

namespace Turns

variable {α : Type} {t : Turns α} {place n : Nat}

/-- The program that stands in a place has at most so many requests left. -/
def Left (t : Turns α) (place n : Nat) : Prop :=
  ∃ p : Program α, t.programs[place]? = some p ∧ p.EndsWithin n

theorem Left.isSome_outcome? (left : t.Left place 0) : (t.outcome? place).isSome = true := by
  obtain ⟨p, found, ends⟩ := left
  cases p with
  | done a => simp [outcome?, found]
  | abort text => simp [outcome?, found]
  | ask r next => exact ends.elim

theorem Left.go_self (left : t.Left place n) (a : Ambient) (heirs : α → List (Program α)) :
    (t.go a heirs place).Left place (n - 1) := by
  obtain ⟨p, found, ends⟩ := left
  cases p with
  | done x => exact ⟨.done x, by simp [go, found], .done x _⟩
  | abort text => exact ⟨.abort text, by simp [go, found], .abort text _⟩
  | ask r next =>
      have inside : place < t.programs.length := (List.getElem?_eq_some_iff.mp found).1
      cases n with
      | zero => exact ends.elim
      | succ n =>
          refine ⟨next (t.world.answer a r).1, ?_, ends _⟩
          simp only [go, found]
          rw [List.getElem?_append_left (by simpa using inside), List.getElem?_set_self inside]

theorem Left.go_other (left : t.Left place n) (a : Ambient) (heirs : α → List (Program α))
    {other : Nat} (ne : other ≠ place) : (t.go a heirs other).Left place n := by
  obtain ⟨p, found, ends⟩ := left
  have inside : place < t.programs.length := (List.getElem?_eq_some_iff.mp found).1
  refine ⟨p, ?_, ends⟩
  unfold go
  split
  · simp only
    rw [List.getElem?_append_left (by simpa using inside), List.getElem?_set_ne ne, found]
  · exact found

theorem Left.run (left : t.Left place n) (a : Ambient) (heirs : α → List (Program α))
    (schedule : List Turn) :
    (t.run a heirs schedule).Left place (n - schedule.count (.go place)) := by
  induction schedule generalizing t n with
  | nil => exact left
  | cons turn schedule ih =>
      by_cases own : turn = .go place
      · subst own
        have rest := ih (left.go_self a heirs)
        rw [List.count_cons_self, Nat.add_comm, Nat.sub_add_eq]
        exact rest
      · rw [List.count_cons_of_ne own]
        refine ih ?_
        cases turn with
        | go other => exact left.go_other a heirs fun same => own (by rw [same])
        | pass s => exact left
        | cancel => exact left

theorem isSome_outcome?_run {p : Program α} (found : t.programs[place]? = some p)
    (ends : p.EndsWithin n) (a : Ambient) (heirs : α → List (Program α)) {schedule : List Turn}
    (enough : n ≤ schedule.count (.go place)) :
    ((t.run a heirs schedule).outcome? place).isSome = true := by
  have left : t.Left place n := ⟨p, found, ends⟩
  have rest := left.run a heirs schedule
  rw [Nat.sub_eq_zero_of_le enough] at rest
  exact rest.isSome_outcome?

end Turns

namespace Lifecycle

theorem tryMove_endsWithin (id : Uuid) (move : Move)
    {conflicted : DomainError → Program (Except AppError Message)} {n : Nat}
    (rest : ∀ e, (conflicted e).EndsWithin n) : (tryMove id move conflicted).EndsWithin (n + 3) := by
  refine .load fun loaded => ?_
  cases loaded with
  | error e => exact .done _ _
  | ok m =>
      refine .now fun now => ?_
      cases move.apply m now with
      | overflow _ => exact .abort _ _
      | refused e => exact .done _ _
      | done m' =>
          refine .update fun answer => ?_
          cases answer with
          | done => exact .done _ _
          | overflow => exact .abort _ _
          | refused e =>
              cases e with
              | versionConflict id expected actual => exact rest _
              | _ => exact .done _ _

theorem transition_endsWithin (id : Uuid) (move : Move) (retries : Nat) :
    (transition id move retries).EndsWithin (3 * (retries + 1)) := by
  induction retries with
  | zero => exact tryMove_endsWithin id move fun e => .done _ 0
  | succ retries ih => exact tryMove_endsWithin id move fun _ => ih

end Lifecycle

end SmsTracking
