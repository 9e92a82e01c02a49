import SmsTracking.Program.World

/-!
What a program asks and what it is answered, whoever answers. Main statements: a program that runs
in a world ends as one of its talks does (`exists_talk_run`), and the talks of two programs one
after the other are those of the first, each gone on with as its answer says (`talk_bind_iff`).
-/

namespace SmsTracking

structure Exchange where
  request : Request
  answer : request.Answer

namespace Program

variable {α β : Type}

/-- With these exchanges, from the first one on, the program comes to its end. -/
inductive Talk : Program α → List Exchange → Outcome α → Prop where
  | done (a : α) : Talk (done a) [] (.done a)
  | abort (text : String) : Talk (abort text) [] (.aborted text)
  | ask {r : Request} {next : r.Answer → Program α} {answer : r.Answer} {es : List Exchange}
      {o : Outcome α} (h : Talk (next answer) es o) : Talk (ask r next) (⟨r, answer⟩ :: es) o

theorem talk_done_iff {a : α} {es : List Exchange} {o : Outcome α} :
    (done a).Talk es o ↔ es = [] ∧ o = .done a := by
  constructor
  · intro talk
    cases talk
    exact ⟨rfl, rfl⟩
  · rintro ⟨rfl, rfl⟩
    exact .done a

/-- One request and what follows it. -/
theorem talk_request_iff {r : Request} {f : r.Answer → Program α} {es : List Exchange}
    {o : Outcome α} :
    (request r >>= f).Talk es o ↔
      ∃ answer rest, es = ⟨r, answer⟩ :: rest ∧ (f answer).Talk rest o := by
  constructor
  · intro talk
    cases talk with
    | ask rest => exact ⟨_, _, rfl, rest⟩
  · rintro ⟨answer, rest, rfl, talk⟩
    exact .ask talk

/-- A program and what follows it if it comes to an end. -/
theorem talk_bind_iff {p : Program α} {f : α → Program β} {es : List Exchange} {o : Outcome β} :
    (p >>= f).Talk es o ↔
      (∃ first x rest, es = first ++ rest ∧ p.Talk first (.done x) ∧ (f x).Talk rest o) ∨
      ∃ text, p.Talk es (.aborted text) ∧ o = .aborted text := by
  induction p generalizing es with
  | done x =>
    constructor
    · intro talk
      exact .inl ⟨[], x, es, rfl, .done x, talk⟩
    · rintro (⟨first, y, rest, rfl, ended, talk⟩ | ⟨text, ended, _⟩)
      · cases ended
        exact talk
      · cases ended
  | abort text =>
    constructor
    · intro talk
      cases talk
      exact .inr ⟨text, .abort text, rfl⟩
    · rintro (⟨first, x, rest, rfl, ended, talk⟩ | ⟨text, ended, rfl⟩)
      · cases ended
      · cases ended
        exact .abort _
  | ask r next ih =>
    constructor
    · intro talk
      cases talk with
      | ask talk =>
        rcases (ih _).mp talk with ⟨first, x, rest, rfl, ended, talk⟩ | ⟨text, ended, rfl⟩
        · exact .inl ⟨_ :: first, x, rest, rfl, .ask ended, talk⟩
        · exact .inr ⟨text, .ask ended, rfl⟩
    · rintro (⟨first, x, rest, rfl, ended, talk⟩ | ⟨text, ended, rfl⟩)
      · cases ended with
        | ask ended => exact .ask ((ih _).mpr (.inl ⟨_, x, rest, rfl, ended, talk⟩))
      · cases ended with
        | ask ended => exact .ask ((ih _).mpr (.inr ⟨text, ended, rfl⟩))

theorem talk_bind_done_iff {p : Program α} {f : α → Program β} {es : List Exchange} {y : β} :
    (p >>= f).Talk es (.done y) ↔
      ∃ first x rest, es = first ++ rest ∧ p.Talk first (.done x) ∧ (f x).Talk rest (.done y) := by
  rw [talk_bind_iff]
  exact or_iff_left fun ⟨_, _, broken⟩ => nomatch broken

theorem exists_talk_run (a : Ambient) (p : Program α) (w : World) :
    ∃ es, p.Talk es (p.run a w).1 := by
  induction p generalizing w with
  | done x => exact ⟨[], .done x⟩
  | abort text => exact ⟨[], .abort text⟩
  | ask r next ih =>
    obtain ⟨es, h⟩ := ih (w.answer a r).1 (w.answer a r).2
    exact ⟨⟨r, (w.answer a r).1⟩ :: es, .ask h⟩

/-- Whatever it is answered, the program does not break off. -/
def Unbroken (p : Program α) : Prop := ∀ es text, ¬ p.Talk es (.aborted text)

namespace Unbroken

variable {p : Program α}

theorem done (a : α) : (done a).Unbroken := nofun

theorem request (r : Request) : (request r).Unbroken := by
  intro es text talk
  cases talk with
  | ask rest => cases rest

theorem bind {f : α → Program β} (first : p.Unbroken) (rest : ∀ x, (f x).Unbroken) :
    (p >>= f).Unbroken := by
  intro es text talk
  rcases talk_bind_iff.mp talk with ⟨_, x, later, _, _, broken⟩ | ⟨text, broken, _⟩
  · exact rest x later text broken
  · exact first es text broken

theorem attempt (p : Program α) : p.attempt.Unbroken := by
  induction p with
  | done x => exact .done _
  | abort text => exact .done _
  | ask r next ih =>
      intro es text talk
      cases talk with
      | ask rest => exact ih _ _ _ rest

theorem mapM {f : β → Program α} {xs : List β} (each : ∀ x ∈ xs, (f x).Unbroken) :
    (xs.mapM f).Unbroken := by
  induction xs with
  | nil => exact .done _
  | cons x xs ih =>
      obtain ⟨first, rest⟩ := List.forall_mem_cons.mp each
      rw [List.mapM_cons]
      exact first.bind fun _ => (ih rest).bind fun _ => .done _

theorem write (line : β → LogLine) (xs : List β) :
    (xs.forM fun x => (MonadJournal.write (line x) : Program Unit)).Unbroken := by
  induction xs with
  | nil => exact .done _
  | cons x xs ih => exact (Unbroken.request _).bind fun _ => ih

theorem run (unbroken : p.Unbroken) (a : Ambient) (w : World) : ∃ x, (p.run a w).1 = .done x := by
  obtain ⟨es, talk⟩ := exists_talk_run a p w
  cases ended : (p.run a w).1 with
  | done x => exact ⟨x, rfl⟩
  | aborted text => exact absurd (ended ▸ talk) (unbroken es text)

theorem exists_talk (unbroken : p.Unbroken) : ∃ es x, p.Talk es (.done x) := by
  let a : Ambient := ⟨fun _ => .epoch, fun n => ⟨n⟩⟩
  obtain ⟨es, talk⟩ := exists_talk_run a p {}
  obtain ⟨x, ended⟩ := unbroken.run a {}
  exact ⟨es, x, ended ▸ talk⟩

end Unbroken

end Program

end SmsTracking
