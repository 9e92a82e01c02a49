import Mathlib.Logic.Function.Basic
import SmsTracking.Program.Exchange
import SmsTracking.Program.Turns
import SmsTracking.Proofs.Runs

/-!
Programs that keep to a conduct. A program has a standing, which it gets from the answers it was
given; the conduct says what may be asked in a standing and how a program may end in it. Programs
that keep to their conducts one by one also do so side by side. Main statement: what every permitted
request preserves holds after every schedule (`run_keeps`).
-/

namespace SmsTracking

structure Conduct (σ α : Type) where
  start : σ
  next : σ → Exchange → σ
  may : σ → Request → Prop
  ends : σ → Outcome α → Prop

namespace Conduct

variable {σ α β : Type}

/-- The same conduct for a part of a program, which ends in another way. -/
def upTo (c : Conduct σ α) (ends : σ → Outcome β → Prop) : Conduct σ β :=
  { c with ends }

/-- The standing of a program after these exchanges. -/
def standing (c : Conduct σ α) (talk : List Exchange) : σ := talk.foldl c.next c.start

@[simp]
theorem standing_append (c : Conduct σ α) (talk : List Exchange) (x : Exchange) :
    c.standing (talk ++ [x]) = c.next (c.standing talk) x := by
  simp [standing]

end Conduct

namespace Program

variable {σ α β : Type}

/-- From this standing on, the program keeps to the conduct whatever a world answers. -/
def Follows (c : Conduct σ α) : Program α → σ → Prop
  | done x, s => c.ends s (.done x)
  | abort text, s => c.ends s (.aborted text)
  | ask r next, s =>
      c.may s r ∧ ∀ (a : Ambient) (w : World),
        (next (w.answer a r).1).Follows c (c.next s ⟨r, (w.answer a r).1⟩)

theorem Follows.bind {c : Conduct σ α} {mid : σ → Outcome β → Prop} {p : Program β}
    {f : β → Program α} {s : σ} (first : p.Follows (c.upTo mid) s)
    (done : ∀ s x, mid s (.done x) → (f x).Follows c s)
    (aborted : ∀ s text, mid s (.aborted text) → c.ends s (.aborted text)) :
    (p >>= f).Follows c s := by
  induction p generalizing s with
  | done x => exact done s x first
  | abort text => exact aborted s text first
  | ask r next ih => exact ⟨first.1, fun a w => ih _ (first.2 a w)⟩

/-- A program that is attempted ends with how it would have ended. -/
theorem Follows.attempt {c : Conduct σ β} {mid : σ → Outcome α → Prop} {p : Program α} {s : σ}
    (follows : p.Follows (c.upTo mid) s) :
    p.attempt.Follows (c.upTo fun s o => ∃ o', o = .done o' ∧ mid s o') s := by
  induction p generalizing s with
  | done x => exact ⟨_, rfl, follows⟩
  | abort text => exact ⟨_, rfl, follows⟩
  | ask r next ih => exact ⟨follows.1, fun a w => ih _ (follows.2 a w)⟩

/-! One request and what follows it. A listener log always answers, so that no case is left for its
errors. -/

section Requests

variable {c : Conduct σ α} {s : σ}

theorem Follows.store {m : Message} {f : Except DomainError Unit → Program α}
    (may : c.may s (.store m))
    (rest : ∀ answer, (f answer).Follows c (c.next s ⟨.store m, answer⟩)) :
    (Program.store m >>= f).Follows c s :=
  ⟨may, fun _ _ => rest _⟩

theorem Follows.update {m : Message} {f : Update → Program α} (may : c.may s (.update m))
    (rest : ∀ answer, (f answer).Follows c (c.next s ⟨.update m, answer⟩)) :
    (Program.update m >>= f).Follows c s :=
  ⟨may, fun _ _ => rest _⟩

theorem Follows.load {id : Uuid} {f : Except DomainError Message → Program α}
    (may : c.may s (.load id))
    (rest : ∀ answer, (f answer).Follows c (c.next s ⟨.load id, answer⟩)) :
    (Program.load id >>= f).Follows c s :=
  ⟨may, fun _ _ => rest _⟩

theorem Follows.claim {key : ListenerKey} {f : Except DomainError Claim → Program α}
    (may : c.may s (.claim key))
    (rest : ∀ answer, (f (.ok answer)).Follows c (c.next s ⟨.claim key, .ok answer⟩)) :
    (Program.claim key >>= f).Follows c s :=
  ⟨may, fun _ _ => rest _⟩

theorem Follows.record {e : HandledEvent} {f : Except DomainError Bool → Program α}
    (may : c.may s (.record e))
    (rest : ∀ answer, (f (.ok answer)).Follows c (c.next s ⟨.record e, .ok answer⟩)) :
    (Program.record e >>= f).Follows c s :=
  ⟨may, fun _ _ => rest _⟩

theorem Follows.now {f : Timestamp → Program α} (may : c.may s .now)
    (rest : ∀ time, (f time).Follows c (c.next s ⟨.now, time⟩)) :
    (Program.now >>= f).Follows c s :=
  ⟨may, fun _ _ => rest _⟩

theorem Follows.uptime {f : Instant → Program α} (may : c.may s .uptime)
    (rest : ∀ time, (f time).Follows c (c.next s ⟨.uptime, time⟩)) :
    (Program.uptime >>= f).Follows c s :=
  ⟨may, fun _ _ => rest _⟩

theorem Follows.freshId {f : Uuid → Program α} (may : c.may s .freshId)
    (rest : ∀ id, (f id).Follows c (c.next s ⟨.freshId, id⟩)) :
    (Program.freshId >>= f).Follows c s :=
  ⟨may, fun _ _ => rest _⟩

end Requests

end Program

namespace Turns

variable {σ α : Type}

/-- What the program at a place has exchanged. -/
def talkOf (es : List (Nat × Exchange)) (place : Nat) : List Exchange :=
  es.filterMap fun e => if e.1 = place then some e.2 else none

def talk (t : Turns α) (place : Nat) : List Exchange := talkOf t.exchanges place

theorem talkOf_append_self (es : List (Nat × Exchange)) (place : Nat) (x : Exchange) :
    talkOf (es ++ [(place, x)]) place = talkOf es place ++ [x] := by
  simp [talkOf]

theorem talkOf_append_of_ne (es : List (Nat × Exchange)) {place other : Nat} (x : Exchange)
    (h : other ≠ place) : talkOf (es ++ [(place, x)]) other = talkOf es other := by
  simp [talkOf, Ne.symm h]

/-- The standings of all places. -/
def standings (c : Nat → Conduct σ α) (es : List (Nat × Exchange)) (place : Nat) : σ :=
  (c place).standing (talkOf es place)

theorem standings_append (c : Nat → Conduct σ α) (es : List (Nat × Exchange)) (place : Nat)
    (x : Exchange) :
    standings c (es ++ [(place, x)]) =
      Function.update (standings c es) place ((c place).next (standings c es place) x) := by
  funext other
  by_cases h : other = place
  · subst h
    simp [standings, talkOf_append_self]
  · simp [standings, talkOf_append_of_ne es x h, h]

/-- How much time passes in a turn, in nanoseconds. -/
def passing : Turn → Nat
  | .pass s => s.nanoseconds
  | .go _ | .cancel => 0

/-- How much time passes, in nanoseconds. -/
def elapsed : List Turn → Nat
  | [] => 0
  | turn :: schedule => passing turn + elapsed schedule

theorem uptime_step (a : Ambient) (heirs : α → List (Program α)) (t : Turns α) (turn : Turn) :
    (t.step a heirs turn).world.uptime.nanoseconds =
      t.world.uptime.nanoseconds + passing turn := by
  cases turn with
  | go place =>
      simp only [step, go]
      split
      · simp [World.answer_uptime, passing]
      · rfl
  | pass s => rfl
  | cancel => rfl

theorem uptime_run (a : Ambient) (heirs : α → List (Program α)) (t : Turns α)
    (schedule : List Turn) :
    (t.run a heirs schedule).world.uptime.nanoseconds =
      t.world.uptime.nanoseconds + elapsed schedule := by
  induction schedule generalizing t with
  | nil => rfl
  | cons turn schedule ih =>
      have first := uptime_step a heirs t turn
      have rest : ((t.step a heirs turn).run a heirs schedule).world.uptime.nanoseconds = _ := ih _
      simp only [elapsed]
      simp only [run, List.foldl_cons] at rest ⊢
      omega

theorem length_programs_le_run (a : Ambient) (heirs : α → List (Program α)) (t : Turns α)
    (schedule : List Turn) : t.programs.length ≤ (t.run a heirs schedule).programs.length := by
  induction schedule generalizing t with
  | nil => exact Nat.le_refl _
  | cons turn schedule ih => exact Nat.le_trans (t.length_programs_le_step a heirs turn) (ih _)

/-- No program sets another one going. -/
def alone : α → List (Program α) := fun _ => []

@[simp]
theorem followers_alone (p : Program α) : followers alone p = [] := by
  cases p <;> rfl

theorem go_alone_cases (a : Ambient) (t : Turns α) (place : Nat) :
    t.go a alone place = t ∨
      ∃ r next, t.programs[place]? = some (.ask r next) ∧
        t.go a alone place =
          { world := (t.world.answer a r).2
            programs := t.programs.set place (next (t.world.answer a r).1)
            exchanges := t.exchanges ++ [(place, ⟨r, (t.world.answer a r).1⟩)] } := by
  simp only [go]
  split
  · rename_i r next asked
    exact .inr ⟨r, next, asked, by simp⟩
  · exact .inl rfl

/-- All programs keep to their conducts. -/
def Follow (c : Nat → Conduct σ α) (t : Turns α) : Prop :=
  ∀ (place : Nat) (p : Program α), t.programs[place]? = some p →
    p.Follows (c place) (standings c t.exchanges place)

theorem Follow.ends {c : Nat → Conduct σ α} {t : Turns α} (follow : t.Follow c) {place : Nat}
    {o : Outcome α} (ended : t.outcome? place = some o) :
    (c place).ends (standings c t.exchanges place) o := by
  unfold outcome? at ended
  split at ended
  · rename_i x found
    cases ended
    exact follow place _ found
  · rename_i text found
    cases ended
    exact follow place _ found
  · cases ended

theorem Follow.go {c : Nat → Conduct σ α} {t : Turns α} (follow : t.Follow c) (a : Ambient)
    (place : Nat) : (t.go a alone place).Follow c := by
  rcases go_alone_cases a t place with same | ⟨r, next, asked, gone⟩
  · rwa [same]
  · rw [gone]
    intro other p found
    simp only [standings_append]
    by_cases h : other = place
    · subst h
      have inside : other < t.programs.length := (List.getElem?_eq_some_iff.mp asked).1
      simp only [List.getElem?_set_self inside, Option.some.injEq] at found
      subst found
      rw [Function.update_self]
      exact (follow other _ asked).2 a t.world
    · simp only [List.getElem?_set_ne (Ne.symm h)] at found
      rw [Function.update_of_ne h]
      exact follow other p found

theorem Follow.step {c : Nat → Conduct σ α} {t : Turns α} (follow : t.Follow c) (a : Ambient)
    (turn : Turn) : (t.step a alone turn).Follow c := by
  cases turn with
  | go place => exact follow.go a place
  | pass | cancel => exact follow

section Run

variable {a : Ambient} {c : Nat → Conduct σ α} {I : World → List (Nat × Exchange) → Prop}

theorem step_keeps {t : Turns α} (follow : t.Follow c) (inv : I t.world t.exchanges)
    (go : ∀ w es place r, I w es → (c place).may (standings c es place) r →
      I (w.answer a r).2 (es ++ [(place, ⟨r, (w.answer a r).1⟩)]))
    (pass : ∀ w es s, I w es → I { w with uptime := w.uptime.after s } es)
    (cancel : ∀ w es, I w es → I { w with cancelled := true } es) (turn : Turn) :
    (t.step a alone turn).Follow c ∧
      I (t.step a alone turn).world (t.step a alone turn).exchanges := by
  cases turn with
  | go place =>
      refine ⟨follow.go a place, ?_⟩
      simp only [step]
      rcases go_alone_cases a t place with same | ⟨r, next, asked, gone⟩
      · rwa [same]
      · rw [gone]
        exact go _ _ place r inv (follow place _ asked).1
  | pass s => exact ⟨follow, pass _ _ s inv⟩
  | cancel => exact ⟨follow, cancel _ _ inv⟩

theorem run_keeps {t : Turns α} (follow : t.Follow c) (inv : I t.world t.exchanges)
    (go : ∀ w es place r, I w es → (c place).may (standings c es place) r →
      I (w.answer a r).2 (es ++ [(place, ⟨r, (w.answer a r).1⟩)]))
    (pass : ∀ w es s, I w es → I { w with uptime := w.uptime.after s } es)
    (cancel : ∀ w es, I w es → I { w with cancelled := true } es) (schedule : List Turn) :
    (t.run a alone schedule).Follow c ∧
      I (t.run a alone schedule).world (t.run a alone schedule).exchanges := by
  induction schedule generalizing t with
  | nil => exact ⟨follow, inv⟩
  | cons turn schedule ih =>
      obtain ⟨follow', inv'⟩ := step_keeps follow inv go pass cancel turn
      exact ih follow' inv'

end Run

end Turns

end SmsTracking
