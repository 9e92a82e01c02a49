import SmsTracking.Proofs.FirstTries
import SmsTracking.Proofs.PermittedWrites
import SmsTracking.Proofs.Waiting
import SmsTracking.Proofs.Workforce

/-!
The worlds that come of what the service is asked, whatever is asked at the same time and however it
goes on side by side. Main statements: so do the worlds in which one thing is asked after the other
(`Course.reachable_run`), and in all of them no message that waits has been tried
(`Reachable.untried`).
-/

namespace SmsTracking

/-- A message that is written has not been tried, or does not wait any more. -/
def Request.Sparing : Request → Prop
  | store m => m.Untried
  | update m => m.isOutstanding = false
  | _ => True

theorem MessageStore.Untried.put_untried {s : MessageStore} (untried : s.Untried) {m : Message}
    (new : m.Untried) : (s.put m).Untried := by
  intro id n found waits
  rw [find?_put] at found
  split at found
  · cases found
    exact new
  · exact untried id n found waits

theorem World.untried_answer (a : Ambient) {w : World} (untried : w.messages.Untried) {r : Request}
    (sparing : r.Sparing) : (w.answer a r).2.messages.Untried := by
  cases r with
  | store m =>
      cases stored : w.messages.find? m.id with
      | some n =>
          simp only [answer, MessageStore.store_of_present stored]
          exact untried
      | none =>
          simp only [answer, MessageStore.store_of_vacant stored]
          exact untried.put_untried sparing
  | update m =>
      rcases w.messages.update_cases m with ⟨n, _, _, done⟩ | ⟨_, same⟩
      · simp only [answer, done]
        exact untried.put sparing
      · simp only [answer, same]
        exact untried
  | publish e =>
      simp only [answer, World.publish]
      split <;> exact untried
  | _ => exact untried

namespace Program

variable {α : Type}

/-- Every request that the program can make is sparing. -/
def Sparing : Program α → Prop
  | done _ => True
  | abort _ => True
  | ask r next => r.Sparing ∧ ∀ answer, (next answer).Sparing

end Program

/-- Whoever keeps to this is sparing, whatever is answered. -/
def Manners.sparing : Manners where
  may := Request.Sparing
  given _ := True
  read r reads := by
    cases r with
    | store _ | update _ => cases reads
    | _ => trivial
  create direction p now := by
    cases direction <;> exact ⟨rfl, rfl⟩
  move id m move now _ _ _ := by
    cases move <;> simp [Request.Sparing, Message.isOutstanding, Move.result]

theorem Program.Keeps.sparing {α : Type} {p : Program α} (keeps : p.Keeps .sparing) :
    p.Sparing := by
  induction p with
  | done x => trivial
  | abort text => trivial
  | ask r next ih => exact ⟨keeps.1, fun answer => ih answer (keeps.2 answer trivial)⟩

theorem Turns.untried_run {α : Type} (a : Ambient) {t : Turns α}
    (sparing : ∀ p ∈ t.programs, p.Sparing) (untried : t.world.messages.Untried)
    (schedule : List Turn) : (t.run a alone schedule).world.messages.Untried := by
  induction schedule generalizing t with
  | nil => exact untried
  | cons turn schedule ih =>
      cases turn with
      | go place =>
          refine ih (t := t.go a alone place) ?_ ?_
          all_goals rcases go_alone_cases a t place with same | ⟨r, next, asked, gone⟩
          · rwa [same]
          · rw [gone]
            intro p mem
            rcases List.mem_or_eq_of_mem_set mem with before | rfl
            · exact sparing p before
            · exact (sparing _ (List.mem_of_getElem? asked)).2 _
          · rwa [same]
          · rw [gone]
            exact World.untried_answer a untried (sparing _ (List.mem_of_getElem? asked)).1
      | pass s => exact ih (t := { t with world := _ }) sparing untried
      | cancel => exact ih (t := { t with world := _ }) sparing untried

/-- Commands that the service is given at the same time. A message of a batch that is handed out
beside others is a command of its own. -/
def Turns.ofCommands (config : ServiceConfig) (commands : List (Command × List Nat)) (w : World) :
    Turns Reply where
  world := w
  programs := commands.map fun c => c.1.program (.inPlace config) c.2

theorem Turns.ofCommands_keeps {c : Manners} (config : ServiceConfig)
    (commands : List (Command × List Nat)) (w : World) :
    ∀ p ∈ (ofCommands config commands w).programs, p.Keeps c := by
  intro p mem
  obtain ⟨command, _, rfl⟩ := List.mem_map.mp mem
  exact Command.program_keeps config command.2 command.1

/-- What the world can have come to, from its beginning. Commands need not come to their ends, and
the messages may be listed in any order. -/
inductive World.Reachable (a : Ambient) (config : ServiceConfig) : World → Prop
  | begin : Reachable a config (Course.begin config).world
  | later {w : World} (elapsed : Span) (cancelled : Bool) (before : Reachable a config w) :
      Reachable a config { w with uptime := w.uptime.after elapsed, cancelled := cancelled }
  | relisted {w : World} {s : MessageStore} (relists : w.messages.Relists s)
      (before : Reachable a config w) : Reachable a config { w with messages := s }
  | together {w : World} (commands : List (Command × List Nat)) (schedule : List Turn)
      (before : Reachable a config w) :
      Reachable a config ((Turns.ofCommands config commands w).run a Turns.alone schedule).world

theorem MessageStore.Untried.relisted {s s' : MessageStore} (untried : s.Untried)
    (relists : s.Relists s') : s'.Untried := by
  intro id m found
  rw [relists id] at found
  exact untried id m found

theorem World.Reachable.untried {a : Ambient} {config : ServiceConfig} {w : World}
    (reachable : w.Reachable a config) : w.messages.Untried := by
  induction reachable with
  | begin => exact fun id m found => by cases found
  | later elapsed cancelled before ih => exact ih
  | relisted relists before ih => exact ih.relisted relists
  | @together w commands schedule before ih =>
      refine Turns.untried_run a (t := .ofCommands config commands w) (fun p mem => ?_) ih schedule
      exact (Turns.ofCommands_keeps config commands w p mem).sparing

theorem Course.reachable_run (a : Ambient) (config : ServiceConfig) (steps : List Step) :
    (run a config steps).world.Reachable a config := by
  unfold run
  generalize began : begin config = c
  have reachable : c.world.Reachable a config := began ▸ .begin
  clear began
  induction steps generalizing c with
  | nil => exact reachable
  | cons s steps ih =>
      refine ih _ ?_
      have given := World.Reachable.later s.elapsed s.cancelled reachable
      let t : Turns Reply := .ofCommands config [(s.command, s.picks)] { c.world with
        uptime := c.world.uptime.after s.elapsed, cancelled := s.cancelled }
      have found : t.programs[0]? = some (s.command.program (.inPlace config) s.picks) := rfl
      obtain ⟨schedule, _, world, _⟩ := Turns.run_solo a found
      have reached := given.together [(s.command, s.picks)] schedule
      rw [world] at reached
      exact reached

end SmsTracking
