import SmsTracking.Proofs.Bounded
import SmsTracking.Proofs.Commits

/-!
Callers who move one message side by side might as well have done so one after the other. Main
statement: after any schedule the calls that succeeded are the committed ones, the message is what
their moves make of it in the order of the commits, and once a confirmation is committed nothing
changes any more (`contend_serializable`).
-/

namespace SmsTracking

namespace Contention

variable {callers : List Contender} {m₀ m : Message} {cs : List (Nat × Message)}

/-- The calls, before any of them has begun. -/
def contend (id : Uuid) (callers : List Contender) (w : World) :
    Turns (Except AppError Message) where
  world := w
  programs := callers.map fun c => Lifecycle.transition id c.move c.retries

theorem contend_follow (id : Uuid) (callers : List Contender) (w : World) :
    (contend id callers w).Follow (conducts id callers) := by
  intro place p found
  simp only [contend, List.getElem?_map, Option.map_eq_some_iff] at found
  obtain ⟨c, called, rfl⟩ := found
  simp only [conducts, called, Option.map_some]
  exact Lifecycle.transition_follows_bid id c.move c.retries .load

theorem Serial.initial {id : Uuid} {w : World} (callers : List Contender)
    (stored : w.messages.find? id = some m₀) : Serial id callers m₀ w [] :=
  ⟨stored, rfl, fun _ h => absurd h List.not_mem_nil, .nil, fun _ => trivial,
    fun _ h => absurd h List.not_mem_nil⟩

/-- The message changes no more: a confirmation is among the committed moves. -/
def Confirmed (callers : List Contender) (es : List (Nat × Exchange)) : Prop :=
  ∃ move ∈ movesOf callers (commits es), move.isAttempt = false

theorem Serial.eq_nil_of_confirmed {id : Uuid} {w : World} {es : List (Nat × Exchange)}
    (serial : Serial id callers m₀ w es) {before after : List Move} {move : Move}
    (moves : movesOf callers (commits es) = before ++ move :: after)
    (confirms : move.isAttempt = false) :
    after = [] ∧ (last m₀ (commits es)).status = .sent := by
  have replay := serial.replay
  rw [moves] at replay
  exact Move.eq_nil_of_confirmed (n := (last m₀ (commits es)).dated m₀.updatedAt) confirms replay

theorem Serial.sent {id : Uuid} {w : World} {es : List (Nat × Exchange)}
    (serial : Serial id callers m₀ w es) (confirmed : Confirmed callers es) :
    (last m₀ (commits es)).status = .sent := by
  obtain ⟨move, made, confirms⟩ := confirmed
  obtain ⟨before, after, moves⟩ := List.append_of_mem made
  exact (serial.eq_nil_of_confirmed moves confirms).2

/-- After a confirmation no write is committed. -/
theorem Serial.written_eq_none {id : Uuid} {w : World} {es : List (Nat × Exchange)} {place : Nat}
    {x : Exchange} (serial : Serial id callers m₀ w (es ++ [(place, x)]))
    (confirmed : Confirmed callers es) : x.written = none := by
  cases written : x.written with
  | none => rfl
  | some m =>
      obtain ⟨move, made, confirms⟩ := confirmed
      obtain ⟨before, after, moves⟩ := List.append_of_mem made
      have grown : commits (es ++ [(place, x)]) = commits es ++ [(place, m)] := by
        rw [commits_append, written]
        rfl
      obtain ⟨c, called⟩ := Option.isSome_iff_exists.mp (serial.known (place, m) (by simp [grown]))
      have further : movesOf callers (commits (es ++ [(place, x)])) =
          before ++ move :: (after ++ [c.move]) := by
        rw [grown, movesOf_append called, moves, List.append_assoc, List.cons_append]
      have none := (serial.eq_nil_of_confirmed further confirms).1
      simp at none

/-- A caller that has loaded nothing before the confirmation finds the confirmed message. -/
def Late (confirmed : Message) : Bid → Prop
  | .idle => True
  | .loaded m | .ready m _ => m = confirmed
  | _ => False

/-- What is true after a confirmation: no further write is committed, and those who come late find
the confirmed message. -/
structure Closed (id : Uuid) (callers : List Contender) (m₀ : Message) (cs : List (Nat × Message))
    (late : Nat → Prop) (w : World) (es : List (Nat × Exchange)) : Prop where
  serial : Serial id callers m₀ w es
  confirmed : Confirmed callers es
  commits_eq : commits es = cs
  late : ∀ place, late place →
    Late (last m₀ cs) (Turns.standings (conducts id callers) es place)

/-- The confirmed message lets no move be made. -/
theorem Closed.not_mem_allowed {id : Uuid} {late : Nat → Prop} {w : World}
    {es : List (Nat × Exchange)} (closed : Closed id callers m₀ cs late w es) (move : Move) :
    (last m₀ cs).status ∉ move.allowed := by
  intro allowed
  have going := Move.isTerminal_of_mem_allowed allowed
  rw [← closed.commits_eq, closed.serial.sent closed.confirmed] at going
  cases going

theorem Closed.answer {id : Uuid} {late : Nat → Prop} {w : World} {es : List (Nat × Exchange)}
    {place : Nat} (closed : Closed id callers m₀ cs late w es) (roomy : Roomy callers m₀)
    (a : Ambient) {r : Request}
    (may : (conducts id callers place).may (Turns.standings (conducts id callers) es place) r) :
    Closed id callers m₀ cs late (w.answer a r).2 (es ++ [(place, ⟨r, (w.answer a r).1⟩)]) := by
  have serial := closed.serial.answer roomy a may
  have same : commits (es ++ [(place, ⟨r, (w.answer a r).1⟩)]) = commits es := by
    rw [commits_append, serial.written_eq_none closed.confirmed]
    exact List.append_nil _
  refine ⟨serial, ?_, same.trans closed.commits_eq, ?_⟩
  · rw [Confirmed, same]
    exact closed.confirmed
  · intro other late
    have stands := closed.late other late
    rw [Turns.standings_append]
    by_cases h : other = place
    · subst h
      rw [Function.update_self]
      have may : Bid.May id (callers[other]?.map (·.move))
        (Turns.standings (conducts id callers) es other) r := may
      have loads : w.messages.load id = .ok (last m₀ cs) := by
        rw [← closed.commits_eq]
        exact MessageStore.load_of_find? closed.serial.stored
      generalize Turns.standings (conducts id callers) es other = b at may stands
      cases may with
      | load =>
          simp only [World.answer, loads]
          rfl
      | reload e => exact stands.elim
      | now m => exact stands
      | update called made =>
          obtain ⟨allowed, _⟩ := Move.apply_eq_done_iff.mp made
          rw [show _ = last m₀ cs from stands] at allowed
          exact absurd allowed (closed.not_mem_allowed _)
    · rw [Function.update_of_ne h]
      exact stands

section Outcomes

variable {id : Uuid} {t : Turns (Except AppError Message)} {place : Nat}

def IsVersionConflict (e : AppError) : Prop :=
  ∃ id expected actual, e.root = .domain (.versionConflict id expected actual)

def IsInvalidState (e : AppError) : Prop :=
  ∃ id actual expected, e.root = .domain (.invalidState id actual expected)

theorem isInvalidState_of_refused {move : Move} {m : Message} {now : Timestamp} {e : DomainError}
    (refuses : move.apply m now = .refused e) (text : String) :
    IsInvalidState (.context text (.domain e)) := by
  obtain ⟨_, rfl⟩ := Move.apply_eq_refused_iff.mp refuses
  exact ⟨_, _, _, rfl⟩

theorem Serial.outcome (serial : Serial id callers m₀ t.world t.exchanges)
    (roomy : Roomy callers m₀) (follow : t.Follow (conducts id callers))
    {o : Outcome (Except AppError Message)} (ended : t.outcome? place = some o) :
    (∃ m, o = .done (.ok m) ∧ (place, m) ∈ commits t.exchanges) ∨
      ∃ e, o = .done (.error e) ∧ (IsVersionConflict e ∨ IsInvalidState e) := by
  have ends : Bid.Ends (callers[place]?.map (·.move))
    (Turns.standings (conducts id callers) t.exchanges place) o := follow.ends ended
  have fits := serial.fits place
  generalize stands : Turns.standings (conducts id callers) t.exchanges place = b at ends fits
  cases ends with
  | committed m => exact .inl ⟨m, rfl, fits⟩
  | beaten e text =>
      obtain ⟨id, expected, actual, rfl⟩ := fits
      exact .inr ⟨_, rfl, .inl ⟨id, expected, actual, rfl⟩⟩
  | refused text called refuses =>
      exact .inr ⟨_, rfl, .inr (isInvalidState_of_refused refuses text)⟩
  | overflow text called overflows =>
      obtain ⟨c, inside, rfl⟩ := Option.map_eq_some_iff.mp called
      have room := (Seen.hasRoom roomy serial.known serial.once inside
        (serial.fresh (by simp [stands])) fits).2
      exact absurd room (Move.not_hasRoom_of_apply_eq_overflow overflows)
  | missing e text => exact fits.elim
  | full text => exact fits.elim

/-- A caller that has committed answers with what it has written. -/
theorem Serial.outcome_of_mem_commits (serial : Serial id callers m₀ t.world t.exchanges)
    (follow : t.Follow (conducts id callers)) (all : callers.length ≤ t.programs.length)
    (written : (place, m) ∈ commits t.exchanges) : t.outcome? place = some (.done (.ok m)) := by
  obtain ⟨c, called⟩ := Option.isSome_iff_exists.mp (serial.known _ written)
  have inside : place < callers.length := (List.getElem?_eq_some_iff.mp called).1
  have found : t.programs[place]? = some t.programs[place] := List.getElem?_eq_getElem _
  have keeps := follow place _ found
  have stands : Turns.standings (conducts id callers) t.exchanges place = .committed m :=
    serial.committed _ written
  rw [stands] at keeps
  cases program : t.programs[place] with
  | done x =>
      rw [program] at found keeps
      have ends : Bid.Ends _ (.committed m) (.done x) := keeps
      cases ends
      simp [Turns.outcome?, found]
  | abort text =>
      rw [program] at keeps
      have ends : Bid.Ends _ (.committed m) (.aborted text) := keeps
      cases ends
  | ask r next =>
      rw [program] at keeps
      have may : Bid.May _ _ (.committed m) r := keeps.1
      cases may

/-- A caller that comes after the confirmation fails because of the status. -/
theorem Closed.outcome {late : Nat → Prop}
    (closed : Closed id callers m₀ cs late t.world t.exchanges)
    (follow : t.Follow (conducts id callers)) (comes : late place)
    {o : Outcome (Except AppError Message)} (ended : t.outcome? place = some o) :
    ∃ e, o = .done (.error e) ∧ IsInvalidState e := by
  have ends : Bid.Ends (callers[place]?.map (·.move))
    (Turns.standings (conducts id callers) t.exchanges place) o := follow.ends ended
  have stands := closed.late place comes
  generalize Turns.standings (conducts id callers) t.exchanges place = b at ends stands
  cases ends with
  | committed m => exact stands.elim
  | beaten e text => exact stands.elim
  | refused text called refuses => exact ⟨_, rfl, isInvalidState_of_refused refuses text⟩
  | @overflow move m m' now text called overflows =>
      have allowed : m.status ∈ move.allowed := by
        by_contra refused
        rw [Move.apply_of_not_allowed refused] at overflows
        cases overflows
      rw [show m = last m₀ cs from stands] at allowed
      exact absurd allowed (closed.not_mem_allowed move)
  | missing e text => exact stands.elim
  | full text => exact stands.elim

end Outcomes

/-- What is true of the calls after a schedule. -/
structure Serializable (id : Uuid) (callers : List Contender) (m₀ : Message)
    (schedule : List Turn) (t : Turns (Except AppError Message)) : Prop where
  stored : t.world.messages.find? id = some (last m₀ (commits t.exchanges))
  replay : Move.applyAll m₀.updatedAt (movesOf callers (commits t.exchanges)) m₀ =
    some ((last m₀ (commits t.exchanges)).dated m₀.updatedAt)
  length_moves : (movesOf callers (commits t.exchanges)).length = (commits t.exchanges).length
  version : (last m₀ (commits t.exchanges)).version.toNat =
    m₀.version.toNat + (commits t.exchanges).length
  sendAttemptCount : (last m₀ (commits t.exchanges)).sendAttemptCount.toNat =
    m₀.sendAttemptCount.toNat + (movesOf callers (commits t.exchanges)).countP Move.isAttempt
  /-- No caller commits twice. -/
  once : ((commits t.exchanges).map (·.1)).Nodup
  ok_iff : ∀ place m, t.outcome? place = some (.done (.ok m)) ↔ (place, m) ∈ commits t.exchanges
  failed : ∀ place o, t.outcome? place = some o →
    (∃ m, o = .done (.ok m)) ∨ ∃ e, o = .done (.error e) ∧ (IsVersionConflict e ∨ IsInvalidState e)
  /-- Nothing is committed after a confirmation. -/
  confirmation : ∀ before move after,
    movesOf callers (commits t.exchanges) = before ++ move :: after → move.isAttempt = false →
      after = []
  ended : ∀ (place : Nat) (c : Contender), callers[place]? = some c →
    3 * (c.retries + 1) ≤ schedule.count (.go place) → (t.outcome? place).isSome = true

/-- What is true of the calls at any time `t'` after a time `t`, if a confirmation is committed at
`t`: nothing changes any more, and the calls that are still at work fail. -/
structure Final (id : Uuid) (t t' : Turns (Except AppError Message)) : Prop where
  stored : t'.world.messages.find? id = t.world.messages.find? id
  commits_eq : commits t'.exchanges = commits t.exchanges
  late : ∀ place o, (∀ x ∈ t.talk place, x.isLoad = false) → t'.outcome? place = some o →
    ∃ e, o = .done (.error e) ∧ IsInvalidState e
  inFlight : ∀ place o, t.outcome? place = none → t'.outcome? place = some o →
    ∃ e, o = .done (.error e) ∧ (IsVersionConflict e ∨ IsInvalidState e)

section Main

variable {id : Uuid} {w : World}

theorem contend_serial (a : Ambient) (stored : w.messages.find? id = some m₀)
    (roomy : Roomy callers m₀) (schedule : List Turn) :
    let t := (contend id callers w).run a Turns.alone schedule
    t.Follow (conducts id callers) ∧ Serial id callers m₀ t.world t.exchanges :=
  Turns.run_keeps (contend_follow id callers w) (.initial callers stored)
    (fun _ _ _ _ serial may => serial.answer roomy a may)
    (fun _ _ _ serial => { serial with })
    (fun _ _ serial => { serial with }) schedule

theorem Serial.closed {es : List (Nat × Exchange)} (serial : Serial id callers m₀ w es)
    (confirmed : Confirmed callers es) :
    Closed id callers m₀ (commits es)
      (fun place => ∀ x ∈ Turns.talkOf es place, x.isLoad = false) w es := by
  refine ⟨serial, confirmed, rfl, fun place late => ?_⟩
  have idle : Turns.standings (conducts id callers) es place = .idle :=
    Bid.standing_of_unloaded late
  rw [idle]
  trivial

theorem Closed.run {t : Turns (Except AppError Message)} {late : Nat → Prop} (a : Ambient)
    (roomy : Roomy callers m₀) (follow : t.Follow (conducts id callers))
    (closed : Closed id callers m₀ cs late t.world t.exchanges) (later : List Turn) :
    let t' := t.run a Turns.alone later
    t'.Follow (conducts id callers) ∧ Closed id callers m₀ cs late t'.world t'.exchanges :=
  Turns.run_keeps follow closed
    (fun _ _ _ _ closed may => closed.answer roomy a may)
    (fun _ _ _ closed => ⟨{ closed.serial with }, closed.confirmed, closed.commits_eq, closed.late⟩)
    (fun _ _ closed => ⟨{ closed.serial with }, closed.confirmed, closed.commits_eq, closed.late⟩)
    later

theorem contend_serializable (a : Ambient) (id : Uuid) (callers : List Contender) (w : World)
    (m₀ : Message) (stored : w.messages.find? id = some m₀) (roomy : Roomy callers m₀)
    (schedule later : List Turn) :
    let t := (contend id callers w).run a Turns.alone schedule
    Serializable id callers m₀ schedule t ∧
      (Confirmed callers t.exchanges → Final id t (t.run a Turns.alone later)) := by
  intro t
  obtain ⟨follow, serial⟩ := contend_serial a stored roomy schedule
  have all : callers.length ≤ t.programs.length := by
    have start : (contend id callers w).programs.length = callers.length := List.length_map ..
    rw [← start]
    exact Turns.length_programs_le_run a Turns.alone (contend id callers w) schedule
  constructor
  · refine ⟨serial.stored, serial.replay, length_movesOf serial.known, serial.version_last, ?_,
      serial.once, ?_, ?_, ?_, ?_⟩
    · exact Move.applyAll_sendAttemptCount
        (n := (last m₀ (commits t.exchanges)).dated m₀.updatedAt) serial.replay
    · intro place m
      constructor
      · intro ended
        rcases serial.outcome roomy follow ended with ⟨m', same, written⟩ | ⟨e, failed, _⟩
        · cases same
          exact written
        · cases failed
      · exact serial.outcome_of_mem_commits follow all
    · intro place o ended
      rcases serial.outcome roomy follow ended with ⟨m, ok, _⟩ | failed
      · exact .inl ⟨m, ok⟩
      · exact .inr failed
    · intro before move after moves confirms
      exact (serial.eq_nil_of_confirmed moves confirms).1
    · intro place c called enough
      have begun : (contend id callers w).programs[place]? =
          some (Lifecycle.transition id c.move c.retries) := by
        simp [contend, called]
      exact Turns.isSome_outcome?_run begun (Lifecycle.transition_endsWithin ..) a Turns.alone
        enough
  · intro confirmed
    obtain ⟨follow', closed⟩ := (serial.closed confirmed).run a roomy follow later
    refine ⟨?_, closed.commits_eq, fun place o unloaded => closed.outcome follow' unloaded, ?_⟩
    · rw [closed.serial.stored, closed.commits_eq, serial.stored]
    · intro place o going ended
      rcases closed.serial.outcome roomy follow' ended with ⟨m, _, written⟩ | failed
      · rw [closed.commits_eq] at written
        rw [serial.outcome_of_mem_commits follow all written] at going
        cases going
      · exact failed

/-- A confirmation is committed while an attempt is under way. -/
theorem contend_serializable_overtaken :
    let m := Message.mobileTerminated ⟨⟨1⟩, "+1000", "+2000", "hi", .epoch⟩ .epoch
    let m₀ := (Move.attempt .epoch).result m .epoch
    let w : World := { messages := (∅ : MessageStore).put m₀ }
    let callers := [⟨.attempt .epoch, 0⟩, ⟨.confirm .epoch, 1⟩]
    let a : Ambient := ⟨fun _ => .epoch, fun n => ⟨n⟩⟩
    let schedule := [.go 0, .go 1, .go 1, .go 0, .go 1]
    let t := (contend ⟨1⟩ callers w).run a Turns.alone schedule
    w.messages.find? ⟨1⟩ = some m₀ ∧ Roomy callers m₀ ∧
      Serializable ⟨1⟩ callers m₀ schedule t ∧ Confirmed callers t.exchanges ∧
        Final ⟨1⟩ t (t.run a Turns.alone [.go 0]) := by
  intro m m₀ w callers a schedule t
  have stored : w.messages.find? ⟨1⟩ = some m₀ := rfl
  have roomy : Roomy callers m₀ := ⟨by decide, by decide⟩
  have confirmed : Confirmed callers t.exchanges :=
    ⟨.confirm .epoch, by decide, rfl⟩
  obtain ⟨serializable, final⟩ :=
    contend_serializable a ⟨1⟩ callers w m₀ stored roomy schedule [.go 0]
  exact ⟨stored, roomy, serializable, confirmed, final confirmed⟩

end Main

end Contention

end SmsTracking
