import SmsTracking.Proofs.Lanes
import SmsTracking.Routing.Local

/-!
Dispatch in place, with handlers that run side by side. A dispatch runs one handler after the other,
in the order in which they end; by what they ask and are answered that is the same. Main statement:
every handler that matches runs to its end once, whatever becomes of the others, and the answer is
the first failure among them, with the name, the event and the cause that belong to it
(`dispatch_runsAll`).
-/

namespace SmsTracking

/-- A handler that has dealt with an event, whether it failed or not. -/
abbrev HandlerRun := Finished (Handler Program) (Except Cause Unit)

/-- How a handler failed, if it did. -/
def HandlerRun.failure? (e : Envelope) (f : HandlerRun) : Option DomainError :=
  match f.answer with
  | .ok () => none
  | .error cause => some (.eventHandler f.label.name e.id cause)

namespace HandlerRun

variable {e : Envelope} {f : HandlerRun}

theorem failure?_eq_none_iff : f.failure? e = none ↔ f.answer = .ok () := by
  rw [failure?]
  cases f.answer <;> simp

theorem failure?_eq_some_iff {failure : DomainError} :
    f.failure? e = some failure ↔
      ∃ cause, f.answer = .error cause ∧ failure = .eventHandler f.label.name e.id cause := by
  rw [failure?]
  cases f.answer with
  | ok => simp
  | error cause => simp [eq_comm]

end HandlerRun

namespace Registry

/-- One line for each failure. -/
def warnings (e : Envelope) (failures : List DomainError) : List Exchange :=
  failures.map fun failure => ⟨.write (failureLine e failure), ()⟩

/-- The answer after these have ended in this order. -/
structure Concluded (e : Envelope) (finished : List HandlerRun) (answer : Except DomainError Unit) :
    Prop where
  ok_iff : answer = .ok () ↔ ∀ f ∈ finished, f.answer = .ok ()
  first : ∀ failure, answer = .error failure → ∃ before f after cause,
    finished = before ++ f :: after ∧ (∀ g ∈ before, g.answer = .ok ()) ∧ f.answer = .error cause ∧
      failure = .eventHandler f.label.name e.id cause

variable {e : Envelope}

theorem talk_attempt_iff {h : Handler Program} {es : List Exchange} {x : Option DomainError} :
    (attempt e h).Talk es (.done x) ↔
      ∃ answer, (h.handle e).Talk es (.done answer) ∧
        x = HandlerRun.failure? e ⟨h, es, answer⟩ := by
  rw [attempt, Program.talk_bind_done_iff]
  constructor
  · rintro ⟨first, answer, rest, rfl, handled, told⟩
    obtain ⟨rfl, same⟩ : rest = [] ∧ x = HandlerRun.failure? e ⟨h, first, answer⟩ := by
      cases answer <;> cases told <;> exact ⟨rfl, rfl⟩
    exact ⟨answer, (List.append_nil first).symm ▸ handled, same⟩
  · rintro ⟨answer, handled, rfl⟩
    refine ⟨es, answer, [], (List.append_nil es).symm, handled, ?_⟩
    cases answer <;> exact .done _

/-- The handlers run one after the other, also after failures. -/
theorem talk_attempts_iff {jobs : List (Handler Program)} {es : List Exchange}
    {outcomes : List (Option DomainError)} :
    (jobs.mapM (attempt e)).Talk es (.done outcomes) ↔
      ∃ finished : List HandlerRun, finished.map (·.label) = jobs ∧
        (∀ f ∈ finished, (f.label.handle e).Talk f.exchanges (.done f.answer)) ∧
        es = finished.flatMap (·.exchanges) ∧ outcomes = finished.map (HandlerRun.failure? e) := by
  induction jobs generalizing es outcomes with
  | nil =>
      rw [List.mapM_nil]
      constructor
      · intro talk
        cases talk
        exact ⟨[], rfl, nofun, rfl, rfl⟩
      · rintro ⟨finished, none, _, rfl, rfl⟩
        obtain rfl := List.map_eq_nil_iff.mp none
        exact .done _
  | cons h hs ih =>
      simp only [List.mapM_cons, Program.talk_bind_done_iff, talk_attempt_iff, ih]
      constructor
      · rintro ⟨first, _, _, rfl, ⟨answer, handled, rfl⟩, _, _, last, rfl,
          ⟨finished, rfl, talks, rfl, rfl⟩, told⟩
        cases told
        refine ⟨⟨h, first, answer⟩ :: finished, rfl, List.forall_mem_cons.mpr ⟨handled, talks⟩, ?_,
          rfl⟩
        rw [List.append_nil, List.flatMap_cons]
      · rintro ⟨finished, labels, talks, rfl, rfl⟩
        obtain ⟨f, finished, rfl, rfl, rfl⟩ := List.map_eq_cons_iff.mp labels
        obtain ⟨talk, talks⟩ := List.forall_mem_cons.mp talks
        refine ⟨f.exchanges, _, _, rfl, ⟨f.answer, talk, rfl⟩, _, _, [],
          (List.append_nil _).symm, ⟨finished, rfl, talks, rfl, rfl⟩, .done _⟩

theorem talk_warnings_iff {failures : List DomainError} {es : List Exchange} :
    (failures.forM fun failure => (MonadJournal.write (failureLine e failure) : Program Unit)).Talk
      es (.done ()) ↔ es = warnings e failures := by
  induction failures generalizing es with
  | nil => exact Program.talk_done_iff.trans (and_iff_left rfl)
  | cons failure failures ih =>
      rw [List.forM_eq_forM] at ih ⊢
      rw [List.forM_cons]
      refine Program.talk_request_iff.trans ?_
      simp only [ih, warnings, List.map_cons]
      exact ⟨fun ⟨_, _, told, rest⟩ => rest ▸ told, fun told => ⟨(), _, told, rfl⟩⟩

theorem filterMap_failure?_of_first {before after : List HandlerRun} {f : HandlerRun}
    {cause : Cause} (earlier : ∀ g ∈ before, g.answer = .ok ()) (own : f.answer = .error cause) :
    (before ++ f :: after).filterMap (HandlerRun.failure? e) =
      .eventHandler f.label.name e.id cause :: after.filterMap (HandlerRun.failure? e) := by
  have none : before.filterMap (HandlerRun.failure? e) = [] :=
    List.filterMap_eq_nil_iff.mpr fun g mem => HandlerRun.failure?_eq_none_iff.mpr (earlier g mem)
  rw [List.filterMap_append, none, List.nil_append]
  exact List.filterMap_cons_some (HandlerRun.failure?_eq_some_iff.mpr ⟨cause, own, rfl⟩)

/-- The answer to the failures. -/
def answerTo : List DomainError → Except DomainError Unit
  | [] => .ok ()
  | failure :: _ => .error failure

theorem concluded_iff {finished : List HandlerRun} {answer : Except DomainError Unit} :
    Concluded e finished answer ↔
      answer = answerTo (finished.filterMap (HandlerRun.failure? e)) := by
  have ok_iff : finished.filterMap (HandlerRun.failure? e) = [] ↔
      ∀ f ∈ finished, f.answer = .ok () := by
    simp only [List.filterMap_eq_nil_iff, HandlerRun.failure?_eq_none_iff]
  constructor
  · intro concluded
    cases answer with
    | ok => rw [ok_iff.mpr (concluded.ok_iff.mp rfl), answerTo]
    | error failure =>
        obtain ⟨before, f, after, cause, rfl, earlier, own, rfl⟩ := concluded.first failure rfl
        rw [filterMap_failure?_of_first earlier own, answerTo]
  · rintro rfl
    cases listed : finished.filterMap (HandlerRun.failure? e) with
    | nil => exact ⟨iff_of_true rfl (ok_iff.mp listed), nofun⟩
    | cons failure failures =>
        obtain ⟨before, f, after, rfl, earlier, failed, _⟩ := List.filterMap_eq_cons_iff.mp listed
        obtain ⟨cause, own, rfl⟩ := HandlerRun.failure?_eq_some_iff.mp failed
        refine ⟨iff_of_false nofun fun all => ?_, ?_⟩
        · rw [ok_iff.mpr all] at listed
          cases listed
        · rintro _ ⟨⟩
          exact ⟨before, f, after, cause, rfl, fun g mem =>
            HandlerRun.failure?_eq_none_iff.mp (earlier g mem), own, rfl⟩

theorem conclude_eq (e : Envelope) (failures : List DomainError) :
    (conclude e failures : Program (Except DomainError Unit)) =
      (failures.forM fun failure => MonadJournal.write (failureLine e failure)) >>= fun _ =>
        pure (answerTo failures) := by
  cases failures <;> rfl

theorem talk_conclude_iff {failures : List DomainError} {es : List Exchange}
    {answer : Except DomainError Unit} :
    (conclude (m := Program) e failures).Talk es (.done answer) ↔
      es = warnings e failures ∧ answer = answerTo failures := by
  rw [conclude_eq, Program.talk_bind_done_iff]
  constructor
  · rintro ⟨first, _, rest, rfl, lines, ended⟩
    obtain ⟨rfl, same⟩ := Program.talk_done_iff.mp ended
    cases same
    exact ⟨(List.append_nil first).symm ▸ talk_warnings_iff.mp lines, rfl⟩
  · rintro ⟨lines, rfl⟩
    exact ⟨es, (), [], (List.append_nil es).symm, talk_warnings_iff.mpr lines, .done _⟩

theorem talk_dispatch_iff {r : Registry Program} {limit : Nat} {picks : List Nat}
    {es : List Exchange} {answer : Except DomainError Unit} :
    (r.dispatch limit picks e).Talk es (.done answer) ↔
      ∃ finished : List HandlerRun,
        finished.map (·.label) = completions limit picks (r.matching e.type) ∧
        (∀ f ∈ finished, (f.label.handle e).Talk f.exchanges (.done f.answer)) ∧
        es = finished.flatMap (·.exchanges) ++
          warnings e (finished.filterMap (HandlerRun.failure? e)) ∧
        Concluded e finished answer := by
  rw [dispatch, Program.talk_bind_done_iff]
  simp only [talk_attempts_iff]
  constructor
  · rintro ⟨_, _, rest, rfl, ⟨finished, labels, talks, rfl, rfl⟩, told⟩
    rw [List.filterMap_map, Function.id_comp, talk_conclude_iff, ← concluded_iff] at told
    exact ⟨finished, labels, talks, told.1 ▸ rfl, told.2⟩
  · rintro ⟨finished, labels, talks, rfl, concluded⟩
    refine ⟨_, _, _, rfl, ⟨finished, labels, talks, rfl, rfl⟩, ?_⟩
    rw [List.filterMap_map, Function.id_comp, talk_conclude_iff, ← concluded_iff]
    exact ⟨rfl, concluded⟩

/-! Handlers that do not break off -/

theorem unbroken_attempt {h : Handler Program} (unbroken : (h.handle e).Unbroken) :
    (attempt e h).Unbroken :=
  unbroken.bind fun answer => by cases answer <;> exact .done _

theorem unbroken_conclude (failures : List DomainError) :
    (conclude (m := Program) e failures).Unbroken := by
  rw [conclude_eq]
  exact (Program.Unbroken.write (failureLine e) failures).bind fun _ => .done _

/-- The matching handlers run side by side, and all of them come to their ends. -/
def Course (r : Registry Program) (limit : Nat) (e : Envelope) (events : List LaneEvent)
    (finished : List HandlerRun) : Prop :=
  Lanes.Course (fun h : Handler Program => h.handle e) limit (r.matching e.type) events finished

theorem course_iff {r : Registry Program} {limit : Nat} {finished : List HandlerRun} :
    (∃ events, r.Course limit e events finished) ↔
      (∃ picks, finished.map (·.label) = completions limit picks (r.matching e.type)) ∧
        ∀ f ∈ finished, (f.label.handle e).Talk f.exchanges (.done f.answer) :=
  Lanes.course_iff fun h : Handler Program => h.handle e

/-- What a dispatch comes to, with `limit` as the concurrency. -/
structure RunsAll (r : Registry Program) (limit : Nat) (e : Envelope) : Prop where
  /-- Each matching handler runs once and to its end, whatever becomes of the others. -/
  once : ∀ events finished, r.Course limit e events finished →
    (finished.map (·.label)).Perm (r.matching e.type) ∧
      ∀ f ∈ finished, (f.label.handle e).Talk f.exchanges (.done f.answer)
  inTurn : ∀ events finished, r.Course limit e events finished →
    limit ≤ 1 ∨ .suspend ∉ events → finished.map (·.label) = r.matching e.type
  /-- Nothing else is asked than what the handlers ask, and then one line for each that failed. -/
  dispatch_iff : ∀ es answer, (∃ picks, (r.dispatch limit picks e).Talk es (.done answer)) ↔
    ∃ events finished, r.Course limit e events finished ∧
      es = finished.flatMap (·.exchanges) ++
        warnings e (finished.filterMap (HandlerRun.failure? e)) ∧
      Concluded e finished answer
  /-- If no matching handler breaks off, the dispatch always comes to its end. -/
  ends : (∀ h ∈ r.matching e.type, (h.handle e).Unbroken) →
    (∀ picks a w, ∃ answer, ((r.dispatch limit picks e).run a w).1 = .done answer) ∧
      ∀ events s,
        Lanes.Steps (·.handle e) events (.begin (·.handle e) limit (r.matching e.type)) s →
        ∃ more finished, Lanes.Steps (·.handle e) more s (.allEnded finished)

theorem dispatch_runsAll (r : Registry Program) (limit : Nat) (e : Envelope) :
    RunsAll r limit e where
  once events finished course := by
    obtain ⟨⟨picks, order⟩, talks⟩ := course_iff.mp ⟨events, course⟩
    exact ⟨order ▸ completions_perm limit picks _, talks⟩
  inTurn events finished course single := course.labels_in_turn single
  dispatch_iff es answer := by
    simp only [talk_dispatch_iff]
    constructor
    · rintro ⟨picks, finished, order, talks, told, concluded⟩
      obtain ⟨events, course⟩ := course_iff.mpr ⟨⟨picks, order⟩, talks⟩
      exact ⟨events, finished, course, told, concluded⟩
    · rintro ⟨events, finished, course, told, concluded⟩
      obtain ⟨⟨picks, order⟩, talks⟩ := course_iff.mp ⟨events, course⟩
      exact ⟨picks, finished, order, talks, told, concluded⟩
  ends unbroken := by
    refine ⟨fun picks a w => ?_, fun events s steps => Lanes.exists_ending unbroken steps⟩
    refine Program.Unbroken.run (Program.Unbroken.bind ?_ fun _ => unbroken_conclude _) a w
    exact .mapM fun h mem =>
      unbroken_attempt (unbroken h ((completions_perm limit picks _).mem_iff.mp mem))

end Registry

end SmsTracking
