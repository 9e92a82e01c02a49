import SmsTracking.Proofs.Dispatches
import SmsTracking.Proofs.Failures

/-!
How the failure of a dispatch is classified. It never counts as something that was not found, and of
the errors that it can come from only those of the domain tell whether trying again can help. Main
statement: it is classified like its cause unless the cause is about something that was not found,
or is an error of the service that is there to stay (`dispatch_classified`).
-/

namespace SmsTracking

namespace Cause

/-- The error below all contexts. -/
def root : Cause → Cause
  | context _ source => source.root
  | c => c

theorem root_cases (c : Cause) :
    (∃ text, c.root = .text text) ∨ (∃ d, c.root = .domain d) ∨ ∃ x, c.root = .app x := by
  fun_induction root c with
  | case1 _ source ih => exact ih
  | case2 c plain =>
      cases c with
      | text text => exact .inl ⟨text, rfl⟩
      | context text source => exact absurd rfl (plain text source)
      | domain d => exact .inr (.inl ⟨d, rfl⟩)
      | app x => exact .inr (.inr ⟨x, rfl⟩)

theorem isNotFound_root (c : Cause) : c.root.isNotFound = c.isNotFound := by
  fun_induction root c with
  | case1 _ source ih => rw [ih, isNotFound]
  | case2 => rfl

theorem isRetriable_root (c : Cause) : c.root.isRetriable = c.isRetriable := by
  fun_induction root c with
  | case1 _ source ih => rw [ih, isRetriable]
  | case2 => rfl

theorem isRetriableDomain_root (c : Cause) : c.root.isRetriableDomain = c.isRetriableDomain := by
  fun_induction root c with
  | case1 _ source ih => rw [ih, isRetriableDomain]
  | case2 => rfl

end Cause

namespace DomainError

/-- How a failure is classified that has this cause. -/
structure Classified (failure : DomainError) (cause : Cause) : Prop where
  isNotFound : failure.isNotFound = false
  /-- Trying again is worth it if it is for the domain error that is the cause, -/
  domain : ∀ d, cause.root = .domain d → failure.isRetriable = d.isRetriable
  /-- and always if the cause is not an error of the domain. -/
  other : (∀ d, cause.root ≠ .domain d) → failure.isRetriable = true
  /-- No failure is given up that can pass. -/
  retriable : cause.isRetriable = true → failure.isRetriable = true
  agrees_iff : failure.isNotFound = cause.isNotFound ∧ failure.isRetriable = cause.isRetriable ↔
    cause.isNotFound = false ∧ ∀ x, cause.root = .app x → x.isRetriable = true

theorem isRetriable_eventHandler (handler eventId : String) (cause : Cause) :
    (eventHandler handler eventId cause).isRetriable = cause.root.isRetriableDomain := by
  rw [isRetriable, cause.isRetriableDomain_root]

theorem eventHandler_classified (handler eventId : String) (cause : Cause) :
    Classified (.eventHandler handler eventId cause) cause where
  isNotFound := rfl
  domain d root := by rw [isRetriable_eventHandler, root, Cause.isRetriableDomain]
  other foreign := by
    rw [isRetriable_eventHandler]
    rcases cause.root_cases with ⟨text, root⟩ | ⟨d, root⟩ | ⟨x, root⟩
    · rw [root, Cause.isRetriableDomain]
    · exact absurd root (foreign d)
    · rw [root, Cause.isRetriableDomain]
  retriable := by
    rw [isRetriable_eventHandler, ← cause.isRetriable_root]
    rcases cause.root_cases with ⟨text, root⟩ | ⟨d, root⟩ | ⟨x, root⟩
    · rw [root, Cause.isRetriableDomain]
      exact fun _ => rfl
    · rw [root, Cause.isRetriableDomain, Cause.isRetriable]
      exact id
    · rw [root, Cause.isRetriableDomain]
      exact fun _ => rfl
  agrees_iff := by
    rw [isRetriable_eventHandler, ← cause.isRetriable_root]
    refine and_congr eq_comm ?_
    rcases cause.root_cases with ⟨text, root⟩ | ⟨d, root⟩ | ⟨x, root⟩
    · simp [root, Cause.isRetriableDomain, Cause.isRetriable]
    · simp [root, Cause.isRetriableDomain, Cause.isRetriable]
    · rw [root, Cause.isRetriableDomain, Cause.isRetriable, eq_comm]
      simp

end DomainError

namespace Listener

/-- An event that meets an obstacle fails with its error, which the dispatch passes on. -/
theorem run_dispatch_of_obstacle (a : Ambient) (retries limit : Nat) (picks : List Nat)
    {e : Envelope} {k : EventKind} {w : World} {reason : AppError} (kind : e.type = k.name)
    (vacant : w.log.slots.find? e.key = none) (obstacle : Obstacle w.messages k e reason) :
    (((Registry.ofList (handlers retries)).dispatch limit picks e).run a w).1 =
      .done (.error (.eventHandler (signature k) e.id (.app (unapplied k e reason)))) := by
  have named : EventKind.ofName? e.type = some k := by rw [kind, EventKind.ofName?_name]
  have failed := outcome_of_obstacle a retries named vacant obstacle
  rw [handleEvent, named] at failed
  rw [dispatch_handlers kind, run_handle_relay]
  generalize (handle retries k e).run a w = ended at failed
  obtain ⟨o, w'⟩ := ended
  obtain rfl : o = _ := failed
  rfl

end Listener

namespace Registry

/-- A dispatch fails because a matching handler has failed, whose error classifies the failure. -/
theorem dispatch_classified {r : Registry Program} {limit : Nat} {picks : List Nat} {e : Envelope}
    {es : List Exchange} {failure : DomainError}
    (failed : (r.dispatch limit picks e).Talk es (.done (.error failure))) :
    ∃ h ∈ r.matching e.type, ∃ exchanges cause,
      (h.handle e).Talk exchanges (.done (.error cause)) ∧
      failure = .eventHandler h.name e.id cause ∧ failure.Classified cause := by
  obtain ⟨finished, order, talks, _, concluded⟩ := talk_dispatch_iff.mp failed
  obtain ⟨before, f, after, cause, rfl, _, own, rfl⟩ := concluded.first failure rfl
  have ran := talks f (by simp)
  rw [own] at ran
  have matching : f.label ∈ r.matching e.type := by
    rw [← (completions_perm limit picks _).mem_iff, ← order]
    simp
  exact ⟨f.label, matching, f.exchanges, cause, ran, rfl,
    DomainError.eventHandler_classified f.label.name e.id cause⟩

/-- The message that an attempt is about is not there. -/
theorem dispatch_classified_missing :
    let e := Envelope.carrying "1" .epoch (.phoneSending ⟨⟨1⟩, "+1000", "+2000", "hi"⟩)
    let r := ofList (Listener.handlers 3)
    ∃ es failure, (r.dispatch defaultHandlerConcurrency [] e).Talk es (.done (.error failure)) ∧
      ∃ h ∈ r.matching e.type, ∃ exchanges cause,
        (h.handle e).Talk exchanges (.done (.error cause)) ∧
        failure = .eventHandler h.name e.id cause ∧ failure.Classified cause := by
  intro e r
  let a : Ambient := ⟨fun _ => .epoch, fun n => ⟨n⟩⟩
  have failed := Listener.run_dispatch_of_obstacle a 3 defaultHandlerConcurrency [] (e := e)
    (k := .phoneSending) (w := {}) rfl rfl
    (.missing (Envelope.carrying_carries _ _ _).decoded rfl rfl)
  obtain ⟨es, talk⟩ := Program.exists_talk_run a (r.dispatch defaultHandlerConcurrency [] e) {}
  rw [failed] at talk
  exact ⟨es, _, talk, dispatch_classified talk⟩

/-- The listener tells that the message is not there and that trying again cannot help, the dispatch
tells neither. -/
theorem dispatch_hides_failure :
    let a : Ambient := ⟨fun _ => .epoch, fun n => ⟨n⟩⟩
    let e := Envelope.carrying "1" .epoch (.phoneSending ⟨⟨1⟩, "+1000", "+2000", "hi"⟩)
    let r := ofList (Listener.handlers 3)
    ∃ reason failure,
      ((Listener.handleEvent 3 e).run a {}).1 = .done (.error reason) ∧
      ((r.dispatch defaultHandlerConcurrency [] e).run a {}).1 = .done (.error failure) ∧
      failure = .eventHandler (Listener.signature .phoneSending) e.id (.app reason) ∧
      reason.isNotFound = true ∧ failure.isNotFound = false ∧
      reason.isRetriable = false ∧ failure.isRetriable = true := by
  intro a e r
  have missing : Listener.Obstacle ({} : World).messages .phoneSending e _ :=
    .missing (Envelope.carrying_carries _ _ _).decoded rfl rfl
  have handled := Listener.outcome_of_obstacle a 3 (w := {}) rfl rfl missing
  have failed := Listener.run_dispatch_of_obstacle a 3 defaultHandlerConcurrency [] (w := {}) rfl
    rfl missing
  exact ⟨_, _, handled, failed, rfl, rfl, rfl, rfl, rfl⟩

end Registry

end SmsTracking
