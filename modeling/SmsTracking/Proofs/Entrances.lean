import SmsTracking.Proofs.Redelivery

/-!
The two ways into the listener: by dispatch through a registry, and by handing it the event. Main
statement: with the handlers of the listener registered, in any order and however often, both ways
do the same, and a failure is told with the handler and the event that it belongs to
(`dispatch_agrees`).
-/

namespace SmsTracking

namespace Listener

/-- A dispatch of an event and the listener itself that deals with it, in the same world. -/
structure Agrees (e : Envelope) (w : World) (dispatched : Outcome (Except DomainError Unit) × World)
    (handled : Outcome (Except AppError Unit) × World) : Prop where
  known : ∀ k : EventKind, e.type = k.name →
    dispatched.2.messages = handled.2.messages ∧ dispatched.2.log = handled.2.log ∧
    (dispatched.1 = .done (.ok ()) ↔ handled.1 = .done (.ok ())) ∧
    (∀ reason, handled.1 = .done (.error reason) →
      dispatched.1 = .done (.error (.eventHandler (signature k) e.id (.app reason)))) ∧
    ∀ text, dispatched.1 = .aborted text ↔ handled.1 = .aborted text
  unknown : (∀ k : EventKind, e.type ≠ k.name) →
    dispatched = (.done (.ok ()), w) ∧
      ∃ reason, handled = (.done (.error (.decode reason)), w)

theorem dispatch_agrees (a : Ambient) (retries limit : Nat) (picks : List Nat) (e : Envelope)
    (w : World) (hs : List (Handler Program)) (exactly : ∀ h, h ∈ hs ↔ h ∈ handlers retries) :
    Agrees e w (((Registry.ofList hs).dispatch limit picks e).run a w)
      ((handleEvent retries e).run a w) where
  known k kind := by
    have only : (Registry.ofList hs).matching e.type = [handler retries k] := by
      rw [kind, matching_registered exactly]
    rw [dispatch_of_matching only, run_handle_relay, handleEvent, kind, EventKind.ofName?_name]
    generalize (handle retries k e).run a w = handled
    obtain ⟨o, w'⟩ := handled
    match o with
    | .done (.ok ()) =>
        exact ⟨rfl, rfl, ⟨fun _ => rfl, fun _ => rfl⟩, nofun, fun _ => ⟨nofun, nofun⟩⟩
    | .done (.error reason) =>
        refine ⟨rfl, rfl, ⟨nofun, nofun⟩, ?_, fun _ => ⟨nofun, nofun⟩⟩
        rintro _ ⟨⟩
        rfl
    | .aborted text => exact ⟨rfl, rfl, ⟨nofun, nofun⟩, nofun, fun _ => by simp⟩
  unknown other := by
    have unnamed := EventKind.ofName?_eq_none_iff.mpr other
    rw [Registry.dispatch_of_none (matching_registered_of_unknown exactly unnamed), handleEvent,
      unnamed]
    exact ⟨rfl, _, rfl⟩

/-- The handlers are registered twice, and the event is about a message that is not there. -/
theorem dispatch_agrees_again :
    let a : Ambient := ⟨fun _ => .epoch, fun n => ⟨n⟩⟩
    let hs := handlers 3 ++ (handlers 3).reverse
    let e := Envelope.carrying "1" .epoch (.phoneSending ⟨⟨1⟩, "+1000", "+2000", "hi"⟩)
    (∀ h, h ∈ hs ↔ h ∈ handlers 3) ∧
      Agrees e {} (((Registry.ofList hs).dispatch defaultHandlerConcurrency [] e).run a {})
        ((handleEvent 3 e).run a {}) := by
  intro a hs e
  have exactly : ∀ h, h ∈ hs ↔ h ∈ handlers 3 := fun h => by simp [hs]
  exact ⟨exactly, dispatch_agrees a 3 defaultHandlerConcurrency [] e {} hs exactly⟩

end Listener

end SmsTracking
