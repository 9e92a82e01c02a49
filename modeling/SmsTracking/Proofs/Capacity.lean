import SmsTracking.Proofs.Cancellation
import SmsTracking.Proofs.Wire.Accepted
import SmsTracking.Proofs.Wire.Codecs
import SmsTracking.Proofs.WorkerWaits

/-!
Which configurations can run a batch. Of all that a configuration says only the width of a batch can
keep a poll from its result: a poll breaks off where its batch is too wide and not empty, and
otherwise comes to a result, without any wait. Objects and documents may ask for a width that is too
large. Main statement: `polls_served`.
-/

namespace SmsTracking

open Service

namespace ServiceConfig

/-- What comes of polls where the service has this configuration. -/
structure Serves (config : ServiceConfig) : Prop where
  /-- Objects can hold the configuration. -/
  object : Json.decodeText decode (toString config.encode) = .ok config
  /-- Documents can hold it unless a setting is beyond their integers. -/
  document : (∃ s, ofDocument s = .ok config) ↔ ∀ k : Key, config.get k < Toml.integerLimit
  /-- Whoever dispatches its events and whatever it is answered, a poll breaks off for one reason
  only, and then all that it has done is to select its batch. -/
  breaksOff {s : Service} (own : s.config = config) (picks : List Nat) (p : Poll)
    (es : List Exchange) (text : String) :
    (s.getOutstanding picks p).Talk es (.aborted text) ↔
      Batch.maxWidth < config.outstandingConcurrency.toNat ∧ text = Batch.tooWide ∧
        ∃ m ms, es = [⟨.outstanding (p.limit.getD config.outstandingLimit), .ok (m :: ms)⟩]
  /-- In a world a poll comes to a result unless the batch that it gets is too wide. -/
  result_iff {s : Service} (own : s.config = config) (a : Ambient) (w : World) (picks : List Nat)
    (p : Poll) :
    (∃ ms w', (s.getOutstanding picks p).run a w = (.done (.ok ms), w')) ↔
      config.outstandingConcurrency.toNat ≤ Batch.maxWidth ∨
        p.limit.getD config.outstandingLimit = 0 ∨ w.messages.waiting = []
  /-- Without a result nothing is changed. -/
  refused {s : Service} (own : s.config = config) (a : Ambient) (w : World) (picks : List Nat)
    (p : Poll) :
    (¬ ∃ ms w', (s.getOutstanding picks p).run a w = (.done (.ok ms), w')) →
      (s.getOutstanding picks p).run a w = (.aborted Batch.tooWide, w)
  /-- The workers of a batch, whoever goes on when and whether anything is cancelled, neither break
  off nor wait, and each has ended after so many turns of its own. -/
  workers (a : Ambient) (w : World) (p : Poll) (b : Batch)
    (polled : ((inPlace config).poll p).run a w = (.done (.ok (some b)), w))
    (schedule : List Turn) :
    let t := (Turns.ofBatch (inPlace config) b w).run a Turns.alone schedule
    (∀ place text, t.outcome? place ≠ some (.aborted text)) ∧
      (∀ e ∈ t.exchanges, e.2.request.isPause = false) ∧
      ((∀ place < b.messages.length, Batch.turns config ≤ schedule.count (.go place)) → t.Over)

theorem polls_served (config : ServiceConfig) : config.Serves where
  object := roundTrips.text config
  document := exists_document_iff
  breaksOff own picks p es text := by
    subst own
    exact talk_getOutstanding_aborted_iff
  result_iff own a w picks p := by
    subst own
    constructor
    · rintro ⟨ms, w', ran⟩
      by_contra! ⟨wide, some, waits⟩
      rw [run_getOutstanding_of_tooWide a wide fun none =>
        (MessageStore.outstanding_eq_nil_iff.mp none).elim some waits] at ran
      cases ran
    · rintro (narrow | nothing)
      · exact run_getOutstanding_of_narrow a w narrow
      · exact ⟨[], w, run_getOutstanding_of_nil a (MessageStore.outstanding_eq_nil_iff.mpr nothing)⟩
  refused own a w picks p fails := by
    subst own
    apply run_getOutstanding_of_tooWide a
    · by_contra narrow
      exact fails (run_getOutstanding_of_narrow a w (Nat.le_of_not_lt narrow))
    · intro none
      exact fails ⟨[], w, run_getOutstanding_of_nil a none⟩
  workers a w p b polled schedule := by
    have stored : ∀ m ∈ b.messages, (w.messages.find? m.id).isSome = true := by
      intro m mem
      rw [Poll.messages_of_run_poll polled] at mem
      have waits := w.messages.outstanding_subset _ mem
      rw [(MessageStore.mem_waiting_iff.mp waits).1]
      rfl
    obtain ⟨unbroken, busy⟩ := Turns.prompt_run a config stored schedule
    exact ⟨unbroken, busy, Turns.over_run a config b w⟩

/-- The setting is accepted from an object and from a document, and one message waits. -/
theorem accepted_poll_breaks_off :
    let a : Ambient := ⟨fun _ => .epoch, fun n => ⟨n⟩⟩
    let config : ServiceConfig := { outstandingConcurrency := 2305843009213693952 }
    let store : Step :=
      { command := .storeSent ⟨⟨7⟩, "+1000", "+2000", "hi", .epoch⟩, distinct := trivial }
    let w := (Course.run a config [store]).world
    Json.decodeValue decode
        (.object [("outstanding_concurrency", .ofNat 2305843009213693952)]) = .ok config ∧
      ofDocument "outstanding_concurrency = 2305843009213693952" = .ok config ∧
      w.Reachable a config ∧ w.messages.waiting.length = 1 ∧
      ((inPlace config).getOutstanding [] ⟨"phone-poll", none⟩).run a w =
        (.aborted Batch.tooWide, w) := by
  intro a config store w
  have object : Json.decodeValue decode
      (.object [("outstanding_concurrency", .ofNat 2305843009213693952)]) = .ok config := by
    refine (decode_object_eq_ok_iff (by decide) rfl).mpr fun k => ?_
    cases k <;> rfl
  let line : Toml.Assignment :=
    .plain "outstanding_concurrency" 2305843009213693952 (by decide)
      (List.all_eq_true.mp (by decide +kernel))
  have document : ofDocument "outstanding_concurrency = 2305843009213693952" = .ok config := by
    have text : "outstanding_concurrency = 2305843009213693952".toList = line.text ++ [] := by
      decide +kernel
    have written :
        Toml.Written [line] "outstanding_concurrency = 2305843009213693952".toList := by
      rw [text]
      exact .line line .eof .nil
    refine (ofDocument_of_written written (by decide)).mpr fun k => ?_
    cases k <;> rfl
  have one : w.messages.waiting.length = 1 := by decide +kernel
  refine ⟨object, document, Course.reachable_run a config [store], one, ?_⟩
  apply run_getOutstanding_of_tooWide (s := inPlace config) a
  · decide
  · intro none
    rcases MessageStore.outstanding_eq_nil_iff.mp none with zero | nothing
    · cases zero
    · rw [nothing] at one
      cases one

end ServiceConfig

end SmsTracking
