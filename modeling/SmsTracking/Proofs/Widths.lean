import SmsTracking.Program.Exchange
import SmsTracking.Proofs.Runs
import SmsTracking.Proofs.Waiting
import SmsTracking.Service.Batch

/-!
Batches that are too wide. A poll breaks off in one way only, whatever its surroundings answer and
whatever becomes of its workers: its batch is too wide and not empty. Then it has asked for nothing
but its batch. Main statement: `Service.talk_getOutstanding_aborted_iff`.
-/

namespace SmsTracking

namespace Batch

/-- What is said of a batch that is too wide. -/
def tooWide : String :=
  "a semaphore may not have more than MAX_PERMITS permits (" ++ toString maxWidth ++ ")"

/-- The worker of a message that breaks off breaks off by itself. -/
theorem work_unbroken (s : Service) (source : String) (job : Message × Nat) :
    (work s source job).Unbroken :=
  (Program.Unbroken.attempt _).bind fun _ =>
    (Program.Unbroken.write (fun line => line) _).bind fun _ => .done _

theorem width_le_iff {source : String} {concurrency : UInt64} {messages : List Message} :
    (ofMessages source concurrency messages).width ≤ maxWidth ↔ concurrency.toNat ≤ maxWidth := by
  have positive : 1 ≤ maxWidth := by decide
  exact Nat.max_le.trans (and_iff_left positive)

variable {s : Service} {picks : List Nat} {b : Batch}

theorem process_unbroken (narrow : b.width ≤ maxWidth) : (b.process s picks).Unbroken := by
  simp only [process, begin, if_pos narrow, pure_bind]
  exact (Program.Unbroken.mapM fun job _ => work_unbroken s b.source job).bind fun _ => .done _

theorem process_of_wide (wide : ¬ b.width ≤ maxWidth) : b.process s picks = .abort tooWide := by
  simp only [process, begin, if_neg wide]
  rfl

theorem talk_process_aborted_iff {es : List Exchange} {text : String} :
    (b.process s picks).Talk es (.aborted text) ↔
      ¬ b.width ≤ maxWidth ∧ es = [] ∧ text = tooWide := by
  by_cases narrow : b.width ≤ maxWidth
  · exact iff_of_false (process_unbroken narrow es text) fun wide => wide.1 narrow
  · rw [process_of_wide narrow]
    constructor
    · intro talk
      cases talk
      exact ⟨narrow, rfl, rfl⟩
    · rintro ⟨-, rfl, rfl⟩
      exact .abort _

end Batch

namespace Service

variable {s : Service} {picks : List Nat} {p : Poll}

/-- A poll that has selected messages. -/
theorem talk_handing_aborted_iff {b : Batch} {es : List Exchange} {text : String} :
    (b.process s picks >>= fun ms =>
      (pure (.ok ms) : Program (Except AppError (List Message)))).Talk es (.aborted text) ↔
      ¬ b.width ≤ Batch.maxWidth ∧ es = [] ∧ text = Batch.tooWide := by
  have process_iff : (b.process s picks).Talk es (.aborted text) ↔
      ¬ b.width ≤ Batch.maxWidth ∧ es = [] ∧ text = Batch.tooWide :=
    Batch.talk_process_aborted_iff
  rw [Program.talk_bind_iff, ← process_iff]
  constructor
  · rintro (⟨_, _, rest, _, _, ended⟩ | ⟨text, broken, same⟩)
    · cases ended
    · cases same
      exact broken
  · intro broken
    exact .inr ⟨text, broken, rfl⟩

/-- Whatever is answered, a poll breaks off exactly if its batch is too wide and not empty, and then
nothing else was asked. -/
theorem talk_getOutstanding_aborted_iff {es : List Exchange} {text : String} :
    (s.getOutstanding picks p).Talk es (.aborted text) ↔
      Batch.maxWidth < s.config.outstandingConcurrency.toNat ∧ text = Batch.tooWide ∧
        ∃ m ms, es = [⟨.outstanding (p.limit.getD s.config.outstandingLimit), .ok (m :: ms)⟩] := by
  have wide (ms : List Message) :
      ¬ (Batch.ofMessages p.source s.config.outstandingConcurrency ms).width ≤ Batch.maxWidth ↔
        Batch.maxWidth < s.config.outstandingConcurrency.toNat := by
    rw [Batch.width_le_iff, Nat.not_le]
  simp only [getOutstanding, poll, bind_assoc]
  refine Program.talk_request_iff.trans ?_
  constructor
  · rintro ⟨answer, rest, rfl, talk⟩
    match answer with
    | .error e => cases talk
    | .ok [] => cases talk
    | .ok (m :: ms) =>
        obtain ⟨tooWide, rfl, rfl⟩ := talk_handing_aborted_iff.mp talk
        exact ⟨(wide _).mp tooWide, rfl, m, ms, rfl⟩
  · rintro ⟨tooWide, rfl, m, ms, rfl⟩
    exact ⟨_, [], rfl, talk_handing_aborted_iff.mpr ⟨(wide (m :: ms)).mpr tooWide, rfl, rfl⟩⟩

theorem run_getOutstanding_of_nil (a : Ambient) {w : World}
    (nothing : w.messages.outstanding (p.limit.getD s.config.outstandingLimit) = []) :
    (s.getOutstanding picks p).run a w = (.done (.ok []), w) := by
  simp only [getOutstanding, poll, bind_assoc, Program.run_outstanding, nothing]
  rfl

theorem run_getOutstanding_of_cons (a : Ambient) {w : World} {m : Message} {ms : List Message}
    (out : w.messages.outstanding (p.limit.getD s.config.outstandingLimit) = m :: ms) :
    (s.getOutstanding picks p).run a w =
      ((Batch.ofMessages p.source s.config.outstandingConcurrency (m :: ms)).process s picks >>=
        fun handed => pure (.ok handed)).run a w := by
  simp only [getOutstanding, poll, bind_assoc, Program.run_outstanding, out, pure_bind]

theorem run_getOutstanding_of_narrow (a : Ambient) (w : World)
    (narrow : s.config.outstandingConcurrency.toNat ≤ Batch.maxWidth) :
    ∃ ms w', (s.getOutstanding picks p).run a w = (.done (.ok ms), w') := by
  cases out : w.messages.outstanding (p.limit.getD s.config.outstandingLimit) with
  | nil => exact ⟨[], w, run_getOutstanding_of_nil a out⟩
  | cons m ms =>
      let b : Batch := .ofMessages p.source s.config.outstandingConcurrency (m :: ms)
      have unbroken : (b.process s picks).Unbroken :=
        Batch.process_unbroken (Batch.width_le_iff.mpr narrow)
      obtain ⟨handed, ended⟩ := unbroken.run a w
      refine ⟨handed, ((b.process s picks).run a w).2, ?_⟩
      rw [run_getOutstanding_of_cons a out, Program.run_bind]
      cases ran : (b.process s picks).run a w with
      | mk o w' =>
          rw [ran] at ended
          cases ended
          rfl

/-- Nothing is changed by a poll that breaks off. -/
theorem run_getOutstanding_of_tooWide (a : Ambient) {w : World}
    (wide : Batch.maxWidth < s.config.outstandingConcurrency.toNat)
    (some : w.messages.outstanding (p.limit.getD s.config.outstandingLimit) ≠ []) :
    (s.getOutstanding picks p).run a w = (.aborted Batch.tooWide, w) := by
  cases out : w.messages.outstanding (p.limit.getD s.config.outstandingLimit) with
  | nil => exact absurd out some
  | cons m ms =>
      rw [run_getOutstanding_of_cons a out, Batch.process_of_wide]
      · rfl
      · rwa [Batch.width_le_iff, Nat.not_le]

end Service

theorem MessageStore.outstanding_eq_nil_iff {s : MessageStore} {limit : UInt64} :
    s.outstanding limit = [] ↔ limit = 0 ∨ s.waiting = [] := by
  rw [← List.length_eq_zero_iff, s.length_outstanding, ← List.length_eq_zero_iff,
    ← UInt64.toNat_inj, UInt64.toNat_zero]
  omega

end SmsTracking
