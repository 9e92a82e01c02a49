import SmsTracking.Proofs.Stores

/-!
Calls of a listener log. A call concerns the slot of its key alone: the reply and what the call
leaves there depend on nothing else (`ask_eq_onSlot`). Main statement: the calls of one key get the
replies that they would get if there were no others (`SameAt.replies`).
-/

namespace SmsTracking

/-- What a listener log can be asked. -/
inductive LogRequest where
  | claim (key : ListenerKey)
  | record (e : HandledEvent)
  | release (key : ListenerKey)
  | has (key : ListenerKey)

inductive LogReply where
  | claim (c : Claim)
  /-- Whether the record is the first one of its key. -/
  | recorded (first : Bool)
  | released
  | has (known : Bool)
deriving DecidableEq

/-- A request at a reading of the clock. -/
structure LogCall where
  now : Instant
  request : LogRequest

namespace LogCall

def key (c : LogCall) : ListenerKey :=
  match c.request with
  | .claim key | .release key | .has key => key
  | .record e => ListenerLog.keyOf e

def record? (c : LogCall) : Option HandledEvent :=
  match c.request with
  | .record e => some e
  | .claim _ | .release _ | .has _ => none

/-- The reply to a call by the slot of its key, and what it leaves in the slot. -/
def onSlot (timeToLive : Span) (c : LogCall) (slot : Option ListenerSlot) :
    LogReply × Option ListenerSlot :=
  match c.request, slot with
  | .claim _, none => (.claim .claimed, some (.inProgress c.now))
  | .claim _, some (.handled h) => (.claim .alreadyHandled, some (.handled h))
  | .claim _, some (.inProgress claimedAt) =>
      if timeToLive.nanoseconds ≤ (c.now.since claimedAt).nanoseconds then
        (.claim .claimed, some (.inProgress c.now))
      else (.claim .inProgress, some (.inProgress claimedAt))
  | .record _, some (.handled h) => (.recorded false, some (.handled h))
  | .record e, none | .record e, some (.inProgress _) => (.recorded true, some (.handled e))
  | .release _, some (.handled h) => (.released, some (.handled h))
  | .release _, none | .release _, some (.inProgress _) => (.released, none)
  | .has _, slot => (.has (slot.any fun s => (ListenerLog.record? s).isSome), slot)

end LogCall

namespace ListenerLog

def ask (log : ListenerLog) (c : LogCall) : LogReply × ListenerLog :=
  match c.request with
  | .claim key => (.claim (log.claim key c.now).1, (log.claim key c.now).2)
  | .record e => (.recorded (log.record e).1, (log.record e).2)
  | .release key => (.released, log.release key)
  | .has key => (.has (log.has key), log)

/-- The log after some calls. -/
def after (log : ListenerLog) (calls : List LogCall) : ListenerLog :=
  calls.foldl (fun log c => (log.ask c).2) log

/-- The calls with their replies. -/
def replies (log : ListenerLog) : List LogCall → List (LogCall × LogReply)
  | [] => []
  | c :: calls => (c, (log.ask c).1) :: (log.ask c).2.replies calls

/-- A log that nobody has asked for anything. -/
def begin (timeToLive : Span) : ListenerLog := { timeToLive }

end ListenerLog

namespace ListenerLog

theorem after_append (log : ListenerLog) (calls more : List LogCall) :
    log.after (calls ++ more) = (log.after calls).after more :=
  List.foldl_append

theorem replies_append (log : ListenerLog) (calls more : List LogCall) :
    log.replies (calls ++ more) = log.replies calls ++ (log.after calls).replies more := by
  induction calls generalizing log with
  | nil => rfl
  | cons c calls ih => simp only [List.cons_append, replies, ih, after, List.foldl_cons]

theorem map_fst_replies (log : ListenerLog) (calls : List LogCall) :
    (log.replies calls).map (·.1) = calls := by
  induction calls generalizing log with
  | nil => rfl
  | cons c calls ih => simp only [replies, List.map_cons, ih]

section Step

variable (log : ListenerLog) (c : LogCall) {key : ListenerKey}

theorem timeToLive_ask : (log.ask c).2.timeToLive = log.timeToLive := by
  obtain ⟨now, request⟩ := c
  cases request with
  | claim key => exact log.timeToLive_claim now key
  | record e => exact log.timeToLive_record e
  | release key => exact log.timeToLive_release key
  | has key => rfl

theorem find?_ask_of_ne (other : key ≠ c.key) :
    (log.ask c).2.slots.find? key = log.slots.find? key := by
  obtain ⟨now, request⟩ := c
  cases request with
  | claim own => exact log.find?_claim_of_ne now other
  | record e => exact log.find?_record_of_ne other
  | release own => exact log.find?_release_of_ne other
  | has own => rfl

/-- A call reads and writes the slot of its key. -/
theorem ask_eq_onSlot :
    (log.ask c).1 = (c.onSlot log.timeToLive (log.slots.find? c.key)).1 ∧
      (log.ask c).2.slots.find? c.key =
        (c.onSlot log.timeToLive (log.slots.find? c.key)).2 := by
  obtain ⟨now, request⟩ := c
  cases request with
  | claim key =>
      simp only [ask, LogCall.key, LogCall.onSlot]
      cases slot : log.slots.find? key with
      | none => simp [claim_of_vacant now slot]
      | some s =>
          cases s with
          | handled h => simp [claim_of_handled now slot, slot]
          | inProgress claimedAt =>
              cases lapsed : log.expired claimedAt now with
              | true =>
                  have due := of_decide_eq_true lapsed
                  simp [claim_of_expired slot lapsed, due]
              | false =>
                  have running := of_decide_eq_false lapsed
                  simp [claim_of_running slot lapsed, running, slot]
  | record e =>
      simp only [ask, LogCall.key, LogCall.onSlot, record]
      cases slot : log.slots.find? (keyOf e) with
      | none => simp
      | some s => cases s <;> simp [slot]
  | release key =>
      simp only [ask, LogCall.key, LogCall.onSlot, release]
      cases slot : log.slots.find? key with
      | none => simp [slot]
      | some s => cases s <;> simp [slot]
  | has key =>
      simp only [ask, LogCall.key, LogCall.onSlot, has]
      cases slot : log.slots.find? key with
      | none => simp
      | some s => cases s <;> simp [record?]

end Step

/-! The calls of one key are as good as alone -/

/-- Two logs cannot be told apart by calls of this key. -/
def SameAt (key : ListenerKey) (log other : ListenerLog) : Prop :=
  log.timeToLive = other.timeToLive ∧ log.slots.find? key = other.slots.find? key

namespace SameAt

variable {key : ListenerKey} {log other : ListenerLog}

theorem ask (same : SameAt key log other) {c : LogCall} (own : c.key = key) :
    (log.ask c).1 = (other.ask c).1 ∧ SameAt key (log.ask c).2 (other.ask c).2 := by
  subst own
  obtain ⟨reply, slot⟩ := log.ask_eq_onSlot c
  obtain ⟨reply', slot'⟩ := other.ask_eq_onSlot c
  refine ⟨?_, ?_, ?_⟩
  · rw [reply, reply', same.1, same.2]
  · rw [timeToLive_ask, timeToLive_ask, same.1]
  · rw [slot, slot', same.1, same.2]

theorem ask_of_ne (same : SameAt key log other) {c : LogCall} (ne : c.key ≠ key) :
    SameAt key (log.ask c).2 other := by
  refine ⟨(log.timeToLive_ask c).trans same.1, ?_⟩
  rw [log.find?_ask_of_ne c (Ne.symm ne)]
  exact same.2

theorem replies (same : SameAt key log other) (calls : List LogCall) :
    (log.replies calls).filter (·.1.key = key) = other.replies (calls.filter (·.key = key)) ∧
      SameAt key (log.after calls) (other.after (calls.filter (·.key = key))) := by
  induction calls generalizing log other with
  | nil => exact ⟨rfl, same⟩
  | cons c calls ih =>
      by_cases own : c.key = key
      · obtain ⟨reply, same'⟩ := same.ask own
        obtain ⟨rest, last⟩ := ih same'
        rw [ListenerLog.replies, List.filter_cons_of_pos (by simpa using own),
          List.filter_cons_of_pos (by simpa using own), ListenerLog.replies, rest, reply]
        exact ⟨rfl, last⟩
      · obtain ⟨rest, last⟩ := ih (same.ask_of_ne own)
        rw [ListenerLog.replies, List.filter_cons_of_neg (by simpa using own),
          List.filter_cons_of_neg (by simpa using own)]
        exact ⟨rest, last⟩

end SameAt

end ListenerLog

end SmsTracking
