import Mathlib.Data.List.Dedup
import Mathlib.Data.List.Induction
import SmsTracking.Proofs.LogCalls

/-!
What a listener log replies in the course of many calls. What is in the slot of a key tells the
history of the key (`tells_after`): the record that was made first, or the claim that was granted and
not given up. Main statement: a log that has begun empty replies to every further call as the history
of its key says (`log_lawful`).
-/

namespace SmsTracking

/-- The record that was made first under a key. -/
def firstRecord (key : ListenerKey) (calls : List LogCall) : Option HandledEvent :=
  calls.findSome? fun c => if c.key = key then c.record? else none

/-- Whether a claim is held on the key after a call, by whether one was held before it. -/
def LogCall.hold (key : ListenerKey) (held : Bool) (c : LogCall × LogReply) : Bool :=
  if c.1.key ≠ key then held
  else match c.1.request, c.2 with
    | .claim _, .claim .claimed => true
    | .release _, _ => false
    | _, _ => held

/-- A claim on the key was granted, and not released since. -/
def held (key : ListenerKey) (past : List (LogCall × LogReply)) : Bool :=
  past.foldl (LogCall.hold key) false

/-- No claim that is made with one of the calls runs out before another one of them. -/
def Lasting (timeToLive : Span) (calls : List LogCall) : Prop :=
  ∀ c ∈ calls, ∀ d ∈ calls, (d.now.since c.now).nanoseconds < timeToLive.nanoseconds

namespace ListenerLog

/-- What is in the slot of a key tells of the calls that were made. -/
def Tells (key : ListenerKey) (past : List (LogCall × LogReply)) : Option ListenerSlot → Prop
  | none => firstRecord key (past.map (·.1)) = none ∧ held key past = false
  | some (.inProgress claimedAt) =>
      firstRecord key (past.map (·.1)) = none ∧ held key past = true ∧
        ∃ c ∈ past, c.1.now = claimedAt
  | some (.handled e) => firstRecord key (past.map (·.1)) = some e

theorem firstRecord_append (key : ListenerKey) (calls more : List LogCall) :
    firstRecord key (calls ++ more) = (firstRecord key calls).or (firstRecord key more) := by
  simp [firstRecord]

theorem firstRecord_singleton (key : ListenerKey) (c : LogCall) :
    firstRecord key [c] = if c.key = key then c.record? else none := by
  simp [firstRecord]

theorem held_append (key : ListenerKey) (past : List (LogCall × LogReply))
    (x : LogCall × LogReply) :
    held key (past ++ [x]) = LogCall.hold key (held key past) x := by
  simp [held]

theorem Tells.of_ne {key : ListenerKey} {past : List (LogCall × LogReply)}
    {slot : Option ListenerSlot} (tells : Tells key past slot) {c : LogCall} (other : key ≠ c.key)
    (reply : LogReply) : Tells key (past ++ [(c, reply)]) slot := by
  have first : firstRecord key ((past ++ [(c, reply)]).map (·.1)) =
      firstRecord key (past.map (·.1)) := by
    simp [firstRecord_append, firstRecord_singleton, Ne.symm other]
  have holds : held key (past ++ [(c, reply)]) = held key past := by
    simp [held_append, LogCall.hold, Ne.symm other]
  match slot with
  | none => exact ⟨first.trans tells.1, holds.trans tells.2⟩
  | some (.handled e) => exact first.trans tells
  | some (.inProgress claimedAt) =>
      obtain ⟨new, granted, d, made, since⟩ := tells
      exact ⟨first.trans new, holds.trans granted, d, List.mem_append_left _ made, since⟩

theorem Tells.onSlot {timeToLive : Span} {past : List (LogCall × LogReply)}
    {slot : Option ListenerSlot} {c : LogCall} (tells : Tells c.key past slot) :
    Tells c.key (past ++ [(c, (c.onSlot timeToLive slot).1)]) (c.onSlot timeToLive slot).2 := by
  obtain ⟨now, request⟩ := c
  match slot with
  | none =>
      obtain ⟨new, free⟩ := tells
      cases request <;>
        simp [Tells, LogCall.onSlot, LogCall.hold, LogCall.record?, firstRecord_append,
          firstRecord_singleton, held_append, new, free]
  | some (.handled e) =>
      have known : firstRecord _ _ = some e := tells
      cases request <;> simp [Tells, LogCall.onSlot, firstRecord_append, known]
  | some (.inProgress claimedAt) =>
      obtain ⟨new, granted, d, made, since⟩ := tells
      have before : ∀ x : LogCall × LogReply, ∃ d ∈ past ++ [x], d.1.now = claimedAt :=
        fun x => ⟨d, List.mem_append_left _ made, since⟩
      cases request with
      | claim key =>
          simp only [LogCall.onSlot]
          split
          · refine ⟨?_, ?_, _, List.mem_append_right _ (List.mem_singleton_self _), rfl⟩
            · simp [firstRecord_append, firstRecord_singleton, LogCall.record?, new]
            · simp [held_append, LogCall.hold]
          · refine ⟨?_, ?_, before _⟩
            · simp [firstRecord_append, firstRecord_singleton, LogCall.record?, new]
            · simp [held_append, LogCall.hold, granted]
      | record e =>
          simp [Tells, LogCall.onSlot, LogCall.record?, firstRecord_append,
            firstRecord_singleton, new]
      | release key =>
          simp [Tells, LogCall.onSlot, LogCall.hold, LogCall.record?, firstRecord_append,
            firstRecord_singleton, held_append, new]
      | has key =>
          refine ⟨?_, ?_, before _⟩
          · simp [firstRecord_append, firstRecord_singleton, LogCall.record?, new]
          · simp [held_append, LogCall.hold, granted]

theorem Tells.ask {log : ListenerLog} {key : ListenerKey} {past : List (LogCall × LogReply)}
    (tells : Tells key past (log.slots.find? key)) (c : LogCall) :
    Tells key (past ++ [(c, (log.ask c).1)]) ((log.ask c).2.slots.find? key) := by
  by_cases own : key = c.key
  · subst own
    obtain ⟨reply, slot⟩ := log.ask_eq_onSlot c
    rw [reply, slot]
    exact tells.onSlot
  · rw [log.find?_ask_of_ne c own]
    exact tells.of_ne own _

theorem tells_after (timeToLive : Span) (calls : List LogCall) (key : ListenerKey) :
    Tells key ((begin timeToLive).replies calls) (((begin timeToLive).after calls).slots.find? key) := by
  induction calls using List.reverseRecOn with
  | nil => exact ⟨rfl, rfl⟩
  | append_singleton calls c ih =>
      rw [replies_append, after_append]
      exact ih.ask c

/-! The records -/

/-- Each record stands under its own key. -/
def Keyed (log : ListenerLog) : Prop :=
  ∀ key e, log.slots.find? key = some (.handled e) → keyOf e = key

theorem map_keyOf_handled {log : ListenerLog} (keyed : log.Keyed) :
    log.handled.map keyOf =
      (log.slots.toList.filter fun s => (record? s.2).isSome).map (·.1) := by
  rw [handled, Entries.values, List.filterMap_map, List.map_filterMap, ← List.filterMap_eq_filter,
    List.map_filterMap]
  refine List.filterMap_congr fun s mem => ?_
  have found : log.slots.find? s.1 = some s.2 := Entries.lookup_of_mem log.slots.nodup_keys mem
  obtain ⟨key, slot⟩ := s
  cases slot with
  | inProgress _ => rfl
  | handled e => simp [record?, keyed key e found]

theorem nodup_handled {log : ListenerLog} (keyed : log.Keyed) : (log.handled.map keyOf).Nodup := by
  rw [map_keyOf_handled keyed]
  exact log.slots.nodup_keys.sublist (List.filter_sublist.map _)

theorem mem_handled_iff {log : ListenerLog} (keyed : log.Keyed) {e : HandledEvent} :
    e ∈ log.handled ↔ log.slots.find? (keyOf e) = some (.handled e) := by
  rw [handled, Entries.values, List.filterMap_map, List.mem_filterMap]
  constructor
  · rintro ⟨s, mem, shown⟩
    have found : log.slots.find? s.1 = some s.2 := Entries.lookup_of_mem log.slots.nodup_keys mem
    obtain ⟨key, slot⟩ := s
    cases slot with
    | inProgress _ => cases shown
    | handled h =>
        cases shown
        rw [keyed key e found]
        exact found
  · intro found
    obtain ⟨before, later, split, _⟩ := List.lookup_eq_some_iff.mp found
    exact ⟨(keyOf e, .handled e), by simp [split], rfl⟩

theorem keyOf_of_firstRecord {key : ListenerKey} {calls : List LogCall} {e : HandledEvent}
    (first : firstRecord key calls = some e) : keyOf e = key := by
  obtain ⟨c, _, made⟩ := List.exists_of_findSome?_eq_some first
  obtain ⟨now, request⟩ := c
  split at made
  · rename_i own
    cases request with
    | record h =>
        cases made
        exact own
    | claim _ | release _ | has _ => cases made
  · cases made

/-- The slot of a key holds its first record, if there is one. -/
theorem firstRecord_eq (timeToLive : Span) (calls : List LogCall) (key : ListenerKey) :
    firstRecord key calls =
      (((begin timeToLive).after calls).slots.find? key).bind record? := by
  have tells := tells_after timeToLive calls key
  generalize ((begin timeToLive).after calls).slots.find? key = slot at tells
  rw [← map_fst_replies (begin timeToLive) calls]
  match slot with
  | none | some (.inProgress _) => exact tells.1
  | some (.handled e) => exact tells

theorem handled_after_iff (timeToLive : Span) (calls : List LogCall) (key : ListenerKey)
    (e : HandledEvent) :
    ((begin timeToLive).after calls).slots.find? key = some (.handled e) ↔
      firstRecord key calls = some e := by
  rw [firstRecord_eq timeToLive]
  match ((begin timeToLive).after calls).slots.find? key with
  | none | some (.inProgress _) | some (.handled h) => simp [record?]

theorem keyed_after (timeToLive : Span) (calls : List LogCall) :
    ((begin timeToLive).after calls).Keyed := by
  intro key e slot
  exact keyOf_of_firstRecord ((handled_after_iff timeToLive calls key e).mp slot)

/-- The keys under which a record was made. -/
def recordedKeys (calls : List LogCall) : List ListenerKey :=
  calls.filterMap fun c => c.record?.map keyOf

theorem mem_recordedKeys_iff {calls : List LogCall} {key : ListenerKey} :
    key ∈ recordedKeys calls ↔ ∃ e, firstRecord key calls = some e := by
  rw [← Option.isSome_iff_exists, firstRecord, List.findSome?_isSome_iff, recordedKeys,
    List.mem_filterMap]
  refine exists_congr fun c => and_congr_right fun _ => ?_
  obtain ⟨now, request⟩ := c
  cases request with
  | record e =>
      by_cases own : keyOf e = key <;> simp [LogCall.record?, LogCall.key, own]
  | claim _ | release _ | has _ => simp [LogCall.record?]

theorem timeToLive_after (log : ListenerLog) (calls : List LogCall) :
    (log.after calls).timeToLive = log.timeToLive := by
  induction calls generalizing log with
  | nil => rfl
  | cons c calls ih => exact (ih _).trans (log.timeToLive_ask c)

/-! The replies, by the history -/

section Replies

variable (timeToLive : Span) (calls : List LogCall) (now : Instant) {key : ListenerKey}

theorem reply_after (c : LogCall) :
    (((begin timeToLive).after calls).ask c).1 =
      (c.onSlot timeToLive (((begin timeToLive).after calls).slots.find? c.key)).1 := by
  rw [(ask_eq_onSlot ..).1, timeToLive_after]
  rfl

theorem record_reply (e : HandledEvent) :
    (((begin timeToLive).after calls).ask ⟨now, .record e⟩).1 =
      .recorded (firstRecord (keyOf e) calls).isNone := by
  rw [reply_after, firstRecord_eq timeToLive]
  simp only [LogCall.key, LogCall.onSlot]
  obtain _ | ⟨_⟩ | ⟨_⟩ := ((begin timeToLive).after calls).slots.find? (keyOf e) <;> rfl

theorem has_reply (key : ListenerKey) :
    (((begin timeToLive).after calls).ask ⟨now, .has key⟩).1 =
      .has (firstRecord key calls).isSome := by
  rw [reply_after, firstRecord_eq timeToLive]
  simp only [LogCall.key, LogCall.onSlot]
  obtain _ | ⟨_⟩ | ⟨_⟩ := ((begin timeToLive).after calls).slots.find? key <;> rfl

/-- As long as no claim runs out, a claim is refused if the key is handled or claimed. -/
theorem claim_reply_of_lasting (lasting : Lasting timeToLive (calls ++ [⟨now, .claim key⟩])) :
    (((begin timeToLive).after calls).ask ⟨now, .claim key⟩).1 =
      .claim (if (firstRecord key calls).isSome then .alreadyHandled
        else if held key ((begin timeToLive).replies calls) then .inProgress
        else .claimed) := by
  have tells := tells_after timeToLive calls key
  rw [reply_after, firstRecord_eq timeToLive]
  simp only [LogCall.key, LogCall.onSlot]
  generalize ((begin timeToLive).after calls).slots.find? key = slot at tells
  obtain _ | ⟨claimedAt⟩ | ⟨e⟩ := slot
  case none => simp [tells.2]
  case some.handled => rfl
  case some.inProgress =>
      obtain ⟨_, granted, c, made, rfl⟩ := tells
      have earlier : c.1 ∈ calls ++ [⟨now, .claim key⟩] := by
        rw [← map_fst_replies (begin timeToLive) calls]
        exact List.mem_append_left _ (List.mem_map_of_mem made)
      have running := lasting _ earlier ⟨now, .claim key⟩ (by simp)
      simp only [if_neg (Nat.not_le_of_lt running), granted]
      rfl

theorem claim_reply_of_recorded {e : HandledEvent} (recorded : firstRecord key calls = some e) :
    ((begin timeToLive).after calls).ask ⟨now, .claim key⟩ =
      (.claim .alreadyHandled, (begin timeToLive).after calls) := by
  have slot := (handled_after_iff timeToLive calls key e).mpr recorded
  simp only [ask, claim_of_handled now slot]

theorem release_reply_of_recorded {e : HandledEvent} (recorded : firstRecord key calls = some e) :
    ((begin timeToLive).after calls).ask ⟨now, .release key⟩ =
      (.released, (begin timeToLive).after calls) := by
  have slot := (handled_after_iff timeToLive calls key e).mpr recorded
  simp only [ask, release, slot]

/-- A lease of no time has always run out. -/
theorem claim_reply_of_unleased (unleased : timeToLive.nanoseconds = 0) :
    (((begin timeToLive).after calls).ask ⟨now, .claim key⟩).1 ≠ .claim .inProgress := by
  rw [reply_after]
  simp only [LogCall.key, LogCall.onSlot]
  obtain _ | ⟨claimedAt⟩ | ⟨e⟩ := ((begin timeToLive).after calls).slots.find? key
  case none | some.handled => simp
  case some.inProgress => simp [unleased]

end Replies

theorem hold_of_ne_release {key : ListenerKey} {c : LogCall × LogReply}
    (kept : c.1.request ≠ .release key) : LogCall.hold key true c = true := by
  obtain ⟨⟨now, request⟩, reply⟩ := c
  cases request with
  | release other =>
      have ne : other ≠ key := fun same => kept (by rw [same])
      simp [LogCall.hold, LogCall.key, ne]
  | claim _ | record _ | has _ =>
      unfold LogCall.hold
      split
      · rfl
      · split <;> simp_all

/-- A claim that was granted is held until the key is released. -/
theorem held_of_granted {key : ListenerKey} {past : List (LogCall × LogReply)}
    (kept : ∀ c ∈ past, c.1.request ≠ .release key) :
    past.foldl (LogCall.hold key) true = true := by
  induction past with
  | nil => rfl
  | cons c past ih =>
      rw [List.foldl_cons, hold_of_ne_release (kept c List.mem_cons_self)]
      exact ih fun d mem => kept d (List.mem_cons_of_mem _ mem)

end ListenerLog

open ListenerLog

/-- What is true of a log that has begun empty after these calls, and of its replies to others. -/
structure Lawful (timeToLive : Span) (calls : List LogCall) : Prop where
  /-- The first record of a key stays as it is, whatever is called for afterwards. -/
  kept : ∀ key e more, firstRecord key calls = some e →
    ((begin timeToLive).after (calls ++ more)).slots.find? key = some (.handled e)
  recorded : ∀ now e, (((begin timeToLive).after calls).ask ⟨now, .record e⟩).1 =
    .recorded (firstRecord (keyOf e) calls).isNone
  alreadyHandled : ∀ now key e, firstRecord key calls = some e →
    ((begin timeToLive).after calls).ask ⟨now, .claim key⟩ =
      (.claim .alreadyHandled, (begin timeToLive).after calls)
  notReleased : ∀ now key e, firstRecord key calls = some e →
    ((begin timeToLive).after calls).ask ⟨now, .release key⟩ =
      (.released, (begin timeToLive).after calls)
  has : ∀ now key, (((begin timeToLive).after calls).ask ⟨now, .has key⟩).1 =
    .has (firstRecord key calls).isSome
  mem_handled : ∀ e, e ∈ ((begin timeToLive).after calls).handled ↔
    firstRecord (keyOf e) calls = some e
  nodup_handled : (((begin timeToLive).after calls).handled.map keyOf).Nodup
  size : ((begin timeToLive).after calls).size = (recordedKeys calls).dedup.length
  /-- Calls of other keys leave the slot and the replies of a key alone. -/
  apart : ∀ key,
    ((begin timeToLive).replies calls).filter (·.1.key = key) =
        (begin timeToLive).replies (calls.filter (·.key = key)) ∧
      ((begin timeToLive).after calls).slots.find? key =
        ((begin timeToLive).after (calls.filter (·.key = key))).slots.find? key
  claimed_iff : ∀ now key, Lasting timeToLive (calls ++ [⟨now, .claim key⟩]) →
    ((((begin timeToLive).after calls).ask ⟨now, .claim key⟩).1 = .claim .claimed ↔
      firstRecord key calls = none ∧ held key ((begin timeToLive).replies calls) = false)
  /-- Between a granted claim and the next record or release of the key every claim is refused. -/
  exclusive : ∀ before granted between now key, calls = before ++ granted :: between →
    granted.request = .claim key →
    (((begin timeToLive).after before).ask granted).1 = .claim .claimed →
    (∀ c ∈ between, c.key = key → c.record? = none ∧ c.request ≠ .release key) →
    Lasting timeToLive (calls ++ [⟨now, .claim key⟩]) →
    (((begin timeToLive).after calls).ask ⟨now, .claim key⟩).1 = .claim .inProgress
  neverRefused : timeToLive.nanoseconds = 0 → ∀ now key,
    (((begin timeToLive).after calls).ask ⟨now, .claim key⟩).1 ≠ .claim .inProgress

theorem firstRecord_eq_none_of_claimed {timeToLive : Span} {calls : List LogCall} {now : Instant}
    {key : ListenerKey}
    (claimed : (((begin timeToLive).after calls).ask ⟨now, .claim key⟩).1 = .claim .claimed) :
    firstRecord key calls = none := by
  cases recorded : firstRecord key calls with
  | none => rfl
  | some e =>
      rw [claim_reply_of_recorded timeToLive calls now recorded] at claimed
      cases claimed

theorem exclusive_of_lasting {timeToLive : Span} {before between : List LogCall}
    {earlier now : Instant} {key : ListenerKey}
    (claimed : (((begin timeToLive).after before).ask ⟨earlier, .claim key⟩).1 = .claim .claimed)
    (unsettled : ∀ c ∈ between, c.key = key → c.record? = none ∧ c.request ≠ .release key)
    (lasting : Lasting timeToLive
      (before ++ ⟨earlier, .claim key⟩ :: between ++ [⟨now, .claim key⟩])) :
    (((begin timeToLive).after (before ++ ⟨earlier, .claim key⟩ :: between)).ask
      ⟨now, .claim key⟩).1 = .claim .inProgress := by
  have new : firstRecord key (before ++ ⟨earlier, .claim key⟩ :: between) = none := by
    rw [firstRecord_append, firstRecord_eq_none_of_claimed claimed, Option.none_or, firstRecord,
      List.findSome?_eq_none_iff]
    intro c mem
    rcases List.mem_cons.mp mem with rfl | mem
    · simp [LogCall.record?]
    · split
      · rename_i own
        exact (unsettled c mem own).1
      · rfl
  have granted : held key
      ((begin timeToLive).replies (before ++ ⟨earlier, .claim key⟩ :: between)) = true := by
    rw [replies_append, replies, claimed, held, List.foldl_append, List.foldl_cons]
    have taken : LogCall.hold key (((begin timeToLive).replies before).foldl (LogCall.hold key) false)
        (⟨earlier, .claim key⟩, .claim .claimed) = true := by
      simp [LogCall.hold, LogCall.key]
    rw [taken]
    refine held_of_granted fun c mem => ?_
    have among : c.1 ∈ between := by
      rw [← map_fst_replies _ between]
      exact List.mem_map_of_mem mem
    intro releases
    exact (unsettled c.1 among (by simp [LogCall.key, releases])).2 releases
  rw [claim_reply_of_lasting timeToLive _ now lasting, new, granted]
  rfl

theorem log_lawful (timeToLive : Span) (calls : List LogCall) : Lawful timeToLive calls where
  kept key e more first := by
    rw [handled_after_iff, firstRecord_append, first]
    rfl
  recorded := record_reply timeToLive calls
  alreadyHandled now key e := claim_reply_of_recorded timeToLive calls now
  notReleased now key e := release_reply_of_recorded timeToLive calls now
  has := has_reply timeToLive calls
  mem_handled e := by
    rw [mem_handled_iff (keyed_after timeToLive calls), handled_after_iff]
  nodup_handled := nodup_handled (keyed_after timeToLive calls)
  size := by
    have keyed := keyed_after timeToLive calls
    rw [ListenerLog.size, ← List.length_map keyOf]
    refine List.Perm.length_eq ((List.perm_ext_iff_of_nodup (nodup_handled keyed)
      (List.nodup_dedup _)).mpr fun key => ?_)
    rw [List.mem_dedup, mem_recordedKeys_iff, List.mem_map]
    constructor
    · rintro ⟨e, mem, rfl⟩
      exact ⟨e, (handled_after_iff ..).mp ((mem_handled_iff keyed).mp mem)⟩
    · rintro ⟨e, first⟩
      have own := keyOf_of_firstRecord first
      refine ⟨e, (mem_handled_iff keyed).mpr ?_, own⟩
      rw [own]
      exact (handled_after_iff ..).mpr first
  apart key := by
    have same : SameAt key (begin timeToLive) (begin timeToLive) := ⟨rfl, rfl⟩
    obtain ⟨replies, _, slot⟩ := same.replies calls
    exact ⟨replies, slot⟩
  claimed_iff now key lasting := by
    rw [claim_reply_of_lasting timeToLive calls now lasting]
    cases firstRecord key calls <;> cases held key ((begin timeToLive).replies calls) <;> simp
  exclusive := by
    rintro before ⟨earlier, _⟩ between now key rfl rfl claimed unsettled lasting
    exact exclusive_of_lasting claimed unsettled lasting
  neverRefused unleased now key := claim_reply_of_unleased timeToLive calls now unleased

end SmsTracking
