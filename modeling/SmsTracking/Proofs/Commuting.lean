import Mathlib.Data.Set.Basic
import SmsTracking.Proofs.Convergence

/-!
Deliveries that have nothing to do with each other. A delivery reads and writes at two sites at
most: the entry of its event in the log, and the message that its payload names. Two deliveries
without a site in common can change places, hence a whole sequence can be put in any order in which
those that share a site come one after the other as before. Main statement: every delivery ends in
the same way, and leaves the same messages and records (`sequence_commutes`).
-/

namespace SmsTracking

open Listener

/-- Where a delivery can leave something behind. -/
inductive Site where
  | entry (key : ListenerKey)
  | message (id : Uuid)

namespace Envelope

def sites (e : Envelope) : Set Site
  | .entry key => key = e.key
  | .message id => ∃ p, e.payload? = some p ∧ p.messageId = id

theorem entry_mem_sites (e : Envelope) : .entry e.key ∈ e.sites := rfl

theorem message_mem_sites {e : Envelope} {p : Payload} (carried : e.payload? = some p) :
    .message p.messageId ∈ e.sites :=
  ⟨p, carried, rfl⟩

/-- The events are one and the same, or they are about one message. -/
def Dependent (d e : Envelope) : Prop :=
  (d.id = e.id ∧ d.type = e.type) ∨
    ∃ p q, d.payload? = some p ∧ e.payload? = some q ∧ p.messageId = q.messageId

theorem sites_apart {d e : Envelope} (independent : ¬ d.Dependent e) :
    ∀ site ∈ d.sites, site ∉ e.sites := by
  intro site ours theirs
  apply independent
  cases site with
  | entry key => exact .inl (key_eq_iff.mp (ours.symm.trans theirs))
  | message id =>
      obtain ⟨p, carried, names⟩ := ours
      obtain ⟨q, carried', names'⟩ := theirs
      exact .inr ⟨p, q, carried, carried', names.trans names'.symm⟩

end Envelope

/-! What the log notes about a key, but for the record itself -/

namespace ListenerLog

def claimedAt? : ListenerSlot → Option Instant
  | .inProgress claimedAt => some claimedAt
  | .handled _ => none

def mark (log : ListenerLog) (key : ListenerKey) : Option (Option Instant) :=
  (log.slots.find? key).map claimedAt?

variable {log : ListenerLog} {key : ListenerKey}

theorem mark_eq_none_iff : log.mark key = none ↔ log.slots.find? key = none :=
  Option.map_eq_none_iff

theorem mark_eq_claimed_iff {claimedAt : Instant} :
    log.mark key = some (some claimedAt) ↔
      log.slots.find? key = some (.inProgress claimedAt) := by
  unfold mark
  cases log.slots.find? key with
  | none => simp
  | some slot => cases slot <;> simp [claimedAt?]

theorem mark_eq_handled_iff :
    log.mark key = some none ↔ ∃ h, log.slots.find? key = some (.handled h) := by
  unfold mark
  cases log.slots.find? key with
  | none => simp
  | some slot => cases slot <;> simp [claimedAt?]

theorem has_eq_of_mark {other : ListenerLog} (alike : log.mark key = other.mark key) :
    log.has key = other.has key := by
  rw [Bool.eq_iff_iff, has_iff, has_iff, ← mark_eq_handled_iff, ← mark_eq_handled_iff, alike]

@[simp]
theorem mark_settle (log : ListenerLog) (h : HandledEvent) (key : ListenerKey) :
    (log.settle h).mark key = if key = keyOf h then some none else log.mark key := by
  unfold mark
  rw [find?_settle]
  split <;> rfl

@[simp]
theorem mark_clear (log : ListenerLog) (own key : ListenerKey) :
    (log.clear own).mark key = if key = own then none else log.mark key := by
  unfold mark
  rw [find?_clear]
  split <;> rfl

@[simp]
theorem mark_take (log : ListenerLog) (own key : ListenerKey) (now : Instant) :
    (log.take own now).mark key = if key = own then some (some now) else log.mark key := by
  unfold mark
  rw [find?_take]
  split <;> rfl

end ListenerLog

/-- The worlds hold the same at these sites, and go by the same time. -/
structure World.AlikeAt (S : Set Site) (w v : World) : Prop where
  uptime : w.uptime = v.uptime
  timeToLive : w.log.timeToLive = v.log.timeToLive
  entry : ∀ key, .entry key ∈ S → w.log.mark key = v.log.mark key
  message : ∀ id, .message id ∈ S → w.messages.find? id = v.messages.find? id

namespace World.AlikeAt

variable {S T : Set Site} {u v w : World}

theorem refl (S : Set Site) (w : World) : w.AlikeAt S w :=
  ⟨rfl, rfl, fun _ _ => rfl, fun _ _ => rfl⟩

theorem symm (alike : w.AlikeAt S v) : v.AlikeAt S w where
  uptime := alike.uptime.symm
  timeToLive := alike.timeToLive.symm
  entry key mem := (alike.entry key mem).symm
  message id mem := (alike.message id mem).symm

theorem trans (first : u.AlikeAt S v) (second : v.AlikeAt S w) : u.AlikeAt S w where
  uptime := first.uptime.trans second.uptime
  timeToLive := first.timeToLive.trans second.timeToLive
  entry key mem := (first.entry key mem).trans (second.entry key mem)
  message id mem := (first.message id mem).trans (second.message id mem)

theorem mono (alike : w.AlikeAt T v) (subset : S ⊆ T) : w.AlikeAt S v where
  uptime := alike.uptime
  timeToLive := alike.timeToLive
  entry key mem := alike.entry key (subset mem)
  message id mem := alike.message id (subset mem)

theorem union (left : w.AlikeAt S v) (right : w.AlikeAt T v) : w.AlikeAt (S ∪ T) v where
  uptime := left.uptime
  timeToLive := left.timeToLive
  entry key mem := mem.elim (left.entry key) (right.entry key)
  message id mem := mem.elim (left.message id) (right.message id)

theorem expired (alike : w.AlikeAt S v) (claimedAt : Instant) :
    w.log.expired claimedAt w.uptime = v.log.expired claimedAt v.uptime := by
  rw [ListenerLog.expired, alike.timeToLive, alike.uptime]
  rfl

theorem free {e : Envelope} (alike : w.AlikeAt S v) (reads : e.sites ⊆ S)
    (free : w.log.Free e.key w.uptime) : v.log.Free e.key v.uptime := by
  have same := alike.entry e.key (reads e.entry_mem_sites)
  rcases free with vacant | ⟨claimedAt, slot, lapsed⟩
  · left
    rw [← ListenerLog.mark_eq_none_iff] at vacant ⊢
    rw [← same, vacant]
  · right
    refine ⟨claimedAt, ?_, (alike.expired claimedAt).symm.trans lapsed⟩
    rw [← ListenerLog.mark_eq_claimed_iff] at slot ⊢
    rw [← same, slot]

theorem take (alike : w.AlikeAt S v) (key : ListenerKey) {lines lines' : List LogLine}
    {readings readings' : Nat} :
    { w with log := w.log.take key w.uptime, lines, readings }.AlikeAt S
      { v with log := v.log.take key v.uptime, lines := lines', readings := readings' } where
  uptime := alike.uptime
  timeToLive := alike.timeToLive
  entry other mem := by simp only [ListenerLog.mark_take, alike.entry other mem, alike.uptime]
  message := alike.message

theorem clear (alike : w.AlikeAt S v) (key : ListenerKey) {lines lines' : List LogLine}
    {readings readings' : Nat} :
    { w with log := w.log.clear key, lines, readings }.AlikeAt S
      { v with log := v.log.clear key, lines := lines', readings := readings' } where
  uptime := alike.uptime
  timeToLive := alike.timeToLive
  entry other mem := by simp only [ListenerLog.mark_clear, alike.entry other mem]
  message := alike.message

theorem settle (alike : w.AlikeAt S v) (m : Message) {h h' : HandledEvent}
    (same : ListenerLog.keyOf h = ListenerLog.keyOf h') {lines lines' : List LogLine}
    {readings readings' draws draws' : Nat} :
    { w with
      messages := w.messages.put m, log := w.log.settle h, lines, readings, draws }.AlikeAt S
      { v with
        messages := v.messages.put m, log := v.log.settle h', lines := lines'
        readings := readings', draws := draws' } where
  uptime := alike.uptime
  timeToLive := alike.timeToLive
  entry other mem := by simp only [ListenerLog.mark_settle, alike.entry other mem, same]
  message id mem := by simp only [MessageStore.find?_put, alike.message id mem]

end World.AlikeAt

theorem Deed.effect_congr {s s' : MessageStore} (now : Timestamp) {d : Deed}
    (same : s.find? d.messageId = s'.find? d.messageId) : d.effect s now = d.effect s' now := by
  cases d with
  | create direction d => simp only [effect, show s.find? d.id = s'.find? d.id from same]
  | move id step => simp only [effect, show s.find? id = s'.find? id from same]

namespace Listener

variable {S : Set Site} {v w : World} {e : Envelope}

theorem trial_congr (now : Timestamp) {k : EventKind} (kind : EventKind.ofName? e.type = some k)
    (alike : w.AlikeAt S v) (reads : e.sites ⊆ S) :
    trial w.messages now k e = trial v.messages now k e := by
  unfold trial
  cases decoded : e.payloadAs k with
  | error reason => rfl
  | ok p =>
      have carried := Envelope.payload?_of_payloadAs kind decoded
      apply Deed.effect_congr
      rw [Payload.deed_messageId]
      exact alike.message p.messageId (reads (Envelope.message_mem_sites carried))

/-- No delivery moves the time, nor how long a claim lasts. -/
theorem Ended.timeToLive {now : Timestamp} {o : Outcome (Except AppError Unit)}
    (ended : Ended now e w v o) : v.log.timeToLive = w.log.timeToLive := by
  cases ended with
  | unknown _ _ log | repeated _ _ log | refused _ _ log => rw [log]
  | taken _ _ _ _ _ _ log => rw [log, ListenerLog.settle]
  | failed _ _ _ _ log => rw [log, ListenerLog.clear]
  | brokenOff _ _ _ _ log => rw [log, ListenerLog.take]

end Listener

theorem Program.uptime_run {α : Type} (a : Ambient) (p : Program α) (w : World) :
    (p.run a w).2.uptime = w.uptime := by
  induction p generalizing w with
  | done | abort => rfl
  | ask r next ih =>
      rw [run, ih]
      exact w.answer_uptime a r

namespace Listener

variable (a : Ambient) (retries : Nat) {S : Set Site} {v w : World} {d e : Envelope}

/-- A delivery changes nothing at the sites that it has nothing to do with. -/
theorem alikeAt_of_apart (w : World) (apart : ∀ site ∈ e.sites, site ∉ S) :
    w.AlikeAt S ((handleEvent retries e).run a w).2 := by
  have ended := ended_handleEvent a retries e w
  refine ⟨(Program.uptime_run a _ w).symm, ended.timeToLive.symm, ?_, ?_⟩
  · intro key mem
    have other : key ≠ e.key := fun own => apart (.entry key) own mem
    rw [ListenerLog.mark, ListenerLog.mark, ended.slot_of_ne other]
  · intro id mem
    exact (ended.find?_of_ne fun p carried names => 
      apart _ (Envelope.message_mem_sites carried) (names ▸ mem)).symm

/-- A delivery ends by what it finds at its own sites, and leaves the same where it has found the
same. -/
theorem alikeAt_handleEvent {now : Timestamp} (steady : ∀ n, a.clock n = now)
    (alike : w.AlikeAt S v) (reads : e.sites ⊆ S) :
    ((handleEvent retries e).run a w).1 = ((handleEvent retries e).run a v).1 ∧
      ((handleEvent retries e).run a w).2.AlikeAt S ((handleEvent retries e).run a v).2 := by
  unfold handleEvent
  cases kind : EventKind.ofName? e.type with
  | none => exact ⟨rfl, alike⟩
  | some k =>
      have own : keyOf k e = e.key := keyOf_of_ofName? kind
      have entry := alike.entry e.key (reads e.entry_mem_sites)
      have tried := trial_congr now kind alike reads
      rcases w.log.slot_cases e.key w.uptime with ⟨h, slot⟩ | ⟨claimedAt, slot, running⟩ | free
      · obtain ⟨h', slot'⟩ := ListenerLog.mark_eq_handled_iff.mp
          (entry.symm.trans (ListenerLog.mark_eq_handled_iff.mpr ⟨h, slot⟩))
        rw [← own] at slot slot'
        simp only [run_handle_of_handled a retries slot, run_handle_of_handled a retries slot']
        exact ⟨trivial, alike⟩
      · have slot' := ListenerLog.mark_eq_claimed_iff.mp
          (entry.symm.trans (ListenerLog.mark_eq_claimed_iff.mpr slot))
        have running' := (alike.expired claimedAt).symm.trans running
        rw [← own] at slot slot'
        simp only [run_handle_of_running a retries slot running,
          run_handle_of_running a retries slot' running']
        exact ⟨trivial, alike⟩
      · have free' := alike.free reads free
        rw [← own] at free free'
        cases outcome : trial w.messages now k e with
        | aborted text =>
            obtain ⟨lines, readings, ran⟩ :=
              run_handle_of_aborted a retries free (steady w.readings ▸ outcome)
            obtain ⟨lines', readings', ran'⟩ :=
              run_handle_of_aborted a retries free' (steady v.readings ▸ tried ▸ outcome)
            simp only [ran, ran']
            exact ⟨trivial, alike.take (keyOf k e)⟩
        | done answer =>
            cases answer with
            | error reason =>
                obtain ⟨lines, readings, ran⟩ :=
                  run_handle_of_error a retries free (steady w.readings ▸ outcome)
                obtain ⟨lines', readings', ran'⟩ :=
                  run_handle_of_error a retries free' (steady v.readings ▸ tried ▸ outcome)
                simp only [ran, ran']
                exact ⟨trivial, alike.clear (keyOf k e)⟩
            | ok m =>
                obtain ⟨h, lines, readings, about, ran⟩ :=
                  run_handle_of_ok a retries free (steady w.readings ▸ outcome)
                obtain ⟨h', lines', readings', about', ran'⟩ :=
                  run_handle_of_ok a retries free' (steady v.readings ▸ tried ▸ outcome)
                simp only [ran, ran']
                exact ⟨trivial, alike.settle m (about.keyOf.trans about'.keyOf.symm)⟩

/-- Two deliveries without a site in common can change places. -/
theorem alike_of_apart {now : Timestamp} (steady : ∀ n, a.clock n = now) (w : World)
    (apart : ∀ site ∈ d.sites, site ∉ e.sites) :
    let first := (handleEvent retries d).run a w
    let second := (handleEvent retries e).run a first.2
    let first' := (handleEvent retries e).run a w
    let second' := (handleEvent retries d).run a first'.2
    first.1 = second'.1 ∧ second.1 = first'.1 ∧ second.2.AlikeAt Set.univ second'.2 := by
  intro first second first' second'
  have apart' : ∀ site ∈ e.sites, site ∉ d.sites := fun site mem other => apart site other mem
  have keptE : w.AlikeAt e.sites first.2 := alikeAt_of_apart a retries w apart
  have keptD : w.AlikeAt d.sites first'.2 := alikeAt_of_apart a retries w apart'
  obtain ⟨sameE, doneE⟩ := alikeAt_handleEvent a retries steady keptE subset_rfl
  obtain ⟨sameD, doneD⟩ := alikeAt_handleEvent a retries steady keptD subset_rfl
  refine ⟨sameD, sameE.symm, ?_⟩
  have atE : second.2.AlikeAt e.sites second'.2 :=
    doneE.symm.trans (alikeAt_of_apart a retries first'.2 apart)
  have atD : second.2.AlikeAt d.sites second'.2 :=
    (alikeAt_of_apart a retries first.2 apart').symm.trans doneD
  let others : Set Site := fun site => site ∉ d.sites ∧ site ∉ e.sites
  have elsewhere : second.2.AlikeAt others second'.2 := by
    have outD : ∀ site ∈ d.sites, site ∉ others := fun site mem other => other.1 mem
    have outE : ∀ site ∈ e.sites, site ∉ others := fun site mem other => other.2 mem
    have there := (alikeAt_of_apart a retries w outD).trans
      (alikeAt_of_apart a retries first.2 outE)
    have back := (alikeAt_of_apart a retries w outE).trans
      (alikeAt_of_apart a retries first'.2 outD)
    exact there.symm.trans back
  refine ((atD.union atE).union elsewhere).mono ?_
  intro site _
  by_cases ours : site ∈ d.sites ∪ e.sites
  · exact .inl ours
  · exact .inr ⟨fun mem => ours (.inl mem), fun mem => ours (.inr mem)⟩

/-- What deliveries that have numbers come to one after the other: how each of them has ended, and
the world that they leave. -/
def deliverInOrder :
    List (Envelope × Nat) → World → List (Outcome (Except AppError Unit) × Nat) × World
  | [], w => ([], w)
  | (e, number) :: rest, w =>
      let ended := (handleEvent retries e).run a w
      let others := deliverInOrder rest ended.2
      ((ended.1, number) :: others.1, others.2)

/-- Every delivery has ended in the same way, and nothing but who recorded an event can differ in
what they have left. -/
structure SameEnd (r s : List (Outcome (Except AppError Unit) × Nat) × World) : Prop where
  outcomes : r.1.Perm s.1
  alike : r.2.AlikeAt Set.univ s.2

theorem SameEnd.trans {q r s : List (Outcome (Except AppError Unit) × Nat) × World}
    (first : SameEnd q r) (second : SameEnd r s) : SameEnd q s :=
  ⟨first.outcomes.trans second.outcomes, first.alike.trans second.alike⟩

section Order

variable {now : Timestamp} (steady : ∀ n, a.clock n = now)

include steady

theorem sameEnd_of_alike (ys : List (Envelope × Nat)) (alike : w.AlikeAt Set.univ v) :
    SameEnd (deliverInOrder a retries ys w) (deliverInOrder a retries ys v) := by
  induction ys generalizing w v with
  | nil => exact ⟨.nil, alike⟩
  | cons y ys ih =>
      obtain ⟨same, left⟩ :=
        alikeAt_handleEvent (e := y.1) a retries steady alike (Set.subset_univ _)
      obtain ⟨outcomes, last⟩ := ih left
      refine ⟨?_, last⟩
      simp only [deliverInOrder, same]
      exact outcomes.cons _

/-- A delivery can be made before others that have no site in common with it. -/
theorem sameEnd_front {y : Envelope × Nat} {before : List (Envelope × Nat)}
    (apart : ∀ x ∈ before, ∀ site ∈ x.1.sites, site ∉ y.1.sites)
    (rest : List (Envelope × Nat)) (w : World) :
    SameEnd (deliverInOrder a retries (before ++ y :: rest) w)
      (deliverInOrder a retries (y :: (before ++ rest)) w) := by
  induction before generalizing w with
  | nil => exact ⟨.refl _, .refl _ _⟩
  | cons x before ih =>
      have others := ih (fun z mem => apart z (List.mem_cons_of_mem _ mem))
        ((handleEvent retries x.1).run a w).2
      obtain ⟨ours, theirs, alike⟩ :=
        alike_of_apart a retries steady w (apart x List.mem_cons_self)
      have swapped := sameEnd_of_alike a retries steady (before ++ rest) alike
      refine ⟨?_, others.alike.trans swapped.alike⟩
      refine (others.outcomes.cons _).trans ?_
      simp only [deliverInOrder, List.cons_append, ours, theirs]
      exact ((swapped.outcomes.cons _).cons _).trans (.swap ..)

/-- The order of the numbers need only be kept by those that depend on each other. -/
theorem sameEnd_of_kept {xs ys : List (Envelope × Nat)} (perm : ys.Perm xs)
    (ordered : xs.Pairwise fun x y => x.2 < y.2)
    (kept : ys.Pairwise fun x y => x.1.Dependent y.1 → x.2 < y.2) (w : World) :
    SameEnd (deliverInOrder a retries xs w) (deliverInOrder a retries ys w) := by
  induction ys generalizing xs w with
  | nil =>
      rw [perm.nil_eq]
      exact ⟨.refl _, .refl _ _⟩
  | cons y ys ih =>
      obtain ⟨before, rest, rfl⟩ := List.append_of_mem (perm.subset List.mem_cons_self)
      have others : ys.Perm (before ++ rest) := (perm.trans List.perm_middle).cons_inv
      obtain ⟨head, tail⟩ := List.pairwise_cons.mp kept
      have apart : ∀ x ∈ before, ∀ site ∈ x.1.sites, site ∉ y.1.sites := by
        intro x mem site ours theirs
        have earlier : x.2 < y.2 :=
          (List.pairwise_append.mp ordered).2.2 x mem y List.mem_cons_self
        have later := head x (others.symm.subset (List.mem_append_left _ mem))
        refine Envelope.sites_apart ?_ site theirs ours
        intro dependent
        exact Nat.lt_asymm earlier (later dependent)
      have ordered' : (before ++ rest).Pairwise fun x y => x.2 < y.2 :=
        ordered.sublist ((List.sublist_cons_self _ _).append_left _)
      refine (sameEnd_front a retries steady apart rest w).trans ?_
      obtain ⟨outcomes, last⟩ := ih others ordered' tail ((handleEvent retries y.1).run a w).2
      exact ⟨outcomes.cons _, last⟩

end Order

theorem pairwise_zipIdx {α : Type} (xs : List α) (n : Nat) :
    (xs.zipIdx n).Pairwise fun x y => x.2 < y.2 := by
  induction xs generalizing n with
  | nil => exact .nil
  | cons x xs ih =>
      rw [List.zipIdx_cons]
      refine .cons ?_ (ih (n + 1))
      intro y mem
      exact List.le_snd_of_mem_zipIdx mem

/-- The clock stands still. However the deliveries are put in another order in which those that
depend on each other come one after the other as before, each of them ends as before, and the same
messages and records are left. -/
theorem sequence_commutes {now : Timestamp} (steady : ∀ n, a.clock n = now) (w : World)
    (es : List Envelope) (ys : List (Envelope × Nat)) (perm : ys.Perm es.zipIdx)
    (kept : ys.Pairwise fun x y => x.1.Dependent y.1 → x.2 < y.2) :
    let before := deliverInOrder a retries es.zipIdx w
    let after := deliverInOrder a retries ys w
    after.1.Perm before.1 ∧
      (∀ id, after.2.messages.find? id = before.2.messages.find? id) ∧
      ∀ key, after.2.log.has key = before.2.log.has key := by
  intro before after
  have same : SameEnd before after :=
    sameEnd_of_kept a retries steady perm (pairwise_zipIdx es 0) kept w
  refine ⟨same.outcomes.symm, ?_, ?_⟩
  · intro id
    exact (same.alike.message id (Set.mem_univ _)).symm
  · intro key
    exact (ListenerLog.has_eq_of_mark (same.alike.entry key (Set.mem_univ _))).symm

/-- A message is tried that is not there, and then it is created; an event about another message,
which cannot be read, may come before or after both. -/
theorem sequence_commutes_unreadable :
    let a : Ambient := ⟨fun _ => .epoch, fun n => ⟨n⟩⟩
    let sms : Sms := ⟨⟨1⟩, "+1000", "+2000", "hi"⟩
    let tried := Envelope.carrying "1" .epoch (.phoneSending sms)
    let created := Envelope.carrying "2" .epoch (.apiSent sms .epoch)
    let unreadable : Envelope := { created with id := "3", data := .null }
    let es := [tried, created, unreadable]
    let ys := [(unreadable, 2), (tried, 0), (created, 1)]
    let before := deliverInOrder a 3 es.zipIdx {}
    let after := deliverInOrder a 3 ys {}
    (∀ n, a.clock n = .epoch) ∧ ys.Perm es.zipIdx ∧
      (ys.Pairwise fun x y => x.1.Dependent y.1 → x.2 < y.2) ∧ after.1.Perm before.1 ∧
      (∀ id, after.2.messages.find? id = before.2.messages.find? id) ∧
      ∀ key, after.2.log.has key = before.2.log.has key := by
  intro a sms tried created unreadable es ys before after
  have steady : ∀ n, a.clock n = .epoch := fun _ => rfl
  have perm : ys.Perm es.zipIdx := by
    exact (List.perm_append_comm : ([(unreadable, 2)] ++ [(tried, 0), (created, 1)]).Perm _)
  have nothing : unreadable.payload? = none := by decide +kernel
  have apart (e : Envelope) (other : e.id ≠ "3") : ¬ unreadable.Dependent e := by
    rintro (⟨same, _⟩ | ⟨p, _, carried, _⟩)
    · exact other same.symm
    · rw [nothing] at carried
      cases carried
  have kept : ys.Pairwise fun x y => x.1.Dependent y.1 → x.2 < y.2 := by
    simp [ys, apart tried (by decide), apart created (by decide)]
  exact ⟨steady, perm, kept, sequence_commutes a 3 steady {} es ys perm kept⟩

end Listener

end SmsTracking
