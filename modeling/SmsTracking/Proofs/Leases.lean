import SmsTracking.Proofs.Deliveries
import SmsTracking.Proofs.ExactlyOnce

/-!
Claims as leases, told by who was granted a claim at what time. A slot does not tell whose claim is
in it, so that a delivery that comes late gives up whatever claim is there. As long as this does not
happen to a claim that is still running, no two deliveries hold running leases. Main statement: two
running leases at a time have a late release before them that took away a running one
(`deliveries_lease`).
-/

namespace SmsTracking

open Standing

/-- Exchanges in their order, each with the time and the place of the program that asked. -/
abbrev Chronicle := List (Instant × Nat × Exchange)

namespace Turns

variable {α : Type}

/-- What is exchanged in a turn, and when. -/
def news (a : Ambient) (heirs : α → List (Program α)) (t : Turns α) (turn : Turn) : Chronicle :=
  ((t.step a heirs turn).exchanges.drop t.exchanges.length).map (t.world.uptime, ·)

def chronicle (a : Ambient) (heirs : α → List (Program α)) : Turns α → List Turn → Chronicle
  | _, [] => []
  | t, turn :: schedule => t.news a heirs turn ++ (t.step a heirs turn).chronicle a heirs schedule

section Keeps

variable {σ : Type} {a : Ambient} {c : Nat → Conduct σ α} {I : World → Chronicle → Prop}

theorem news_keeps
    (go : ∀ w es place r, I w es → (c place).may (standings c (es.map (·.2)) place) r →
      I (w.answer a r).2 (es ++ [(w.uptime, place, ⟨r, (w.answer a r).1⟩)]))
    (pass : ∀ w es s, I w es → I { w with uptime := w.uptime.after s } es)
    (cancel : ∀ w es, I w es → I { w with cancelled := true } es) {t : Turns α}
    (follow : t.Follow c) {past : Chronicle} (untimed : past.map (·.2) = t.exchanges)
    (inv : I t.world past) (turn : Turn) :
    (past ++ t.news a alone turn).map (·.2) = (t.step a alone turn).exchanges ∧
      I (t.step a alone turn).world (past ++ t.news a alone turn) := by
  cases turn with
  | pass s => simpa [news, step] using ⟨untimed, pass _ _ s inv⟩
  | cancel => simpa [news, step] using ⟨untimed, cancel _ _ inv⟩
  | go place =>
      simp only [news, step]
      rcases go_alone_cases a t place with same | ⟨r, next, asked, gone⟩
      · simpa [same] using ⟨untimed, inv⟩
      · have may := (follow place _ asked).1
        rw [← untimed] at may
        simpa [gone, untimed] using go _ _ place r inv may

/-- What every permitted request preserves, together with the times of the requests, holds after
every schedule. -/
theorem chronicle_keeps
    (go : ∀ w es place r, I w es → (c place).may (standings c (es.map (·.2)) place) r →
      I (w.answer a r).2 (es ++ [(w.uptime, place, ⟨r, (w.answer a r).1⟩)]))
    (pass : ∀ w es s, I w es → I { w with uptime := w.uptime.after s } es)
    (cancel : ∀ w es, I w es → I { w with cancelled := true } es) {t : Turns α}
    (follow : t.Follow c) {past : Chronicle} (untimed : past.map (·.2) = t.exchanges)
    (inv : I t.world past) (schedule : List Turn) :
    I (t.run a alone schedule).world (past ++ t.chronicle a alone schedule) := by
  induction schedule generalizing t past with
  | nil =>
      rw [chronicle, List.append_nil]
      exact inv
  | cons turn schedule ih =>
      obtain ⟨untimed, inv⟩ := news_keeps go pass cancel follow untimed inv turn
      rw [chronicle, ← List.append_assoc]
      exact ih (follow.step a turn) untimed inv

end Keeps

end Turns

/-- Since when the claim is held, after an exchange, by since when it was held before. -/
def Exchange.lease (key : ListenerKey) (now : Instant) (held : Option Instant) :
    Exchange → Option Instant
  | ⟨.claim k, .ok .claimed⟩ => if k = key then some now else held
  | ⟨.record h, _⟩ => if ListenerLog.keyOf h = key then none else held
  | ⟨.release k, _⟩ => if k = key then none else held
  | _ => held

namespace Chronicle

/-- Since when the program at the place holds the claim on the key, if it does: it was granted the
claim, and has neither recorded nor released it. -/
def lease (es : Chronicle) (key : ListenerKey) (place : Nat) : Option Instant :=
  es.foldl (fun held e => if e.2.1 = place then e.2.2.lease key e.1 held else held) none

theorem lease_append (es : Chronicle) (key : ListenerKey) (now : Instant) (place : Nat)
    (x : Exchange) :
    lease (es ++ [(now, place, x)]) key =
      Function.update (lease es key) place (x.lease key now (lease es key place)) := by
  funext other
  by_cases same : other = place
  · subst same
    simp [lease]
  · simp [lease, same, Ne.symm same]

end Chronicle

/-- The lease has not run out. -/
def running (timeToLive : Span) (now : Instant) (lease : Option Instant) : Bool :=
  lease.any fun since => (now.since since).nanoseconds < timeToLive.nanoseconds

/-- A delivery whose lease has run out gives up a claim of which another one holds a running
lease. -/
inductive Usurped (timeToLive : Span) (key : ListenerKey) : Chronicle → Prop
  | intro {before after : Chronicle} {now since : Instant} {place holder : Nat}
      {answer : Except DomainError Unit} (late : Chronicle.lease before key place = some since)
      (runOut : timeToLive.nanoseconds ≤ (now.since since).nanoseconds) (other : holder ≠ place)
      (holds : running timeToLive now (Chronicle.lease before key holder) = true) :
      Usurped timeToLive key (before ++ (now, place, ⟨.release key, answer⟩) :: after)

theorem Usurped.append {timeToLive : Span} {key : ListenerKey} {es : Chronicle}
    (usurped : Usurped timeToLive key es) (more : Chronicle) :
    Usurped timeToLive key (es ++ more) := by
  cases usurped with
  | @intro before after now since place holder answer late runOut other holds =>
      rw [List.append_assoc, List.cons_append]
      exact .intro late runOut other holds

/-- No more than one lease on the key is running, and it is that of the claim in the slot, unless
the event has been recorded. -/
def Exclusive (timeToLive : Span) (now : Instant) (slot : Option ListenerSlot)
    (leases : Nat → Option Instant) : Prop :=
  ∀ i, running timeToLive now (leases i) = true →
    (∀ j, running timeToLive now (leases j) = true → j = i) ∧
      ((∃ since, slot = some (.inProgress since) ∧ leases i = some since) ∨
        ∃ h, slot = some (.handled h))

theorem running_some_iff {timeToLive : Span} {now since : Instant} :
    running timeToLive now (some since) = true ↔
      (now.since since).nanoseconds < timeToLive.nanoseconds := by
  simp [running]

/-- A lease that is running was running before. -/
theorem running_of_after {timeToLive s : Span} {now : Instant} {lease : Option Instant}
    (holds : running timeToLive (now.after s) lease = true) :
    running timeToLive now lease = true := by
  cases lease with
  | none => cases holds
  | some since =>
      rw [running_some_iff] at holds ⊢
      simp only [Instant.since, Instant.after] at holds ⊢
      omega

theorem ListenerLog.find?_record_self (log : ListenerLog) (h : HandledEvent) :
    ∃ h', (log.record h).2.slots.find? (keyOf h) = some (.handled h') := by
  unfold record
  split
  · rename_i h' slot
    exact ⟨h', slot⟩
  · exact ⟨h, by simp⟩

namespace Exclusive

variable {timeToLive : Span} {now : Instant} {slot : Option ListenerSlot}
  {leases : Nat → Option Instant}

theorem pass (exclusive : Exclusive timeToLive now slot leases) (s : Span) :
    Exclusive timeToLive (now.after s) slot leases := by
  intro i holds
  obtain ⟨unique, own⟩ := exclusive i (running_of_after holds)
  exact ⟨fun j holds => unique j (running_of_after holds), own⟩

/-- While the key is free, no lease is running. -/
theorem not_running {log : ListenerLog} {key : ListenerKey}
    (exclusive : Exclusive log.timeToLive now (log.slots.find? key) leases)
    (free : log.Free key now) (i : Nat) : running log.timeToLive now (leases i) = false := by
  by_contra holds
  obtain ⟨_, own⟩ := exclusive i (by simpa using holds)
  rcases free with vacant | ⟨claimedAt, slot, lapsed⟩
  · simp [vacant] at own
  · obtain ⟨since, same, leased⟩ | ⟨h, handled⟩ := own
    · rw [slot] at same
      cases same
      rw [leased, Bool.not_eq_false, running_some_iff] at holds
      simp only [ListenerLog.expired, decide_eq_true_eq] at lapsed
      omega
    · rw [slot] at handled
      cases handled

theorem claim {log : ListenerLog} {key : ListenerKey}
    (exclusive : Exclusive log.timeToLive now (log.slots.find? key) leases) (place : Nat) :
    Exclusive log.timeToLive now ((log.claim key now).2.slots.find? key)
      (Function.update leases place
        (Exchange.lease key now (leases place) ⟨.claim key, .ok (log.claim key now).1⟩)) := by
  rcases log.slot_cases key now with ⟨h, slot⟩ | ⟨claimedAt, slot, active⟩ | free
  · rw [ListenerLog.claim_of_handled now slot]
    simpa [Exchange.lease] using exclusive
  · rw [ListenerLog.claim_of_running slot active]
    simpa [Exchange.lease] using exclusive
  · rw [ListenerLog.claim_of_free free]
    have others := exclusive.not_running free
    intro i holds
    have mine (j : Nat)
        (holds : running log.timeToLive now (Function.update leases place (some now) j) = true) :
        j = place := by
      by_contra ne
      rw [Function.update_of_ne ne, others j] at holds
      cases holds
    simp only [Exchange.lease, if_true] at holds ⊢
    obtain rfl := mine i holds
    exact ⟨mine, .inl ⟨now, by simp, by simp⟩⟩

/-- A lease that is running after one was given up is another one. -/
theorem running_update {place i : Nat}
    (holds : running timeToLive now (Function.update leases place none i) = true) :
    i ≠ place ∧ running timeToLive now (leases i) = true := by
  by_cases same : i = place
  · rw [same, Function.update_self] at holds
    cases holds
  · rw [Function.update_of_ne same] at holds
    exact ⟨same, holds⟩

theorem record (exclusive : Exclusive timeToLive now slot leases) (place : Nat)
    (h : HandledEvent) :
    Exclusive timeToLive now (some (.handled h)) (Function.update leases place none) := by
  intro i holds
  obtain ⟨_, holds⟩ := running_update holds
  exact ⟨fun j holds' => (exclusive i holds).1 j (running_update holds').2, .inr ⟨h, rfl⟩⟩

/-- A lease can be given up if no other one is running. -/
theorem release {place : Nat} (slot : Option ListenerSlot)
    (idle : ∀ i ≠ place, running timeToLive now (leases i) = false) :
    Exclusive timeToLive now slot (Function.update leases place none) := by
  intro i holds
  obtain ⟨other, holds⟩ := running_update holds
  rw [idle i other] at holds
  cases holds

/-- A lease beside which another one is running has run out. -/
theorem runOut (exclusive : Exclusive timeToLive now slot leases) {place holder : Nat}
    {since : Instant} (late : leases place = some since) (other : holder ≠ place)
    (holds : running timeToLive now (leases holder) = true) :
    timeToLive.nanoseconds ≤ (now.since since).nanoseconds := by
  refine Nat.le_of_not_lt fun active => other ((exclusive holder holds).1 place ?_).symm
  rw [late]
  exact running_some_iff.mpr active

end Exclusive

theorem Exchange.lease_of_isQuiet (key : ListenerKey) (now : Instant) (held : Option Instant)
    {r : Request} (answer : r.Answer) (quiet : r.isQuiet = true) :
    lease key now held ⟨r, answer⟩ = held := by
  cases r with
  | store _ | update _ | claim _ | record _ | release _ => cases quiet
  | _ => rfl

namespace Standing.May

variable {own : Option ListenerKey} {key : ListenerKey} {s : Standing} {r : Request}

theorem lease_of_ne (may : May own s r) (other : own ≠ some key) (now : Instant)
    (held : Option Instant) (answer : r.Answer) :
    Exchange.lease key now held ⟨r, answer⟩ = held := by
  cases may with
  | quiet quiet => exact Exchange.lease_of_isQuiet key now held answer quiet
  | @claim k h =>
      have ne : k ≠ key := fun same => other (same ▸ h)
      cases answer with
      | error e => rfl
      | ok answer => cases answer <;> simp [Exchange.lease, ne]
  | store m | update m => rfl
  | @release k h =>
      have ne : k ≠ key := fun same => other (same ▸ h)
      exact if_neg ne
  | @record h about =>
      have ne : ListenerLog.keyOf h ≠ key := fun same => other (same ▸ about)
      exact if_neg ne

/-- The delivery has a lease while it holds the claim. -/
theorem isSome_lease (may : May (some key) s r) (now : Instant) (held : Option Instant)
    (answer : r.Answer) :
    (Exchange.lease key now held ⟨r, answer⟩).isSome = Exchange.hold held.isSome ⟨r, answer⟩ := by
  cases may with
  | quiet quiet =>
      rw [Exchange.lease_of_isQuiet key now held answer quiet,
        Exchange.hold_of_isQuiet _ answer quiet]
  | claim h =>
      cases h
      cases answer with
      | error e => rfl
      | ok answer => cases answer <;> simp [Exchange.lease, Exchange.hold]
  | store m => cases answer <;> rfl
  | update m => cases answer <;> rfl
  | release h =>
      cases h
      simp [Exchange.lease, Exchange.hold]
  | record h =>
      cases h
      simp [Exchange.lease, Exchange.hold]

end Standing.May

/-- What holds of the leases on a key: whoever holds the claim has one, and one at most is running
unless a running one was taken away. -/
structure Tenancy (timeToLive : Span) (events : List Envelope) (key : ListenerKey) (w : World)
    (es : Chronicle) : Prop where
  timeToLive_eq : w.log.timeToLive = timeToLive
  stands : ∀ place, own events place = some key →
    (Turns.standings (conducts events) (es.map (·.2)) place).holds =
      (Chronicle.lease es key place).isSome
  exclusive : Usurped timeToLive key es ∨
    Exclusive timeToLive w.uptime (w.log.slots.find? key) (Chronicle.lease es key)

namespace Tenancy

variable {timeToLive : Span} {events : List Envelope} {key : ListenerKey} {w : World}
  {es : Chronicle}

theorem initial (events : List Envelope) (key : ListenerKey) (w : World) :
    Tenancy w.log.timeToLive events key w [] :=
  ⟨rfl, fun _ _ => rfl, .inr fun _ holds => nomatch holds⟩

/-- Each delivery of the event goes on to have a lease while it holds the claim. -/
theorem stands_answer (tenancy : Tenancy timeToLive events key w es) (a : Ambient) {place : Nat}
    {r : Request}
    (may : May (own events place) (Turns.standings (conducts events) (es.map (·.2)) place) r)
    (other : Nat) (mine : own events other = some key) :
    (Turns.standings (conducts events)
        ((es ++ [(w.uptime, place, ⟨r, (w.answer a r).1⟩)] : Chronicle).map (·.2)) other).holds =
      (Chronicle.lease (es ++ [(w.uptime, place, ⟨r, (w.answer a r).1⟩)]) key other).isSome := by
  rw [List.map_append, List.map_cons, List.map_nil, Turns.standings_append,
    Chronicle.lease_append]
  by_cases same : other = place
  · subst same
    rw [mine] at may
    simp only [Function.update_self]
    rw [may.isSome_lease, ← tenancy.stands other mine]
    exact (may.hold _).symm
  · rw [Function.update_of_ne same, Function.update_of_ne same]
    exact tenancy.stands other mine

/-- A request of a delivery of the event leaves one running lease at most, or takes a running one
away. -/
theorem exclusive_own (tenancy : Tenancy timeToLive events key w es)
    (exclusive : Exclusive timeToLive w.uptime (w.log.slots.find? key) (Chronicle.lease es key))
    (a : Ambient) {place : Nat} (mine : own events place = some key) {r : Request}
    (may : May (some key) (Turns.standings (conducts events) (es.map (·.2)) place) r) :
    Usurped timeToLive key (es ++ [(w.uptime, place, ⟨r, (w.answer a r).1⟩)]) ∨
      Exclusive timeToLive w.uptime ((w.answer a r).2.log.slots.find? key)
        (Function.update (Chronicle.lease es key) place
          (Exchange.lease key w.uptime (Chronicle.lease es key place)
            ⟨r, (w.answer a r).1⟩)) := by
  have stands := tenancy.stands place mine
  generalize Turns.standings (conducts events) (es.map (·.2)) place = s at may stands
  cases may with
  | quiet quiet =>
      rw [w.answer_log_of_isQuiet a quiet,
        Exchange.lease_of_isQuiet key w.uptime _ _ quiet, Function.update_eq_self]
      exact .inr exclusive
  | claim h =>
      cases h
      rw [← tenancy.timeToLive_eq] at exclusive ⊢
      exact .inr (exclusive.claim place)
  | store m | update m =>
      refine .inr ?_
      simp only [Exchange.lease, Function.update_eq_self]
      exact exclusive
  | @record h about =>
      cases about
      obtain ⟨h', recorded⟩ := w.log.find?_record_self h
      refine .inr ?_
      simp only [World.answer, recorded, Exchange.lease, if_true]
      exact exclusive.record place h'
  | release h =>
      cases h
      -- Nothing tells whose claim is in the slot. It matters whether somebody else holds a lease.
      by_cases idle : ∀ i ≠ place,
          running timeToLive w.uptime (Chronicle.lease es key i) = false
      · refine .inr ?_
        simp only [Exchange.lease, if_true]
        exact .release _ idle
      · simp only [not_forall, Bool.not_eq_false] at idle
        obtain ⟨holder, other, holds⟩ := idle
        obtain ⟨since, late⟩ := Option.isSome_iff_exists.mp stands.symm
        exact .inl (.intro late (exclusive.runOut late other holds) other holds)

theorem answer (tenancy : Tenancy timeToLive events key w es) (a : Ambient) {place : Nat}
    {r : Request}
    (may : (conducts events place).may
      (Turns.standings (conducts events) (es.map (·.2)) place) r) :
    Tenancy timeToLive events key (w.answer a r).2
      (es ++ [(w.uptime, place, ⟨r, (w.answer a r).1⟩)]) := by
  change May (own events place) _ r at may
  refine ⟨(w.answer_timeToLive a r).trans tenancy.timeToLive_eq, tenancy.stands_answer a may, ?_⟩
  rcases tenancy.exclusive with usurped | exclusive
  · exact .inl (usurped.append _)
  · rw [World.answer_uptime, Chronicle.lease_append]
    by_cases mine : own events place = some key
    · rw [mine] at may
      exact tenancy.exclusive_own exclusive a mine may
    · rw [may.find?_answer_of_ne a w mine, may.lease_of_ne mine, Function.update_eq_self]
      exact .inr exclusive

theorem pass (tenancy : Tenancy timeToLive events key w es) (s : Span) :
    Tenancy timeToLive events key { w with uptime := w.uptime.after s } es :=
  ⟨tenancy.timeToLive_eq, tenancy.stands, tenancy.exclusive.imp_right fun h => h.pass s⟩

end Tenancy

/-- At any moment, one lease on a key is running at most, or a late delivery has taken away one that
was running. -/
theorem deliveries_lease (a : Ambient) (retries : Nat) (events : List Envelope) (w : World)
    (schedule : List Turn) (key : ListenerKey) :
    let t := deliveries retries events w
    let es := t.chronicle a Turns.alone schedule
    let now := (t.run a Turns.alone schedule).world.uptime
    (∀ i j, running w.log.timeToLive now (es.lease key i) = true →
      running w.log.timeToLive now (es.lease key j) = true → i = j) ∨
        Usurped w.log.timeToLive key es := by
  intro t es now
  have tenancy := Turns.chronicle_keeps (a := a)
    (I := Tenancy w.log.timeToLive events key)
    (fun _ _ _ _ tenancy may => tenancy.answer a may) (fun _ _ s tenancy => tenancy.pass s)
    (fun _ _ tenancy => ⟨tenancy.timeToLive_eq, tenancy.stands, tenancy.exclusive⟩)
    (deliveries_follow retries events w) rfl
    (show Tenancy _ events key w [] from .initial events key w) schedule
  rw [List.nil_append] at tenancy
  exact tenancy.exclusive.symm.imp_left fun exclusive i j first second =>
    (exclusive j second).1 i first

/-- An attempt on a message that is missing is delivered three times. The first delivery fails after
the second one has taken over its claim, and the third one is granted what the first one has given
up. -/
theorem two_leases_running :
    let a : Ambient := ⟨fun _ => .epoch, fun n => ⟨n⟩⟩
    let e := Envelope.ofPayload ⟨7⟩ .epoch "phone" (.phoneSending ⟨⟨1⟩, "+1000", "+2000", "hi"⟩)
    let w : World := {}
    let schedule :=
      [.go 0, .go 0, .go 0, .pass w.log.timeToLive, .go 1, .pass ⟨1⟩, .go 0, .go 2]
    let t := deliveries 3 [e, e, e] w
    let es := t.chronicle a Turns.alone schedule
    let now := (t.run a Turns.alone schedule).world.uptime
    running w.log.timeToLive now (es.lease e.key 1) = true ∧
      running w.log.timeToLive now (es.lease e.key 2) = true := by
  decide +kernel

end SmsTracking
