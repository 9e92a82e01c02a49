import Mathlib.Data.List.DropRight
import SmsTracking.Proofs.Bounded
import SmsTracking.Proofs.Serializable
import SmsTracking.Proofs.StoreHistory
import SmsTracking.Proofs.TransitionRetries

/-!
A call that moves a message among programs that do what they like. Each try that the call loses was
lost to an update that another program has committed since the call began, and different tries are
lost to different ones. Main statement: the call ends within its tries, it gives up because of the
version only after so many updates by others, and otherwise it answers what its last try has come to
(`transition_contested`).
-/

namespace SmsTracking

/-- The message that the exchange has put into the store. -/
def Exchange.left : Exchange → Option Message
  | ⟨.store m, .ok ()⟩ => some m
  | ⟨.update m, .done⟩ => some m
  | _ => none

/-- Under one identifier a request changes nothing, or it updates the message to its successor, or
it creates one. -/
theorem World.answer_find?_cases (a : Ambient) (w : World) (r : Request) (id : Uuid) :
    (w.answer a r).2.messages.find? id = w.messages.find? id ∨
      (∃ m n, r = .update m ∧ Exchange.written ⟨r, (w.answer a r).1⟩ = some m ∧ m.id = id ∧
        w.messages.find? id = some n ∧ n.SucceededBy m ∧
        (w.answer a r).2.messages.find? id = some m) ∨
      ∃ m, Exchange.left ⟨r, (w.answer a r).1⟩ = some m ∧ m.id = id ∧
        w.messages.find? id = none ∧ (w.answer a r).2.messages.find? id = some m := by
  cases r with
  | store m =>
      cases found : w.messages.find? m.id with
      | some n => exact .inl (by simp only [answer, MessageStore.store_of_present found])
      | none =>
          simp only [answer, MessageStore.store_of_vacant found, MessageStore.find?_put]
          by_cases own : id = m.id
          · subst own
            exact .inr (.inr ⟨m, rfl, rfl, found, if_pos rfl⟩)
          · exact .inl (if_neg own)
  | update m =>
      cases found : w.messages.find? m.id with
      | none => exact .inl (by simp only [answer, MessageStore.update_of_vacant found])
      | some n =>
          by_cases last : n.version.toNat + 1 = UInt64.size
          · exact .inl (by simp only [answer, MessageStore.update_of_last found last])
          by_cases next : n.SucceededBy m
          · simp only [answer, MessageStore.update_of_succeeded found next, MessageStore.find?_put]
            by_cases own : id = m.id
            · subst own
              exact .inr (.inl ⟨m, n, rfl, rfl, rfl, found, next, if_pos rfl⟩)
            · exact .inl (if_neg own)
          · exact .inl (by simp only [answer, MessageStore.update_of_stale found last next])
  | publish e =>
      refine .inl ?_
      simp only [answer, publish]
      split <;> rfl
  | _ => exact .inl rfl

namespace Rivalry

/-- The exchanges from the first one of the program at a place on. -/
def since (place : Nat) (es : List (Nat × Exchange)) : List (Nat × Exchange) :=
  es.dropWhile fun e => e.1 ≠ place

/-- The exchanges from the first one of the program at a place up to its last one. -/
def during (place : Nat) (es : List (Nat × Exchange)) : List (Nat × Exchange) :=
  (since place es).rdropWhile fun e => e.1 ≠ place

/-- How many updates of a message the programs at other places have committed. -/
def rivals (place : Nat) (id : Uuid) (es : List (Nat × Exchange)) : Nat :=
  es.countP fun e => e.1 ≠ place ∧ e.2.written.any (·.id = id)

section Spans

variable {place other : Nat} {es : List (Nat × Exchange)} {x : Exchange}

theorem since_append_self (place : Nat) (es : List (Nat × Exchange)) (x : Exchange) :
    since place (es ++ [(place, x)]) = since place es ++ [(place, x)] := by
  simp only [since, List.dropWhile_append]
  split
  · rename_i none
    rw [List.isEmpty_iff.mp none, List.dropWhile_cons_of_neg (by simp), List.nil_append]
  · rfl

theorem since_append_of_ne (begun : since place es ≠ []) (other : Nat) (x : Exchange) :
    since place (es ++ [(other, x)]) = since place es ++ [(other, x)] := by
  simp only [since] at begun
  simp only [since, List.dropWhile_append, List.isEmpty_iff, if_neg begun]

theorem during_append_self (place : Nat) (es : List (Nat × Exchange)) (x : Exchange) :
    during place (es ++ [(place, x)]) = since place es ++ [(place, x)] := by
  rw [during, since_append_self]
  exact List.rdropWhile_concat_neg _ _ _ (by simp)

theorem during_append_of_ne (ne : other ≠ place) (es : List (Nat × Exchange)) (x : Exchange) :
    during place (es ++ [(other, x)]) = during place es := by
  by_cases begun : since place es = []
  · have none : since place (es ++ [(other, x)]) = [] := by
      simp only [since] at begun
      rw [since, List.dropWhile_append, begun, List.isEmpty_nil, if_pos rfl,
        List.dropWhile_cons_of_pos (by simpa using ne), List.dropWhile_nil]
    rw [during, during, none, begun]
  · rw [during, since_append_of_ne begun]
    exact List.rdropWhile_concat_pos _ _ _ (by simpa using ne)

theorem rivals_during_le (place : Nat) (id : Uuid) (es : List (Nat × Exchange)) :
    rivals place id (during place es) ≤ rivals place id (since place es) :=
  (List.rdropWhile_prefix _ _).sublist.countP_le

theorem rivals_append_self (place : Nat) (id : Uuid) (es : List (Nat × Exchange)) (x : Exchange) :
    rivals place id (es ++ [(place, x)]) = rivals place id es := by
  simp [rivals, List.countP_append]

theorem rivals_le_append (place : Nat) (id : Uuid) (es : List (Nat × Exchange))
    (e : Nat × Exchange) : rivals place id es ≤ rivals place id (es ++ [e]) := by
  simp [rivals, List.countP_append]

theorem rivals_append_written {m : Message} (ne : other ≠ place) (written : x.written = some m)
    (es : List (Nat × Exchange)) :
    rivals place m.id (es ++ [(other, x)]) = rivals place m.id es + 1 := by
  simp [rivals, List.countP_append, ne, written]

end Spans

variable {id : Uuid} {move : Move} {most : Nat} {s₀ s s' : MessageStore}

/-- What is true of the stored message as long as the call has written nothing. -/
structure Calm (id : Uuid) (move : Move) (s₀ s : MessageStore) : Prop where
  room : ∀ n, s.find? id = some n → move.HasRoom n
  stored : (s₀.find? id).isSome = true → (s.find? id).isSome = true

/-- What is true of the store and of the other programs if the call in the first place stands so.
The tries that it has lost, and what its message lags behind, go to different updates by others. -/
def Stands (id : Uuid) (move : Move) (s₀ s : MessageStore) (es : List (Nat × Exchange)) :
    Bout → Prop
  | .resting lost => Calm id move s₀ s ∧ lost ≤ rivals 0 id (during 0 es)
  | .loaded lost m | .ready lost m _ =>
      Calm id move s₀ s ∧ m.id = id ∧ move.HasRoom m ∧ since 0 es ≠ [] ∧
        ∃ n, s.find? id = some n ∧ m.version.toNat ≤ n.version.toNat ∧
          lost + n.version.toNat ≤ rivals 0 id (since 0 es) + m.version.toNat
  | .committed _ _ => True
  | .missing _ e => e = .noMessage id ∧ s₀.find? id = none
  | .stuck => False

/-- What other programs leave under the identifier has room for the move. -/
def Roomy (id : Uuid) (move : Move) (es : List (Nat × Exchange)) : Prop :=
  ∀ e ∈ es, e.1 ≠ 0 → ∀ m, e.2.left = some m → m.id = id → move.HasRoom m

theorem left_of_written {x : Exchange} {m : Message} (written : x.written = some m) :
    x.left = some m := by
  unfold Exchange.written at written
  split at written
  · exact written
  · cases written

variable {a : Ambient} {w : World} {es : List (Nat × Exchange)} {b : Bout} {r : Request}

theorem Calm.answer (calm : Calm id move s₀ w.messages)
    (fits : ∀ m, Exchange.left ⟨r, (w.answer a r).1⟩ = some m → m.id = id → move.HasRoom m) :
    Calm id move s₀ (w.answer a r).2.messages := by
  obtain same | ⟨m, n, -, written, own, found, -, left⟩ | ⟨m, made, own, -, left⟩ :=
    w.answer_find?_cases a r id
  · exact ⟨same ▸ calm.room, same ▸ calm.stored⟩
  · refine ⟨fun n' found' => ?_, fun _ => by rw [left]; rfl⟩
    obtain rfl : m = n' := Option.some.inj (left.symm.trans found')
    exact fits m (left_of_written written) own
  · refine ⟨fun n' found' => ?_, fun _ => by rw [left]; rfl⟩
    obtain rfl : m = n' := Option.some.inj (left.symm.trans found')
    exact fits m made own

/-- Another program takes a turn. -/
theorem Stands.rival {place : Nat} (stands : Stands id move s₀ w.messages es b) (ne : place ≠ 0)
    (fits : ∀ m, Exchange.left ⟨r, (w.answer a r).1⟩ = some m → m.id = id → move.HasRoom m) :
    Stands id move s₀ (w.answer a r).2.messages (es ++ [(place, ⟨r, (w.answer a r).1⟩)]) b := by
  have behind {lost : Nat} {m : Message}
      (stands : Stands id move s₀ w.messages es (.loaded lost m)) :
      Stands id move s₀ (w.answer a r).2.messages (es ++ [(place, ⟨r, (w.answer a r).1⟩)])
        (.loaded lost m) := by
    obtain ⟨calm, own, room, begun, n, found, newer, enough⟩ := stands
    refine ⟨calm.answer fits, own, room, ?_, ?_⟩
    · rw [since_append_of_ne begun]
      simp
    · rw [since_append_of_ne begun]
      have more := rivals_le_append 0 id (since 0 es) (place, ⟨r, (w.answer a r).1⟩)
      obtain same | ⟨m', n', -, written, rfl, found', next, left⟩ | ⟨m', -, -, vacant, -⟩ :=
        w.answer_find?_cases a r id
      · exact ⟨n, same.trans found, newer, by omega⟩
      · obtain rfl : n = n' := Option.some.inj (found.symm.trans found')
        have next : n.version.toNat + 1 = m'.version.toNat := next
        rw [rivals_append_written ne written]
        exact ⟨m', left, by omega, by omega⟩
      · rw [vacant] at found
        cases found
  cases b with
  | resting lost =>
      obtain ⟨calm, enough⟩ := stands
      exact ⟨calm.answer fits, by rwa [during_append_of_ne ne]⟩
  | loaded lost m => exact behind stands
  | ready lost m now => exact behind (m := m) stands
  | committed lost m => trivial
  | missing lost e => exact stands
  | stuck => exact stands

/-- The call takes a turn. -/
theorem Stands.own (stands : Stands id move s₀ w.messages es b) (may : Bout.May id move most b r) :
    Stands id move s₀ (w.answer a r).2.messages (es ++ [(0, ⟨r, (w.answer a r).1⟩)])
      (b.next ⟨r, (w.answer a r).1⟩) := by
  cases may with
  | @load lost within =>
      obtain ⟨calm, enough⟩ := stands
      have enough := Nat.le_trans enough (rivals_during_le 0 id es)
      cases found : w.messages.find? id with
      | none =>
          have vacant : s₀.find? id = none := by
            by_contra stored
            have still := calm.stored (Option.isSome_iff_ne_none.mpr stored)
            rw [found] at still
            cases still
          simp only [World.answer, MessageStore.load_of_vacant found]
          exact ⟨rfl, vacant⟩
      | some m =>
          simp only [World.answer, MessageStore.load_of_find? found]
          refine ⟨calm, MessageStore.id_of_find? found, calm.room m found, ?_, m, found,
            Nat.le_refl _, ?_⟩
          · simp [since_append_self]
          · rw [since_append_self, rivals_append_self]
            exact Nat.add_le_add_right enough _
  | now lost m =>
      obtain ⟨calm, own, room, begun, n, found, newer, enough⟩ := stands
      refine ⟨calm, own, room, ?_, n, found, newer, ?_⟩
      · simp [since_append_self]
      · rwa [since_append_self, rivals_append_self]
  | @update lost m m' now made =>
      obtain ⟨calm, own, room, begun, n, found, newer, enough⟩ := stands
      obtain ⟨-, -, rfl⟩ := Move.apply_eq_done_iff.mp made
      have key : (move.result m now).id = id := (move.result_id m now).trans own
      have counted := Move.toNat_version_result room now
      by_cases next : n.SucceededBy (move.result m now)
      · simp only [World.answer, MessageStore.update_of_succeeded (key.symm ▸ found) next]
        trivial
      · have top : n.version.toNat + 1 ≠ UInt64.size := Nat.ne_of_lt (calm.room n found).version
        have stale : n.version.toNat + 1 ≠ (move.result m now).version.toNat := next
        simp only [World.answer, MessageStore.update_of_stale (key.symm ▸ found) top next]
        refine ⟨calm, ?_⟩
        rw [during_append_self, rivals_append_self]
        omega

/-- Other programs may do whatever they like. -/
def free : Conduct Bout (Except AppError Message) where
  start := .stuck
  next b _ := b
  may _ _ := True
  ends _ _ := True

theorem follows_free (p : Program (Except AppError Message)) (b : Bout) : p.Follows free b := by
  induction p generalizing b with
  | done | abort => trivial
  | ask r next ih => exact ⟨trivial, fun a w => ih _ b⟩

def conducts (id : Uuid) (move : Move) (most : Nat) (place : Nat) :
    Conduct Bout (Except AppError Message) :=
  if place = 0 then Bout.conduct id move most else free

/-- The call and other programs, before any of them has begun. -/
def contest (id : Uuid) (move : Move) (retries : Nat)
    (others : List (Program (Except AppError Message))) (w : World) :
    Turns (Except AppError Message) where
  world := w
  programs := Lifecycle.transition id move retries :: others

theorem contest_follow (id : Uuid) (move : Move) (retries : Nat)
    (others : List (Program (Except AppError Message))) (w : World) :
    (contest id move retries others w).Follow (conducts id move retries) := by
  intro place p found
  cases place with
  | zero =>
      obtain rfl : Lifecycle.transition id move retries = p := Option.some.inj found
      exact Lifecycle.transition_follows_bout id move (Nat.zero_add retries)
  | succ place => exact follows_free p _

/-- How the call stands. -/
def standing (id : Uuid) (move : Move) (most : Nat) (es : List (Nat × Exchange)) : Bout :=
  (Bout.conduct id move most).standing (Turns.talkOf es 0)

/-- What is true at any time. -/
structure Contest (id : Uuid) (move : Move) (most : Nat) (s₀ s : MessageStore)
    (es : List (Nat × Exchange)) : Prop where
  shows : (standing id move most es).Shows id move most (Turns.talkOf es 0)
  stands : Stands id move s₀ s es (standing id move most es)

theorem Contest.answer (contest : Contest id move most s₀ w.messages es) {place : Nat}
    (may : (conducts id move most place).may (Turns.standings (conducts id move most) es place) r)
    (fits : Roomy id move (es ++ [(place, ⟨r, (w.answer a r).1⟩)])) :
    Contest id move most s₀ (w.answer a r).2.messages
      (es ++ [(place, ⟨r, (w.answer a r).1⟩)]) := by
  obtain ⟨shows, stands⟩ := contest
  by_cases own : place = 0
  · subst own
    have may : Bout.May id move most (standing id move most es) r := may
    have after : standing id move most (es ++ [(0, ⟨r, (w.answer a r).1⟩)]) =
        (standing id move most es).next ⟨r, (w.answer a r).1⟩ := by
      rw [standing, Turns.talkOf_append_self]
      exact Conduct.standing_append ..
    refine ⟨?_, ?_⟩
    · rw [after, Turns.talkOf_append_self]
      exact shows.answer may _
    · rw [after]
      exact stands.own may
  · have same := Turns.talkOf_append_of_ne es ⟨r, (w.answer a r).1⟩ (Ne.symm own)
    refine ⟨?_, ?_⟩
    · rwa [standing, same]
    · rw [standing, same]
      exact stands.rival own (fits _ (List.mem_append_right _ (List.mem_singleton_self _)) own)

theorem contest_run (a : Ambient) (retries : Nat)
    (others : List (Program (Except AppError Message)))
    (room : ∀ m, w.messages.find? id = some m → move.HasRoom m) (schedule : List Turn) :
    let t := (contest id move retries others w).run a Turns.alone schedule
    t.Follow (conducts id move retries) ∧
      (Roomy id move t.exchanges →
        Contest id move retries w.messages t.world.messages t.exchanges) :=
  Turns.run_keeps
    (I := fun w' es => Roomy id move es → Contest id move retries w.messages w'.messages es)
    (contest_follow id move retries others w)
    (fun _ => ⟨⟨Nat.zero_le _, .nil⟩, ⟨room, fun stored => stored⟩, Nat.zero_le _⟩)
    (fun _ _ _ _ contest may fits =>
      (contest fun e mem => fits e (List.mem_append_left _ mem)).answer may fits)
    (fun _ _ _ contest => contest)
    (fun _ _ contest => contest)
    schedule

def IsNotFound (e : AppError) : Prop := ∃ reason, e.root = .domain (.notFound reason)

/-- How a call fares that may try so many times again, whatever the other programs do. -/
structure Contested (id : Uuid) (move : Move) (retries : Nat) (w : World) (schedule : List Turn)
    (t : Turns (Except AppError Message)) : Prop where
  loads : (t.talk 0).countP Exchange.isLoad ≤ retries + 1
  updates : (t.talk 0).countP Exchange.isUpdate ≤ retries + 1
  ended : 3 * (retries + 1) ≤ schedule.count (.go 0) → (t.outcome? 0).isSome = true
  outcome : ∀ o, t.outcome? 0 = some o → (∃ m, o = .done (.ok m)) ∨
    ∃ e, o = .done (.error e) ∧
      (Contention.IsVersionConflict e ∨ Contention.IsInvalidState e ∨ IsNotFound e)
  /-- The call gives up after its last try only, and each of its tries was lost to an update of its
  own that another program has committed since the call began. -/
  conflict : ∀ e, t.outcome? 0 = some (.done (.error e)) → Contention.IsVersionConflict e →
    e.isRetriable = true ∧ (t.talk 0).countP Exchange.isLoad = retries + 1 ∧
      (t.talk 0).countP Exchange.isUpdate = retries + 1 ∧
      (t.talk 0).countP Exchange.isRejected = retries + 1 ∧
      retries + 1 ≤ rivals 0 id (during 0 t.exchanges)
  refused : ∀ e, t.outcome? 0 = some (.done (.error e)) → Contention.IsInvalidState e →
    ∃ before m now, t.talk 0 = before ++ [⟨.load id, .ok m⟩, ⟨.now, now⟩] ∧
      m.status ∉ move.allowed ∧ e.root = .domain (.wrongStatus m.id m.status move.allowed) ∧
      ∀ x ∈ before, x.written = none
  missing : ∀ e, t.outcome? 0 = some (.done (.error e)) → IsNotFound e →
    w.messages.find? id = none ∧
      ∃ before, t.talk 0 = before ++ [⟨.load id, .error (.noMessage id)⟩] ∧
        e.root = .domain (.noMessage id) ∧ ∀ x ∈ before, x.written = none
  /-- The call succeeds if and only if its last update was made, with the message that it put into
  the store. -/
  ok_iff : ∀ m, t.outcome? 0 = some (.done (.ok m)) ↔
    ((t.talk 0).filter Exchange.isUpdate).getLast? = some ⟨.update m, .done⟩
  committed : ∀ m, t.outcome? 0 = some (.done (.ok m)) → ∃ before m' now,
    t.talk 0 = before ++ [⟨.load id, .ok m'⟩, ⟨.now, now⟩, ⟨.update m, .done⟩] ∧
      m = move.result m' now ∧ ∀ x ∈ before, x.written = none

section Outcomes

variable {t : Turns (Except AppError Message)} {retries : Nat}

theorem Stands.ne_stuck (stands : Stands id move s₀ s es b) : b ≠ .stuck := by
  rintro rfl
  exact stands

/-- A call that has committed has nothing more to ask. -/
theorem outcome_of_committed (follow : t.Follow (conducts id move retries))
    (inside : 0 < t.programs.length) {lost : Nat} {m : Message}
    (committed : standing id move retries t.exchanges = .committed lost m) :
    t.outcome? 0 = some (.done (.ok m)) := by
  have found : t.programs[0]? = some t.programs[0] := List.getElem?_eq_getElem inside
  have keeps : t.programs[0].Follows (Bout.conduct id move retries)
    (standing id move retries t.exchanges) := follow 0 _ found
  rw [committed] at keeps
  cases program : t.programs[0] with
  | done x =>
      rw [program] at found keeps
      have ends : Bout.Ends move retries (.committed lost m) (.done x) := keeps
      cases ends
      simp [Turns.outcome?, found]
  | abort text =>
      rw [program] at keeps
      have ends : Bout.Ends move retries (.committed lost m) (.aborted text) := keeps
      cases ends
  | ask r next =>
      rw [program] at keeps
      have may : Bout.May id move retries (.committed lost m) r := keeps.1
      cases may

theorem getLast?_updates (before : List Exchange) (id : Uuid) (m m' : Message) (now : Timestamp) :
    ((before ++ [⟨.load id, .ok m'⟩, ⟨.now, now⟩, ⟨.update m, .done⟩] : List Exchange).filter
      Exchange.isUpdate).getLast? = some ⟨.update m, .done⟩ := by
  rw [List.filter_append, List.getLast?_append]
  rfl

/-- What the outcome of the call tells about what it has exchanged. -/
inductive Reading (id : Uuid) (move : Move) (retries : Nat) (s₀ : MessageStore)
    (es : List (Nat × Exchange)) : Outcome (Except AppError Message) → Prop
  | exhausted {e : AppError} {key : Uuid} {expected actual : UInt64}
      (lost : Bout.Lost (Turns.talkOf es 0) (retries + 1))
      (root : e.root = .domain (.versionConflict key expected actual))
      (again : e.isRetriable = true)
      (enough : retries + 1 ≤ rivals 0 id (during 0 es)) :
      Reading id move retries s₀ es (.done (.error e))
  | refused {e : AppError} {before : List Exchange} {m : Message} {now : Timestamp} {lost : Nat}
      (beaten : Bout.Lost before lost)
      (talk : Turns.talkOf es 0 = before ++ [⟨.load id, .ok m⟩, ⟨.now, now⟩])
      (refuses : m.status ∉ move.allowed)
      (root : e.root = .domain (.wrongStatus m.id m.status move.allowed)) :
      Reading id move retries s₀ es (.done (.error e))
  | missing {e : AppError} {before : List Exchange} {lost : Nat} (beaten : Bout.Lost before lost)
      (talk : Turns.talkOf es 0 = before ++ [⟨.load id, .error (.noMessage id)⟩])
      (vacant : s₀.find? id = none) (root : e.root = .domain (.noMessage id)) :
      Reading id move retries s₀ es (.done (.error e))
  | committed {before : List Exchange} {m m' : Message} {now : Timestamp} {lost : Nat}
      (beaten : Bout.Lost before lost)
      (talk : Turns.talkOf es 0 =
        before ++ [⟨.load id, .ok m'⟩, ⟨.now, now⟩, ⟨.update m, .done⟩])
      (made : m = move.result m' now) : Reading id move retries s₀ es (.done (.ok m))

theorem Contest.reading (contest : Contest id move retries s₀ s t.exchanges)
    (follow : t.Follow (conducts id move retries)) {o : Outcome (Except AppError Message)}
    (ended : t.outcome? 0 = some o) : Reading id move retries s₀ t.exchanges o := by
  obtain ⟨shows, stands⟩ := contest
  have ends : Bout.Ends move retries (standing id move retries t.exchanges) o := follow.ends ended
  generalize standing id move retries t.exchanges = b at ends shows stands
  cases ends with
  | exhausted text key expected actual => exact .exhausted shows.2 rfl rfl stands.2
  | refused text refuses =>
      obtain ⟨-, before, beaten, talk⟩ := shows
      exact .refused beaten talk refuses rfl
  | overflow text full =>
      obtain ⟨-, -, room, -⟩ := stands
      exact absurd room full
  | committed lost m =>
      obtain ⟨-, before, m', now, beaten, made, talk⟩ := shows
      exact .committed beaten talk made
  | missing lost e text =>
      obtain ⟨-, before, beaten, talk⟩ := shows
      obtain ⟨rfl, vacant⟩ := stands
      exact .missing beaten talk vacant rfl
  | stuck o => exact stands.elim

theorem Contest.contested (contest : Contest id move retries w.messages s t.exchanges)
    (follow : t.Follow (conducts id move retries)) (inside : 0 < t.programs.length)
    {schedule : List Turn}
    (ended : 3 * (retries + 1) ≤ schedule.count (.go 0) → (t.outcome? 0).isSome = true) :
    Contested id move retries w schedule t := by
  have unstuck := contest.stands.ne_stuck
  obtain ⟨loads, updates⟩ := contest.shows.counts unstuck
  refine ⟨loads, updates, ended, ?_, ?_, ?_, ?_, ?_, ?_⟩
  · intro o ended
    cases contest.reading follow ended with
    | exhausted lost root again enough => exact .inr ⟨_, rfl, .inl ⟨_, _, _, root⟩⟩
    | refused beaten talk refuses root => exact .inr ⟨_, rfl, .inr (.inl ⟨_, _, _, root⟩)⟩
    | missing beaten talk vacant root => exact .inr ⟨_, rfl, .inr (.inr ⟨_, root⟩)⟩
    | committed beaten talk made => exact .inl ⟨_, rfl⟩
  · rintro e ended ⟨key, expected, actual, conflict⟩
    cases contest.reading follow ended with
    | exhausted lost root again enough =>
        exact ⟨again, lost.loads, lost.updates, lost.rejected, enough⟩
    | refused beaten talk refuses root => cases root.symm.trans conflict
    | missing beaten talk vacant root => cases root.symm.trans conflict
  · rintro e ended ⟨key, actual, expected, invalid⟩
    cases contest.reading follow ended with
    | exhausted lost root again enough => cases root.symm.trans invalid
    | refused beaten talk refuses root => exact ⟨_, _, _, talk, refuses, root, beaten.written⟩
    | missing beaten talk vacant root => cases root.symm.trans invalid
  · rintro e ended ⟨reason, notFound⟩
    cases contest.reading follow ended with
    | exhausted lost root again enough => cases root.symm.trans notFound
    | refused beaten talk refuses root => cases root.symm.trans notFound
    | missing beaten talk vacant root => exact ⟨vacant, _, talk, root, beaten.written⟩
  · intro m
    constructor
    · intro ended
      cases contest.reading follow ended with
      | committed beaten talk made =>
          rw [Turns.talk, talk]
          exact getLast?_updates ..
    · intro last
      have mem := (List.mem_filter.mp (List.mem_of_getLast? last)).1
      obtain ⟨lost, committed⟩ := contest.shows.committed_of_written unstuck mem rfl
      exact outcome_of_committed follow inside committed
  · intro m ended
    cases contest.reading follow ended with
    | committed beaten talk made => exact ⟨_, _, _, talk, made, beaten.written⟩

end Outcomes

/-- A call that moves a message, among other programs that may do whatever they like but bring no
counter of the message to its end. -/
theorem transition_contested (a : Ambient) (id : Uuid) (move : Move) (retries : UInt32)
    (others : List (Program (Except AppError Message))) (w : World) (schedule : List Turn)
    (room : ∀ m, w.messages.find? id = some m → move.HasRoom m)
    (roomy : Roomy id move
      ((contest id move retries.toNat others w).run a Turns.alone schedule).exchanges) :
    Lifecycle.counting id move retries 0 = Lifecycle.transition id move retries.toNat ∧
      Contested id move retries.toNat w schedule
        ((contest id move retries.toNat others w).run a Turns.alone schedule) := by
  obtain ⟨follow, holds⟩ := contest_run a retries.toNat others room schedule
  have started : (contest id move retries.toNat others w).programs[0]? =
      some (Lifecycle.transition id move retries.toNat) := rfl
  have inside : 0 < ((contest id move retries.toNat others w).run a Turns.alone
      schedule).programs.length :=
    Nat.lt_of_lt_of_le (Nat.succ_pos others.length)
      (Turns.length_programs_le_run a Turns.alone (contest id move retries.toNat others w) schedule)
  exact ⟨Lifecycle.counting_eq_transition id move (Nat.zero_add _),
    (holds roomy).contested follow inside fun enough =>
      Turns.isSome_outcome?_run started (Lifecycle.transition_endsWithin ..) a Turns.alone enough⟩

/-- The last try is lost to an attempt that another program has committed. -/
theorem transition_contested_overtaken :
    let m := Message.mobileTerminated ⟨⟨1⟩, "+1000", "+2000", "hi", .epoch⟩ .epoch
    let w : World := { messages := (∅ : MessageStore).put m }
    let move : Move := .attempt .epoch
    let others := [Lifecycle.transition ⟨1⟩ move 0]
    let a : Ambient := ⟨fun _ => .epoch, fun n => ⟨n⟩⟩
    let schedule := [.go 0, .go 0, .go 1, .go 1, .go 1, .go 0]
    let retries : UInt32 := 0
    let t := (contest ⟨1⟩ move retries.toNat others w).run a Turns.alone schedule
    (∀ m, w.messages.find? ⟨1⟩ = some m → move.HasRoom m) ∧ Roomy ⟨1⟩ move t.exchanges ∧
      Contested ⟨1⟩ move retries.toNat w schedule t ∧ rivals 0 ⟨1⟩ (during 0 t.exchanges) = 1 := by
  intro m w move others a schedule retries t
  have room : ∀ m, w.messages.find? ⟨1⟩ = some m → move.HasRoom m := by
    intro m' found
    cases found
    exact ⟨by decide, by decide⟩
  have left : (t.exchanges.filterMap fun e => if e.1 = 0 then none else e.2.left) =
      [move.result m .epoch] := by decide
  have roomy : Roomy ⟨1⟩ move t.exchanges := by
    intro e mem other m' leaves own
    have among : m' ∈ [move.result m .epoch] :=
      left ▸ List.mem_filterMap.mpr ⟨e, mem, by rw [if_neg other, leaves]⟩
    obtain rfl := List.mem_singleton.mp among
    exact ⟨by decide, by decide⟩
  obtain ⟨-, contested⟩ := transition_contested a ⟨1⟩ move retries others w schedule room roomy
  exact ⟨room, roomy, contested, by decide⟩

end Rivalry

end SmsTracking
