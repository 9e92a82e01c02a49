import SmsTracking.Proofs.WorkerViews

/-!
Workers at their duties, one for each message of a batch. What a worker has loaded is what so many
tries have made of the message, its event is its own, and where it has come tells what became of the
message (`Post.Sound`). Main statement: together with what can be seen of the workers from outside
this stays so, whichever worker goes on (`Manned.answer`).
-/

namespace SmsTracking

/-- The message is what `j` tries, of those of the `k` workers that have written, have made of it,
and is still stored if it is what all of them have. -/
def World.SeenAfter (a : Ambient) (w₀ w : World) (id : Uuid) (k j : Nat) (m : Message) : Prop :=
  ∃ m₀, w₀.messages.find? id = some m₀ ∧ m₀.Tries a j m ∧ j ≤ k ∧
    (j = k → w.messages.find? id = some m)

def World.Seen (a : Ambient) (w₀ w : World) (id : Uuid) (k : Nat) (m : Message) : Prop :=
  ∃ j, w₀.SeenAfter a w id k j m

/-- What the worker of a message has found, when `k` workers have written it. -/
inductive Bid.Knows (a : Ambient) (w₀ w : World) (id : Uuid) (k : Nat) : Bid → Prop
  | idle : Knows a w₀ w id k idle
  | loaded {m : Message} (seen : w₀.Seen a w id k m) : Knows a w₀ w id k (loaded m)
  | ready {m : Message} (seen : w₀.Seen a w id k m) (i : Nat) :
      Knows a w₀ w id k (ready m (a.clock i))
  | committed (m : Message) : Knows a w₀ w id k (committed m)
  | beaten (e : DomainError) (written : 0 < k) : Knows a w₀ w id k (beaten e)
  | missing (vacant : w₀.messages.find? id = none) : Knows a w₀ w id k (missing (.noMessage id))

/-- The event was made for the message, at a time of the clock. -/
structure Envelope.Tries (a : Ambient) (sms : Sms) (e : Envelope) : Prop where
  carries : e.Carries .phoneSending (.phoneSending sms)
  dated : ∃ i, e.time = a.clock i

namespace Post

/-- Where a worker has come is where it can have come. -/
inductive Sound (a : Ambient) (w₀ w : World) (k : Nat) (sms : Sms) : Duty → Prop
  | begun : Sound a w₀ w k sms .begun
  | drawn (event : Uuid) : Sound a w₀ w k sms (.drawn event)
  | made {e : Envelope} (own : e.Tries a sms) : Sound a w₀ w k sms (.made e)
  | dropped {e : Envelope} (own : e.Tries a sms) (cancelled : w.cancelled = true) :
      Sound a w₀ w k sms (.dropped e)
  | cleared {e : Envelope} (own : e.Tries a sms) : Sound a w₀ w k sms (.cleared e)
  | announced {e : Envelope} (own : e.Tries a sms) : Sound a w₀ w k sms (.announced e)
  | working {e : Envelope} {bid : Bid} (own : e.Tries a sms) (knows : bid.Knows a w₀ w sms.id k) :
      Sound a w₀ w k sms (.working e bid)
  | numbered {e : Envelope} (own : e.Tries a sms) : Sound a w₀ w k sms (.numbered e)
  | recorded {e : Envelope} (own : e.Tries a sms) : Sound a w₀ w k sms (.recorded e)
  | loaded {e : Envelope} {m : Message} {j : Nat} (own : e.Tries a sms)
      (seen : w₀.SeenAfter a w sms.id k j m) (tried : 0 < j) : Sound a w₀ w k sms (.loaded e m)
  | released {e : Envelope} {bid : Bid} (own : e.Tries a sms)
      (knows : bid.Knows a w₀ w sms.id k) : Sound a w₀ w k sms (.released e bid)
  | failed {e : Envelope} {bid : Bid} {reason : AppError} (own : e.Tries a sms)
      (knows : bid.Knows a w₀ w sms.id k) (fails : bid.Ends (move e) (.done (.error reason))) :
      Sound a w₀ w k sms (.failed e bid (unsent sms (failure sms e reason).message))

end Post

/-! What stays true of a worker when another one goes on -/

/-- Of this message it is as before, or one more worker has written it. -/
def World.Later (w w' : World) (id : Uuid) (k k' : Nat) : Prop :=
  k' = k ∧ w'.messages.find? id = w.messages.find? id ∨ k < k'

section Later

variable {a : Ambient} {w₀ w w' : World} {id : Uuid} {k k' : Nat}

theorem World.Later.le (later : w.Later w' id k k') : k ≤ k' := by
  rcases later with ⟨same, _⟩ | more
  · exact Nat.le_of_eq same.symm
  · exact Nat.le_of_lt more

theorem World.SeenAfter.later {j : Nat} {m : Message} (seen : w₀.SeenAfter a w id k j m)
    (later : w.Later w' id k k') : w₀.SeenAfter a w' id k' j m := by
  obtain ⟨m₀, began, tries, most, last⟩ := seen
  refine ⟨m₀, began, tries, Nat.le_trans most later.le, fun all => ?_⟩
  rcases later with ⟨rfl, same⟩ | more
  · rw [same]
    exact last all
  · omega

theorem World.Seen.later {m : Message} (seen : w₀.Seen a w id k m) (later : w.Later w' id k k') :
    w₀.Seen a w' id k' m := by
  obtain ⟨j, after⟩ := seen
  exact ⟨j, after.later later⟩

theorem Bid.Knows.later {bid : Bid} (knows : bid.Knows a w₀ w id k) (later : w.Later w' id k k') :
    bid.Knows a w₀ w' id k' := by
  cases knows with
  | idle => exact .idle
  | loaded seen => exact .loaded (seen.later later)
  | ready seen i => exact .ready (seen.later later) i
  | committed m => exact .committed m
  | beaten e written => exact .beaten e (Nat.lt_of_lt_of_le written later.le)
  | missing vacant => exact .missing vacant

theorem Post.Sound.later {sms : Sms} {duty : Duty} (sound : Post.Sound a w₀ w k sms duty)
    (later : w.Later w' sms.id k k') (cancelled : w.cancelled = true → w'.cancelled = true) :
    Post.Sound a w₀ w' k' sms duty := by
  cases sound with
  | begun => exact .begun
  | drawn event => exact .drawn event
  | made own => exact .made own
  | dropped own broken => exact .dropped own (cancelled broken)
  | cleared own => exact .cleared own
  | announced own => exact .announced own
  | working own knows => exact .working own (knows.later later)
  | numbered own => exact .numbered own
  | recorded own => exact .recorded own
  | loaded own seen tried => exact .loaded own (seen.later later) tried
  | released own knows => exact .released own (knows.later later)
  | failed own knows fails => exact .failed own (knows.later later) fails

end Later

/-- The counters of what is stored leave room for a try by each worker. -/
def World.RoomFor (w : World) (ids : List Uuid) : Prop :=
  ∀ id m, w.messages.find? id = some m →
    m.version.toNat + ids.count id < UInt64.size ∧
      m.sendAttemptCount.toNat + ids.count id < UInt32.size

/-- What has not been tried leaves room for a first try. -/
theorem World.roomFor_of_untried {w : World} {ns : List Message} (once : (ns.map (·.id)).Nodup)
    (each : ∀ n ∈ ns, w.messages.find? n.id = some n ∧ n.Untried) :
    w.RoomFor (ns.map (·.id)) := by
  intro id m stored
  by_cases listed : id ∈ ns.map (·.id)
  · obtain ⟨n, mem, rfl⟩ := List.mem_map.mp listed
    obtain ⟨found, untried⟩ := each n mem
    obtain rfl : n = m := Option.some.inj (found.symm.trans stored)
    rw [List.count_eq_one_of_mem once listed, untried.version, untried.sendAttemptCount]
    decide
  · rw [List.count_eq_zero_of_not_mem listed]
    exact ⟨m.version.toNat_lt_size, m.sendAttemptCount.toNat_lt_size⟩

/-- The workers `ps` that have begun in the world `w₀`. -/
structure Manned (a : Ambient) (w₀ w : World) (ps : List Post) : Prop where
  fresh : w₀.Fresh a (2 * (ps.map Post.face).length)
  room : w₀.RoomFor (ps.map (·.sms.id))
  numbered : Numbered a w₀ w (ps.map Post.face)
  logged : Logged w₀ w (ps.map Post.face)
  stocked : Stocked a w₀ w (ps.map Post.face)
  told : Told w₀ w (ps.map Post.face)
  sound : ∀ p ∈ ps, Post.Sound a w₀ w (writers (ps.map Post.face) p.sms.id) p.sms p.duty

/-- Nothing of what the workers are about is different, but everything may be cancelled now. -/
structure World.Still (w w' : World) : Prop where
  messages : w'.messages = w.messages
  log : w'.log = w.log
  draws : w'.draws = w.draws
  announced : w'.announced = w.announced
  errors : w'.errors = w.errors
  cancelled : w.cancelled = true → w'.cancelled = true

namespace Post

theorem face_id (p : Post) : p.face.id = p.sms.id := by
  unfold face
  split <;> rfl

theorem map_face_id (ps : List Post) : (ps.map face).map (·.id) = ps.map (·.sms.id) := by
  rw [List.map_map]
  exact List.map_congr_left fun p _ => p.face_id

theorem count_set {ps : List Post} {place : Nat} {p : Post} (found : ps[place]? = some p)
    (duty : Duty) : (ps.set place { p with duty }).map (·.sms.id) = ps.map (·.sms.id) :=
  map_set_of_eq _ found rfl

/-- No more workers of a message have written than there are. -/
theorem writers_le (ps : List Post) (id : Uuid) :
    writers (ps.map face) id ≤ (ps.map (·.sms.id)).count id := by
  rw [writers, List.countP_map, List.count, List.countP_map]
  refine List.countP_mono_left fun p _ counted => ?_
  simp only [Function.comp_apply, face_id, Bool.and_eq_true, decide_eq_true_eq] at counted
  simp [counted.1]

/-- A worker that has not written still finds room. -/
theorem writers_lt {ps : List Post} {place : Nat} {p : Post} (found : ps[place]? = some p)
    (unwritten : p.face.hasWritten = false) :
    writers (ps.map face) p.sms.id < (ps.map (·.sms.id)).count p.sms.id := by
  induction ps generalizing place with
  | nil => cases found
  | cons q ps ih =>
      have head : ∀ b : Bool, (if (q.face.id = p.sms.id && b) = true then 1 else 0) ≤
          if q.sms.id = p.sms.id then 1 else 0 := by
        intro b
        rw [face_id]
        by_cases same : q.sms.id = p.sms.id <;> cases b <;> simp [same]
      have rest := writers_le ps p.sms.id
      have own := head q.face.hasWritten
      simp only [writers, List.map_cons, List.countP_cons, List.count_cons, beq_iff_eq]
        at rest ih own ⊢
      cases place with
      | zero =>
          cases found
          simp only [unwritten, Bool.and_false, Bool.false_eq_true, if_false, if_true]
          omega
      | succ place =>
          have later := ih found
          omega

end Post

namespace Manned

open Post

variable {a : Ambient} {w₀ w w' : World} {ps : List Post} {place : Nat} {p : Post} {duty : Duty}

theorem found_face (found : ps[place]? = some p) : (ps.map face)[place]? = some p.face := by
  rw [List.getElem?_map, found]
  rfl

theorem still (manned : Manned a w₀ w ps) (same : w.Still w') : Manned a w₀ w' ps where
  fresh := manned.fresh
  room := manned.room
  numbered := ⟨same.draws.trans manned.numbered.draws, manned.numbered.few,
    manned.numbered.distinct, manned.numbered.known⟩
  logged := by
    refine ⟨fun place f id found named => ?_, fun key apart => ?_⟩
    · rw [same.log]
      exact manned.logged.own place f id found named
    · rw [same.log]
      exact manned.logged.others key apart
  stocked := by
    refine ⟨fun id vacant => ?_, fun id m₀ began => ?_, fun id m stored => ?_⟩
    · rw [same.messages]
      exact manned.stocked.vacant id vacant
    · rw [same.messages]
      exact manned.stocked.stored id m₀ began
    · rw [same.messages] at stored
      exact manned.stocked.stamped id m stored
  told := ⟨same.announced ▸ manned.told.announced, same.errors ▸ manned.told.errors⟩
  sound p mem := (manned.sound p mem).later (.inl ⟨rfl, by rw [same.messages]⟩) same.cancelled

/-- A worker goes on, and nothing of it can be seen. -/
theorem keep (manned : Manned a w₀ w ps) (found : ps[place]? = some p)
    (same : face { p with duty } = p.face)
    (sound : Sound a w₀ w (writers (ps.map face) p.sms.id) p.sms duty) :
    Manned a w₀ w (ps.set place { p with duty }) := by
  have faces : (ps.set place { p with duty }).map face = ps.map face := map_set_of_eq _ found same
  refine ⟨?_, ?_, ?_, ?_, ?_, ?_, ?_⟩
  · rw [faces]
    exact manned.fresh
  · rw [count_set found]
    exact manned.room
  · rw [faces]
    exact manned.numbered
  · rw [faces]
    exact manned.logged
  · rw [faces]
    exact manned.stocked
  · rw [faces]
    exact manned.told
  · intro q mem
    rw [faces]
    rcases List.mem_or_eq_of_mem_set mem with old | rfl
    · exact manned.sound q old
    · exact sound

/-- What of all workers can be seen of stays as it has to be when one of them goes on. -/
theorem change (manned : Manned a w₀ w ps) (found : ps[place]? = some p)
    (numbered : Numbered a w₀ w' ((ps.map face).set place (face { p with duty })))
    (logged : Logged w₀ w' ((ps.map face).set place (face { p with duty })))
    (stocked : Stocked a w₀ w' ((ps.map face).set place (face { p with duty })))
    (told : Told w₀ w' ((ps.map face).set place (face { p with duty })))
    (later : ∀ id, w.Later w' id (writers (ps.map face) id)
      (writers ((ps.map face).set place (face { p with duty })) id))
    (cancelled : w'.cancelled = w.cancelled)
    (sound : Sound a w₀ w'
      (writers ((ps.map face).set place (face { p with duty })) p.sms.id) p.sms duty) :
    Manned a w₀ w' (ps.set place { p with duty }) := by
  have faces : (ps.set place { p with duty }).map face =
      (ps.map face).set place (face { p with duty }) := List.map_set
  refine ⟨?_, ?_, ?_, ?_, ?_, ?_, ?_⟩
  · rw [faces, List.length_set]
    exact manned.fresh
  · rw [count_set found]
    exact manned.room
  · rw [faces]
    exact numbered
  · rw [faces]
    exact logged
  · rw [faces]
    exact stocked
  · rw [faces]
    exact told
  · intro q mem
    rw [faces]
    rcases List.mem_or_eq_of_mem_set mem with old | rfl
    · exact (manned.sound q old).later (later q.sms.id) fun before => cancelled.trans before
    · exact sound

/-- A worker goes on and writes no message. -/
theorem later_of_same {f f' : Face} {fs : List Face} (found : fs[place]? = some f)
    (same : f'.id = f.id) (written : f'.hasWritten = f.hasWritten)
    (messages : w'.messages = w.messages) (id : Uuid) :
    w.Later w' id (writers fs id) (writers (fs.set place f') id) :=
  .inl ⟨Stocked.writers_set found same written id, by rw [messages]⟩

/-- A worker goes on and writes its message. -/
theorem later_of_write {f f' : Face} {fs : List Face} (found : fs[place]? = some f)
    (same : f'.id = f.id) (unwritten : f.hasWritten = false) (written : f'.hasWritten = true)
    {m : Message} (own : m.id = f.id) (messages : w'.messages = w.messages.put m) (id : Uuid) :
    w.Later w' id (writers fs id) (writers (fs.set place f') id) := by
  have more := Stocked.writers_write found same unwritten written id
  by_cases mine : f.id = id
  · rw [if_pos mine] at more
    exact .inr (by omega)
  · rw [if_neg mine] at more
    refine .inl ⟨more, ?_⟩
    rw [messages, MessageStore.find?_put, own, if_neg (Ne.symm mine)]

theorem attemptKey_of_tries {sms : Sms} {e : Envelope} (own : e.Tries a sms) :
    e.key = attemptKey e.id :=
  (Listener.keyOf_of_ofName? (by rw [own.carries.kind, EventKind.ofName?_name])).symm

/-! One lemma for each step that can be seen -/

section Steps

variable {source : String} {sms : Sms} {e : Envelope} {bid : Bid}

theorem draw (manned : Manned a w₀ w ps) (found : ps[place]? = some ⟨source, sms, .begun⟩) :
    Manned a w₀ { w with draws := w.draws + 1 }
      (ps.set place ⟨source, sms, .drawn (a.ids w.draws)⟩) := by
  have seen := found_face found
  obtain ⟨numbered, new⟩ : Numbered a w₀ { w with draws := w.draws + 1 }
      ((ps.map face).set place (face ⟨source, sms, .drawn (a.ids w.draws)⟩)) ∧ _ :=
    manned.numbered.draw manned.fresh seen rfl rfl rfl rfl rfl
  have vacant : w₀.log.slots.find? (attemptKey (toString (a.ids w.draws))) = none := by
    rw [manned.numbered.draws]
    exact manned.fresh.vacant _ (manned.numbered.sum_lt seen Nat.zero_lt_two) .phoneSending
  exact manned.change found numbered (manned.logged.draw seen rfl rfl rfl new vacant rfl)
    (manned.stocked.of_same seen rfl rfl rfl fun _ => rfl) (manned.told.of_same seen rfl rfl rfl rfl)
    (later_of_same seen rfl rfl rfl) rfl (.drawn _)

theorem announce (manned : Manned a w₀ w ps) (found : ps[place]? = some ⟨source, sms, .cleared e⟩)
    (own : e.Tries a sms) :
    Manned a w₀ { w with announced := w.announced ++ [e] }
      (ps.set place ⟨source, sms, .announced e⟩) := by
  have seen := found_face found
  have unwritten : (face ⟨source, sms, .cleared e⟩).hasWritten ≠ true := Bool.false_ne_true
  exact manned.change found (manned.numbered.of_same seen rfl rfl rfl)
    (manned.logged.of_same seen rfl rfl rfl)
    (manned.stocked.of_same seen rfl rfl rfl fun written => absurd written unwritten)
    (manned.told.announce seen rfl rfl rfl rfl rfl) (later_of_same seen rfl rfl rfl) rfl
    (.announced own)

theorem claim (manned : Manned a w₀ w ps) (found : ps[place]? = some ⟨source, sms, .announced e⟩)
    (own : e.Tries a sms) :
    Manned a w₀ (w.answer a (.claim e.key)).2
      (ps.set place (next ⟨source, sms, .announced e⟩
        ⟨.claim e.key, (w.answer a (.claim e.key)).1⟩)) := by
  have seen := found_face found
  have key := attemptKey_of_tries own
  have vacant : w.log.slots.find? e.key = none := by
    have entry := manned.logged.own place _ e.id seen rfl
    rw [← key] at entry
    exact ListenerLog.vacant_of_stateOf entry
  have answer : w.answer a (.claim e.key) =
      (.ok .claimed, { w with log := w.log.take e.key w.uptime, lines := w.lines ++ [] }) := by
    simp only [World.answer, ListenerLog.claim_of_vacant _ vacant, ListenerLog.takeover, vacant]
  rw [answer, List.append_nil]
  have entry : (w.log.take e.key w.uptime).stateOf (attemptKey e.id) = .claimed := by
    simp [ListenerLog.stateOf, key]
  refine manned.change found (manned.numbered.of_same seen rfl rfl rfl)
    (manned.logged.change manned.numbered.distinct seen rfl rfl entry fun key' other => ?_)
    (manned.stocked.of_same seen rfl rfl rfl fun _ => rfl) (manned.told.of_same seen rfl rfl rfl rfl)
    (later_of_same seen rfl rfl rfl) rfl (.working own .idle)
  rw [ListenerLog.find?_take, key, if_neg other]

theorem number (manned : Manned a w₀ w ps) {m : Message}
    (found : ps[place]? = some ⟨source, sms, .working e (.committed m)⟩) (own : e.Tries a sms) :
    Manned a w₀ { w with draws := w.draws + 1 } (ps.set place ⟨source, sms, .numbered e⟩) := by
  have seen := found_face found
  exact manned.change found (manned.numbered.again seen rfl rfl rfl rfl)
    (manned.logged.of_same seen rfl rfl rfl) (manned.stocked.of_same seen rfl rfl rfl fun _ => rfl)
    (manned.told.of_same seen rfl rfl rfl rfl) (later_of_same seen rfl rfl rfl) rfl (.numbered own)

theorem release (manned : Manned a w₀ w ps)
    (found : ps[place]? = some ⟨source, sms, .working e bid⟩) (own : e.Tries a sms)
    (knows : bid.Knows a w₀ w sms.id (writers (ps.map face) sms.id))
    (unwritten : hasWritten bid = false) :
    Manned a w₀ { w with log := w.log.release e.key }
      (ps.set place ⟨source, sms, .released e bid⟩) := by
  have seen := found_face found
  have key := attemptKey_of_tries own
  have before := manned.logged.own place _ e.id seen rfl
  have entry : (w.log.release e.key).stateOf (attemptKey e.id) = .vacant := by
    rw [key]
    exact ListenerLog.stateOf_release before
  have written : (face ⟨source, sms, .released e bid⟩).hasWritten =
      (face ⟨source, sms, .working e bid⟩).hasWritten := unwritten.symm
  have later : ∀ id, w.Later { w with log := w.log.release e.key } id (writers (ps.map face) id)
      (writers ((ps.map face).set place (face ⟨source, sms, .released e bid⟩)) id) :=
    later_of_same seen rfl written rfl
  refine manned.change found (manned.numbered.of_same seen rfl rfl rfl)
    (manned.logged.change manned.numbered.distinct seen rfl rfl entry fun key' other => ?_)
    (manned.stocked.of_same seen rfl rfl written fun _ => rfl) (manned.told.of_same seen rfl rfl rfl rfl)
    later rfl (.released own (knows.later (later sms.id)))
  exact ListenerLog.find?_release_of_ne _ (key ▸ other)

theorem record (manned : Manned a w₀ w ps) {h : HandledEvent}
    (found : ps[place]? = some ⟨source, sms, .numbered e⟩) (own : e.Tries a sms)
    (about : ListenerLog.keyOf h = e.key) :
    Manned a w₀ (w.answer a (.record h)).2
      (ps.set place (next ⟨source, sms, .numbered e⟩ ⟨.record h, (w.answer a (.record h)).1⟩)) := by
  have seen := found_face found
  have key : ListenerLog.keyOf h = attemptKey e.id := about.trans (attemptKey_of_tries own)
  have before : w.log.stateOf (ListenerLog.keyOf h) = .claimed := by
    rw [key]
    exact manned.logged.own place _ e.id seen rfl
  have recorded := ListenerLog.record_of_claimed before
  have answer : w.answer a (.record h) = (.ok true, { w with log := (w.log.record h).2 }) := by
    simp only [World.answer, recorded]
  rw [answer]
  have entry : (w.log.record h).2.stateOf (attemptKey e.id) = .handled := by
    simp [recorded, ListenerLog.stateOf, key]
  refine manned.change found (manned.numbered.of_same seen rfl rfl rfl)
    (manned.logged.change manned.numbered.distinct seen rfl rfl entry fun key' other => ?_)
    (manned.stocked.of_same seen rfl rfl rfl fun _ => rfl) (manned.told.of_same seen rfl rfl rfl rfl)
    (later_of_same seen rfl rfl rfl) rfl (.recorded own)
  exact ListenerLog.find?_record_of_ne _ (key ▸ other)

theorem errors_write {line : LogLine} (severe : line.severity = .error) :
    World.errors { w with lines := w.lines ++ [line] } = w.errors ++ [line] := by
  simp [World.errors, severe]

theorem errors_write_warning {line : LogLine} (warning : line.severity = .warning) :
    World.errors { w with lines := w.lines ++ [line] } = w.errors := by
  simp [World.errors, warning]

theorem fail (manned : Manned a w₀ w ps) {reason : AppError} {line : LogLine}
    (found : ps[place]? = some ⟨source, sms, .released e bid⟩) (own : e.Tries a sms)
    (knows : bid.Knows a w₀ w sms.id (writers (ps.map face) sms.id))
    (fails : bid.Ends (move e) (.done (.error reason)))
    (tells : line = unsent sms (failure sms e reason).message) :
    Manned a w₀ { w with lines := w.lines ++ [line] }
      (ps.set place ⟨source, sms, .failed e bid line⟩) := by
  have seen := found_face found
  have severe : line.severity = .error := by rw [tells, unsent, LogLine.error]
  have later : ∀ id, w.Later { w with lines := w.lines ++ [line] } id (writers (ps.map face) id)
      (writers ((ps.map face).set place (face ⟨source, sms, .failed e bid line⟩)) id) :=
    later_of_same seen rfl rfl rfl
  refine manned.change found (manned.numbered.of_same seen rfl rfl rfl)
    (manned.logged.of_same seen rfl rfl rfl) (manned.stocked.of_same seen rfl rfl rfl fun _ => rfl)
    (manned.told.fail seen rfl rfl rfl rfl (errors_write severe)) later rfl ?_
  subst tells
  exact .failed own (knows.later (later sms.id)) fails

/-- What a worker has loaded is what all tries so far have made of its message. -/
theorem seen_of_stored (stocked : Stocked a w₀ w (ps.map face)) {m : Message} {id : Uuid}
    (stored : w.messages.find? id = some m) : w₀.Seen a w id (writers (ps.map face) id) m := by
  cases began : w₀.messages.find? id with
  | none =>
      rw [(stocked.vacant id began).1] at stored
      cases stored
  | some m₀ =>
      obtain ⟨n, stored', tries⟩ := stocked.stored id m₀ began
      rw [stored] at stored'
      cases stored'
      exact ⟨_, m₀, began, tries, Nat.le_refl _, fun _ => stored⟩

theorem knows_load (stocked : Stocked a w₀ w (ps.map face)) (bid : Bid) (id : Uuid) :
    (bid.next ⟨.load id, w.messages.load id⟩).Knows a w₀ w id (writers (ps.map face) id) ∧
      hasWritten (bid.next ⟨.load id, w.messages.load id⟩) = false := by
  cases stored : w.messages.find? id with
  | none =>
      have vacant : w₀.messages.find? id = none := by
        by_contra began
        obtain ⟨m₀, began⟩ := Option.ne_none_iff_exists'.mp began
        obtain ⟨m, present, _⟩ := stocked.stored id m₀ began
        rw [stored] at present
        cases present
      rw [MessageStore.load_of_vacant stored]
      cases bid <;> exact ⟨.missing vacant, rfl⟩
  | some m =>
      rw [MessageStore.load_of_find? stored, Bid.next_load]
      exact ⟨.loaded (seen_of_stored stocked stored), rfl⟩

/-- Who has written finds its message, with its own try. -/
theorem reload (manned : Manned a w₀ w ps) (found : ps[place]? = some ⟨source, sms, .recorded e⟩)
    (own : e.Tries a sms) :
    Manned a w₀ w (ps.set place
      (next ⟨source, sms, .recorded e⟩ ⟨.load sms.id, w.messages.load sms.id⟩)) := by
  have written : 0 < writers (ps.map face) sms.id :=
    List.countP_pos_iff.mpr
      ⟨_, List.mem_of_getElem? (found_face found), by simp [face]⟩
  cases began : w₀.messages.find? sms.id with
  | none =>
      have unwritten := (manned.stocked.vacant _ began).2
      omega
  | some m₀ =>
      obtain ⟨m, stored, tries⟩ := manned.stocked.stored _ m₀ began
      rw [MessageStore.load_of_find? stored]
      exact manned.keep found rfl
        (.loaded own ⟨m₀, began, tries, Nat.le_refl _, fun _ => stored⟩ written)

theorem load (manned : Manned a w₀ w ps)
    (found : ps[place]? = some ⟨source, sms, .working e bid⟩) (own : e.Tries a sms)
    (unwritten : hasWritten bid = false) :
    Manned a w₀ w (ps.set place
      ⟨source, sms, .working e (bid.next ⟨.load sms.id, w.messages.load sms.id⟩)⟩) := by
  obtain ⟨knows, unwritten'⟩ := knows_load manned.stocked bid sms.id
  refine manned.keep found ?_ (.working own knows)
  simp only [face, unwritten, unwritten']

/-- A worker that has not written finds room in what it has loaded, and in what is stored. -/
theorem hasRoom_of_seen (manned : Manned a w₀ w ps) (found : ps[place]? = some p)
    (unwritten : p.face.hasWritten = false) {m : Message}
    (seen : w₀.Seen a w p.sms.id (writers (ps.map face) p.sms.id) m) (time : Timestamp) :
    (Move.attempt time).HasRoom m := by
  obtain ⟨j, m₀, began, tries, most, _⟩ := seen
  have less := writers_lt found unwritten
  obtain ⟨version, attempts⟩ := manned.room _ m₀ began
  refine ⟨?_, ?_⟩
  · rw [tries.version]
    omega
  · rw [tries.sendAttemptCount]
    omega

/-- What is stored under the identifier of a message that has been overtaken has another version. -/
theorem refused_of_overtaken {s : MessageStore} {m n m' : Message}
    (stored : s.find? m'.id = some n) (next : m'.version = m.version + 1)
    (room : n.version.toNat + 1 < UInt64.size) (overtaken : m.version.toNat < n.version.toNat) :
    ∃ reason, s.update m' = (.refused reason, s) := by
  have other : ¬ n.version + 1 = m'.version := by
    rw [next, UInt64.add_left_inj]
    rintro same
    rw [same] at overtaken
    exact Nat.lt_irrefl _ overtaken
  refine ⟨.versionConflict m'.id (MessageStore.precedingVersion m') n.version, ?_⟩
  simp only [MessageStore.update, stored, if_neg (Nat.ne_of_lt room), if_neg other]

theorem commit (manned : Manned a w₀ w ps) {m : Message} {time : Timestamp} {i j : Nat}
    (found : ps[place]? = some ⟨source, sms, .working e (.ready m time)⟩) (own : e.Tries a sms)
    (stored : w.messages.find? sms.id = some m) (allowed : m.status ∈ Status.attemptAllowed)
    (room : (Move.attempt (a.clock i)).HasRoom m) (dated : e.time = a.clock i) :
    Manned a w₀
      { w with messages := w.messages.put ((Move.attempt (a.clock i)).result m (a.clock j)) }
      (ps.set place ⟨source, sms, .working e
        (.committed ((Move.attempt (a.clock i)).result m (a.clock j)))⟩) := by
  have seen := found_face found
  have named : ((Move.attempt (a.clock i)).result m (a.clock j)).id = sms.id := by
    rw [Move.result_id, MessageStore.id_of_find? stored]
  exact manned.change found (manned.numbered.of_same seen rfl rfl rfl)
    (manned.logged.of_same seen rfl rfl rfl)
    (manned.stocked.write seen rfl rfl rfl stored allowed room rfl rfl dated)
    (manned.told.of_same seen rfl rfl rfl rfl) (later_of_write seen rfl rfl rfl named rfl) rfl
    (.working own (.committed _))

theorem update (manned : Manned a w₀ w ps) {m m' : Message} {time : Timestamp}
    (found : ps[place]? = some ⟨source, sms, .working e (.ready m time)⟩) (own : e.Tries a sms)
    (knows : (Bid.ready m time).Knows a w₀ w sms.id (writers (ps.map face) sms.id))
    (made : (Move.attempt e.time).apply m time = .done m') :
    Manned a w₀ (w.answer a (.update m')).2
      (ps.set place (next ⟨source, sms, .working e (.ready m time)⟩
        ⟨.update m', (w.answer a (.update m')).1⟩)) := by
  obtain ⟨allowed, room, made⟩ := Move.apply_eq_done_iff.mp made
  obtain ⟨i, dated⟩ := own.dated
  cases knows with
  | ready seen j =>
      rw [dated] at made room
      obtain ⟨k, m₀, began, tries, most, last⟩ := seen
      have named : m'.id = sms.id := by
        rw [made, Move.result_id, tries.id, MessageStore.id_of_find? began]
      rcases Nat.eq_or_lt_of_le most with all | fewer
      · have stored := last all
        have next : m.version + 1 = m'.version := by rw [made, Move.result_version]
        have answer : w.answer a (.update m') =
            (.done, { w with messages := w.messages.put m' }) := by
          simp only [World.answer,
            MessageStore.update_of_successor (named ▸ stored) room.version next]
        rw [answer, made]
        exact manned.commit found own stored allowed room dated
      · -- Another worker has written in the meantime.
        obtain ⟨n, stored, tries'⟩ := manned.stocked.stored _ m₀ began
        have version := tries.version
        have version' := tries'.version
        have less : writers (ps.map face) sms.id < (ps.map (·.sms.id)).count sms.id :=
          writers_lt found rfl
        have spare := (manned.room _ m₀ began).1
        have next : m'.version = m.version + 1 := by rw [made, Move.result_version]
        obtain ⟨reason, refused⟩ :=
          refused_of_overtaken (named ▸ stored) next (by omega) (by omega)
        have answer : w.answer a (.update m') = (.refused reason, w) := by
          simp only [World.answer, refused]
        rw [answer]
        exact manned.keep found rfl
          (.working own (.beaten reason (Nat.lt_of_le_of_lt (Nat.zero_le k) fewer)))

theorem not_breaks (manned : Manned a w₀ w ps)
    (found : ps[place]? = some ⟨source, sms, .working e bid⟩)
    (knows : bid.Knows a w₀ w sms.id (writers (ps.map face) sms.id)) {text : String} :
    ¬ bid.Ends (move e) (.aborted text) := by
  intro breaks
  cases breaks with
  | overflow text called overflows =>
      cases called
      cases knows with
      | ready seen i =>
          exact Move.not_hasRoom_of_apply_eq_overflow overflows
            (manned.hasRoom_of_seen found rfl seen _)
  | full text => cases knows

theorem contend (manned : Manned a w₀ w ps) {r : Request}
    (found : ps[place]? = some ⟨source, sms, .working e bid⟩) (own : e.Tries a sms)
    (knows : bid.Knows a w₀ w sms.id (writers (ps.map face) sms.id))
    (may : bid.May sms.id (move e) r) :
    Manned a w₀ (w.answer a r).2
      (ps.set place (next ⟨source, sms, .working e bid⟩ ⟨r, (w.answer a r).1⟩)) := by
  cases may with
  | load => exact manned.load found own rfl
  | reload reason => exact manned.load found own rfl
  | now m =>
      cases knows with
      | loaded seen =>
          have kept : Manned a w₀ w
              (ps.set place ⟨source, sms, .working e (.ready m (a.clock w.readings))⟩) :=
            manned.keep found rfl (.working own (.ready seen _))
          exact kept.still ⟨rfl, rfl, rfl, rfl, rfl, id⟩
  | update called made =>
      cases called
      exact manned.update found own knows made

end Steps

/-- Whichever worker goes on, all stays as it has to be. -/
theorem answer (manned : Manned a w₀ w ps) (found : ps[place]? = some p) {r : Request}
    (may : May p.sms p.duty r) :
    Manned a w₀ (w.answer a r).2 (ps.set place (p.next ⟨r, (w.answer a r).1⟩)) := by
  obtain ⟨source, sms, duty⟩ := p
  have sound := manned.sound _ (List.mem_of_getElem? found)
  simp only at may sound
  have quiet : ∀ {duty' : Duty}, w.Still (w.answer a r).2 →
      face ⟨source, sms, duty'⟩ = face ⟨source, sms, duty⟩ →
      Sound a w₀ w (writers (ps.map face) sms.id) sms duty' →
      Manned a w₀ (w.answer a r).2 (ps.set place ⟨source, sms, duty'⟩) :=
    fun still same sound => (manned.keep found same sound).still still
  cases may with
  | draw => exact manned.draw found
  | date event =>
      exact quiet ⟨rfl, rfl, rfl, rfl, rfl, id⟩ rfl
        (.made ⟨Envelope.ofPayload_carries .., _, rfl⟩)
  | ask e =>
      cases sound with
      | made own =>
          cases cancelled : w.cancelled with
          | true =>
              have answer : w.answer a .isCancelled = (true, w) := congrArg (·, w) cancelled
              rw [answer]
              exact manned.keep found rfl (.dropped own cancelled)
          | false =>
              have answer : w.answer a .isCancelled = (false, w) := congrArg (·, w) cancelled
              rw [answer]
              exact manned.keep found rfl (.cleared own)
  | announce e =>
      cases sound with
      | cleared own => exact manned.announce found own
  | claim e =>
      cases sound with
      | announced own => exact manned.claim found own
  | uptime e bid =>
      cases sound with
      | working own knows =>
          have stays : next ⟨source, sms, .working e bid⟩ ⟨.uptime, (w.answer a .uptime).1⟩ =
              ⟨source, sms, .working e bid⟩ := by
            cases bid <;> rfl
          rw [stays]
          exact quiet ⟨rfl, rfl, rfl, rfl, rfl, id⟩ rfl (.working own knows)
  | bid may =>
      cases sound with
      | working own knows =>
          exact manned.contend found own knows may
  | finish e m =>
      cases sound with
      | working own knows =>
          exact quiet ⟨rfl, rfl, rfl, rfl, rfl, id⟩ rfl (.working own knows)
  | number e m =>
      cases sound with
      | working own knows => exact manned.number found own
  | release fails =>
      cases sound with
      | working own knows =>
          exact manned.release found own knows (by cases fails <;> rfl)
  | die line breaks =>
      cases sound with
      | working own knows => exact absurd breaks (manned.not_breaks found knows)
  | stamp e =>
      cases sound with
      | numbered own => exact quiet ⟨rfl, rfl, rfl, rfl, rfl, id⟩ rfl (.numbered own)
  | record about =>
      cases sound with
      | numbered own => exact manned.record found own about
  | load e =>
      cases sound with
      | recorded own => exact manned.reload found own
  | warn warning =>
      cases sound with
      | released own knows =>
          show Manned a w₀ _ (ps.set place (next ⟨source, sms, .released _ _⟩ ⟨.write _, ()⟩))
          rw [next_of_warning warning]
          exact quiet ⟨rfl, rfl, rfl, rfl, errors_write_warning warning, id⟩ rfl
            (.released own knows)
  | fail fails =>
      cases sound with
      | released own knows => exact manned.fail found own knows fails rfl
  | anything r => cases sound

/-- A key is as it was unless its worker has claimed it. -/
theorem find?_of_vacant (manned : Manned a w₀ w ps) {key : ListenerKey}
    (vacant : ∀ f ∈ ps.map face, ∀ id, f.eventId = some id → key = attemptKey id →
      f.entry = .vacant) : w.log.slots.find? key = w₀.log.slots.find? key := by
  by_cases own : ∃ f ∈ ps.map face, ∃ id, f.eventId = some id ∧ key = attemptKey id
  · obtain ⟨f, mem, id, named, rfl⟩ := own
    obtain ⟨place, shown⟩ := List.getElem?_of_mem mem
    have before := manned.numbered.vacant manned.fresh (List.mem_filterMap.mpr ⟨f, mem, named⟩)
    have now := manned.logged.own place f id shown named
    rw [vacant f mem id named rfl] at now
    rw [before, ListenerLog.vacant_of_stateOf now]
  · refine manned.logged.others key fun id mem same => own ?_
    obtain ⟨f, listed, named⟩ := List.mem_filterMap.mp mem
    exact ⟨f, listed, id, named, same⟩

end Manned

end SmsTracking
