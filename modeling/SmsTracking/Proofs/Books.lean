import Mathlib.Data.List.Nodup
import SmsTracking.Proofs.FirstTries
import SmsTracking.Proofs.Waiting

/-!
The books of a world: which messages it holds, in whatever order, and how many records and drawn
identifiers. An operation that succeeds by way of its event changes the books in a way of its own:
it puts in one message, makes one record and draws new identifiers. Main statements: a message can
be created under a new identifier (`Books.run_create`), and a message that is held can be moved
(`Books.run_move`).
-/

namespace SmsTracking

namespace MessageStore

variable {s : MessageStore} {m n : Message} {ms : List Message}

/-- A list that tells of each stored message, and of no other, is what the store holds. -/
theorem perm_of_mem_iff (once : (ms.map (·.id)).Nodup)
    (each : ∀ m, s.find? m.id = some m ↔ m ∈ ms) : s.toList.Perm ms := by
  refine (List.perm_ext_iff_of_nodup (List.Nodup.of_map _ s.nodup_toList)
    (List.Nodup.of_map _ once)).mpr fun m => ?_
  rw [mem_toList_iff, each]

theorem find?_iff_of_perm (holds : s.toList.Perm ms) : s.find? m.id = some m ↔ m ∈ ms := by
  rw [← holds.mem_iff, mem_toList_iff]

theorem nodup_of_perm (holds : s.toList.Perm ms) : (ms.map (·.id)).Nodup :=
  (holds.map _).nodup_iff.mp s.nodup_toList

theorem put_perm (once : (ms.map (·.id)).Nodup) (apart : ∀ l ∈ ms, l.id ≠ m.id)
    (others : ∀ l : Message, l.id ≠ m.id → (s.find? l.id = some l ↔ l ∈ ms)) :
    (s.put m).toList.Perm (m :: ms) := by
  refine perm_of_mem_iff ?_ fun l => ?_
  · refine List.nodup_cons.mpr ⟨fun mem => ?_, once⟩
    obtain ⟨l, listed, same⟩ := List.mem_map.mp mem
    exact apart l listed same
  · rw [find?_put, List.mem_cons]
    by_cases own : l.id = m.id
    · have absent : l ∉ ms := fun mem => apart l mem own
      simp [own, absent, eq_comm]
    · have other : l ≠ m := fun same => own (congrArg _ same)
      simp [own, other, others l own]

theorem put_perm_of_vacant (holds : s.toList.Perm ms) (vacant : s.find? m.id = none) :
    (s.put m).toList.Perm (m :: ms) := by
  refine put_perm (nodup_of_perm holds) (fun l mem same => ?_) fun l _ => find?_iff_of_perm holds
  rw [← same, (find?_iff_of_perm holds).mpr mem] at vacant
  cases vacant

theorem put_perm_of_stored (holds : s.toList.Perm (n :: ms)) (same : m.id = n.id) :
    (s.put m).toList.Perm (m :: ms) := by
  obtain ⟨new, once⟩ := List.nodup_cons.mp (nodup_of_perm holds)
  refine put_perm once (fun l mem own => new ?_) fun l other => ?_
  · exact List.mem_map.mpr ⟨l, mem, own.trans same⟩
  · rw [find?_iff_of_perm holds, List.mem_cons]
    have apart : l ≠ n := fun own => other ((congrArg _ own).trans same.symm)
    exact or_iff_right apart

end MessageStore

namespace ListenerLog

/-- The keys under which there is a record. -/
def settled (log : ListenerLog) : List ListenerKey := log.slots.keys.filter log.has

theorem nodup_settled (log : ListenerLog) : log.settled.Nodup :=
  log.slots.nodup_keys.filter _

theorem mem_settled_iff {log : ListenerLog} {key : ListenerKey} :
    key ∈ log.settled ↔ log.has key = true := by
  rw [settled, List.mem_filter]
  refine and_iff_right_of_imp fun recorded => ?_
  obtain ⟨e, found⟩ := has_iff.mp recorded
  by_contra absent
  rw [(Entries.find?_eq_none_iff ..).mpr absent] at found
  cases found

/-- There is one record under each of these keys. -/
theorem length_settled (log : ListenerLog) : log.settled.length = log.size := by
  have shown : ∀ e ∈ log.slots.toList, log.has e.1 = (record? e.2).isSome := by
    intro e mem
    have found : log.slots.find? e.1 = some e.2 := Entries.lookup_of_mem log.slots.nodup_keys mem
    simp only [has, found]
    cases e.2 <;> rfl
  rw [settled, Entries.keys, List.filter_map, List.length_map, ← List.countP_eq_length_filter, size,
    handled, Entries.values, List.filterMap_map, List.length_filterMap_eq_countP]
  refine List.countP_congr fun e mem => ?_
  rw [Function.comp_apply, shown e mem]
  rfl

/-- A log with a record more for each of these keys. -/
theorem size_of_settled {log log' : ListenerLog} {keys : List ListenerKey} (once : keys.Nodup)
    (new : ∀ key ∈ keys, log.has key = false)
    (each : ∀ key, log'.has key = true ↔ log.has key = true ∨ key ∈ keys) :
    log'.size = log.size + keys.length := by
  rw [← length_settled, ← length_settled, ← List.length_append]
  refine List.Perm.length_eq ?_
  refine (List.perm_ext_iff_of_nodup log'.nodup_settled ?_).mpr fun key => ?_
  · refine List.nodup_append.mpr ⟨log.nodup_settled, once, ?_⟩
    rintro key mem _ listed rfl
    rw [mem_settled_iff, new key listed] at mem
    cases mem
  · rw [List.mem_append, mem_settled_iff, mem_settled_iff, each]

end ListenerLog

/-- Whatever the repositories know by an identifier, the identifier was drawn. -/
structure World.Known (a : Ambient) (w : World) : Prop where
  message : ∀ id m, w.messages.find? id = some m → ∃ i < w.draws, id = a.ids i
  event : ∀ key slot, w.log.slots.find? key = some slot →
    ∃ i < w.draws, key.eventId = toString (a.ids i)

/-- What has become known was known before, or belongs to an identifier that was drawn. -/
theorem World.Known.later {a : Ambient} {w w' : World} (known : w.Known a)
    (grown : w.draws ≤ w'.draws)
    (messages : ∀ id m, w'.messages.find? id = some m →
      w.messages.find? id ≠ none ∨ ∃ i < w'.draws, id = a.ids i)
    (events : ∀ key slot, w'.log.slots.find? key = some slot →
      w.log.slots.find? key ≠ none ∨ ∃ i < w'.draws, key.eventId = toString (a.ids i)) :
    w'.Known a where
  message id m found := by
    rcases messages id m found with old | new
    · obtain ⟨m₀, began⟩ := Option.ne_none_iff_exists'.mp old
      obtain ⟨i, before, named⟩ := known.message id m₀ began
      exact ⟨i, Nat.lt_of_lt_of_le before grown, named⟩
    · exact new
  event key slot found := by
    rcases events key slot found with old | new
    · obtain ⟨slot₀, began⟩ := Option.ne_none_iff_exists'.mp old
      obtain ⟨i, before, named⟩ := known.event key slot₀ began
      exact ⟨i, Nat.lt_of_lt_of_le before grown, named⟩
    · exact new

/-- What a world holds while nothing is cancelled. -/
structure Books (a : Ambient) (w : World) (ms : List Message) (records draws : Nat) : Prop where
  running : w.cancelled = false
  known : w.Known a
  messages : w.messages.toList.Perm ms
  records : w.log.size = records
  draws : w.draws = draws

namespace Books

variable {a : Ambient} {w : World} {ms ms' : List Message} {m n : Message} {records draws : Nat}

/-- The same, told otherwise. -/
theorem recount (books : Books a w ms records draws) {records' draws' : Nat}
    (perm : ms.Perm ms') (sameRecords : records = records') (sameDraws : draws = draws') :
    Books a w ms' records' draws' := by
  subst sameRecords sameDraws
  exact { books with messages := books.messages.trans perm }

/-- The clock is read. -/
theorem read (books : Books a w ms records draws) (readings : Nat) :
    Books a { w with readings } ms records draws :=
  ⟨books.running, ⟨books.known.message, books.known.event⟩, books.messages, books.records,
    books.draws⟩

theorem draw (books : Books a w ms records draws) :
    Books a { w with draws := w.draws + 1 } ms records (draws + 1) := by
  refine ⟨books.running, books.known.later (Nat.le_succ _) ?_ ?_, books.messages, books.records,
    congrArg (· + 1) books.draws⟩
  · exact fun id m found => .inl (Option.ne_none_iff_exists'.mpr ⟨m, found⟩)
  · exact fun key slot found => .inl (Option.ne_none_iff_exists'.mpr ⟨slot, found⟩)

theorem find? (books : Books a w ms records draws) (mem : m ∈ ms) :
    w.messages.find? m.id = some m :=
  (MessageStore.find?_iff_of_perm books.messages).mpr mem

theorem drawn (books : Books a w ms records draws) (mem : m ∈ ms) :
    ∃ i < draws, m.id = a.ids i := by
  rw [← books.draws]
  exact books.known.message m.id m (books.find? mem)

section Distinct

variable {k : Nat} (distinct : ∀ j < k, ∀ i < j, a.ids i ≠ a.ids j)

include distinct

theorem vacant (books : Books a w ms records draws) {i : Nat} (later : draws ≤ i)
    (few : i < k) : w.messages.find? (a.ids i) = none := by
  cases found : w.messages.find? (a.ids i) with
  | none => rfl
  | some m =>
      obtain ⟨j, before, same⟩ := books.known.message _ _ found
      rw [books.draws] at before
      exact absurd same.symm (distinct i few j (by omega))

theorem fresh (books : Books a w ms records draws) {l : Nat} (few : draws + l ≤ k) :
    w.Fresh a l := by
  rw [← books.draws] at few
  refine ⟨fun j inside i before => distinct _ (by omega) _ (by omega), fun i inside kind => ?_⟩
  cases found : w.log.slots.find? ⟨toString (a.ids (w.draws + i)), Listener.signature kind⟩ with
  | none => rfl
  | some slot =>
      obtain ⟨j, before, same⟩ := books.known.event _ _ found
      exact absurd (Uuid.toString_inj.mp same).symm (distinct _ (by omega) j (by omega))

variable (config : ServiceConfig) (source : String)

theorem run_emit {p : Payload} (books : Books a w ms records draws) (few : draws + 2 ≤ k)
    (done : (p.written.deed (a.clock w.readings)).effect w.messages (a.clock (w.readings + 1)) =
      .done (.ok m))
    (own : ∃ i < draws, m.id = a.ids i) (puts : (w.messages.put m).toList.Perm ms') :
    ∃ w', ((Service.inPlace config).emit source p).run a w = (.done (.ok m), w') ∧
      Books a w' ms' (records + 1) (draws + 2) := by
  have vacant := (books.fresh distinct few).vacant 0 (by decide) p.kind
  obtain ⟨h, lines, readings, about, ran⟩ :=
    Service.run_emit_of_ok config source books.running vacant done
  have new : w.log.slots.find? (ListenerLog.keyOf h) = none := by rwa [about.keyOf]
  refine ⟨_, ran, books.running, books.known.later (Nat.le_add_right _ 2) ?_ ?_, puts, ?_, ?_⟩
  · intro id l found
    simp only at found ⊢
    rw [MessageStore.find?_put] at found
    split at found
    · rename_i same
      obtain ⟨i, before, named⟩ := own
      exact .inr ⟨i, by rw [books.draws]; omega, same.trans named⟩
    · exact .inl (Option.ne_none_iff_exists'.mpr ⟨l, found⟩)
  · intro key slot found
    simp only at found ⊢
    rw [ListenerLog.find?_settle] at found
    split at found
    · rename_i same
      refine .inr ⟨w.draws, by omega, ?_⟩
      rw [same]
      exact about.1
    · exact .inl (Option.ne_none_iff_exists'.mpr ⟨slot, found⟩)
  · rw [← books.records]
    exact (ListenerLog.handled_settle fun h found => nomatch new.symm.trans found).length_eq
  · exact congrArg (· + 2) books.draws

theorem run_create (books : Books a w ms records draws) (few : draws + 3 ≤ k)
    {direction : Direction} (payload : Uuid → Payload) {data : Uuid → NewMessage}
    (deed : ∀ id time, (payload id).written.deed time = .create direction (data id))
    (own : ∀ id, (data id).id = id) :
    ∃ m w', (Program.freshId >>= fun id =>
        (Service.inPlace config).emit source (payload id)).run a w = (.done (.ok m), w') ∧
      (∃ now, m = .created direction (data (a.ids draws)) now) ∧
      Books a w' (m :: ms) (records + 1) (draws + 3) := by
  have vacant : w.messages.find? (data (a.ids draws)).id = none := by
    rw [own]
    exact books.vacant distinct (Nat.le_refl draws) (by omega)
  have done : ((payload (a.ids draws)).written.deed (a.clock w.readings)).effect w.messages
      (a.clock (w.readings + 1)) =
        .done (.ok (.created direction (data (a.ids draws)) (a.clock (w.readings + 1)))) := by
    rw [deed]
    exact Deed.effect_create_of_vacant _ direction vacant
  have named : (Message.created direction (data (a.ids draws)) (a.clock (w.readings + 1))).id =
      a.ids draws := by
    rw [Message.created_id, own]
  have puts := MessageStore.put_perm_of_vacant books.messages
    (m := .created direction (data (a.ids draws)) (a.clock (w.readings + 1)))
    (by rwa [Message.created_id])
  obtain ⟨w', ran, books'⟩ := run_emit distinct config source (p := payload (a.ids draws))
    books.draw few done ⟨draws, Nat.lt_succ_self draws, named⟩ puts
  refine ⟨_, w', ?_, ⟨_, rfl⟩, books'⟩
  rw [Program.run_freshId, books.draws]
  rw [books.draws] at ran
  exact ran

theorem run_move (books : Books a w (n :: ms) records draws) (few : draws + 2 ≤ k)
    (p : Payload) {step : Move} (deed : ∀ time, p.written.deed time = .move n.id step)
    (allowed : n.status ∈ step.allowed) (room : step.HasRoom n) :
    ∃ m w', ((Service.inPlace config).emit source p).run a w = (.done (.ok m), w') ∧
      (∃ now, m = step.result n now) ∧ Books a w' (m :: ms) (records + 1) (draws + 2) := by
  have done : (p.written.deed (a.clock w.readings)).effect w.messages (a.clock (w.readings + 1)) =
      .done (.ok (step.result n (a.clock (w.readings + 1)))) := by
    rw [deed]
    exact Deed.effect_move_of_hasRoom _ (books.find? List.mem_cons_self) allowed room
  have same := step.result_id n (a.clock (w.readings + 1))
  obtain ⟨i, before, named⟩ := books.drawn List.mem_cons_self
  obtain ⟨w', ran, books'⟩ := run_emit distinct config source books few done
    ⟨i, before, same.trans named⟩ (MessageStore.put_perm_of_stored books.messages same)
  exact ⟨_, w', ran, ⟨_, rfl⟩, books'⟩

end Distinct

end Books

end SmsTracking
