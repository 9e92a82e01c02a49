import SmsTracking.Repository.ListenerLog
import SmsTracking.Repository.Messages

/-!
What becomes of a message store and of a listener log when they are asked. A store answers by what
it holds under the identifier alone. A claim that was taken and then recorded or released leaves
nothing behind but the record, or nothing at all.
-/

namespace SmsTracking

namespace Entries

variable {κ ν : Type}

theorem ext {m n : Entries κ ν} (h : m.toList = n.toList) : m = n := by
  cases m
  cases n
  cases h
  rfl

variable [DecidableEq κ]

theorem put_put (k : κ) (v w : ν) (es : List (κ × ν)) : put k v (put k w es) = put k v es := by
  induction es with
  | nil => simp [put]
  | cons e es ih =>
      obtain ⟨l, u⟩ := e
      by_cases h : l = k <;> simp [put, h, ih]

theorem filter_ne_put (k : κ) (v : ν) (es : List (κ × ν)) :
    (put k v es).filter (·.1 ≠ k) = es.filter (·.1 ≠ k) := by
  induction es with
  | nil => simp [put]
  | cons e es ih =>
      obtain ⟨l, u⟩ := e
      by_cases h : l = k
      · simp [put, h]
      · simp only [put, if_neg h]
        rw [List.filter_cons_of_pos (by simp [h]), List.filter_cons_of_pos (by simp [h]), ih]

theorem insert_insert (m : Entries κ ν) (k : κ) (v w : ν) :
    (m.insert k w).insert k v = m.insert k v :=
  ext (put_put k v w m.toList)

theorem erase_insert (m : Entries κ ν) (k : κ) (v : ν) : (m.insert k v).erase k = m.erase k :=
  ext (filter_ne_put k v m.toList)

theorem erase_of_find?_eq_none {m : Entries κ ν} {k : κ} (h : m.find? k = none) :
    m.erase k = m := by
  apply ext
  apply List.filter_eq_self.mpr
  intro e he
  have hk : k ∉ m.keys := (find?_eq_none_iff m k).mp h
  have : e.1 ≠ k := fun hek => hk (hek ▸ List.mem_map_of_mem he)
  simpa using this

/-- Of what is seen of the values, a new value that is seen takes the place of none that was. -/
theorem filterMap_put_perm {β : Type} (see : ν → Option β) {k : κ} {v : ν} {b : β}
    (seen : see v = some b) (es : List (κ × ν)) (unseen : ∀ w, es.lookup k = some w → see w = none) :
    (((put k v es).map (·.2)).filterMap see).Perm (b :: (es.map (·.2)).filterMap see) := by
  induction es with
  | nil => simp [put, seen]
  | cons e es ih =>
      obtain ⟨l, w⟩ := e
      by_cases h : l = k
      · have : see w = none := unseen w (by rw [lookup_pair, if_pos h.symm])
        simp [put, h, seen, this]
      · have rest := ih fun u hu => unseen u (by rw [lookup_pair, if_neg (Ne.symm h), hu])
        simp only [put, if_neg h, List.map_cons]
        cases hw : see w with
        | none => simpa [List.filterMap_cons, hw] using rest
        | some c =>
            simp only [List.filterMap_cons, hw]
            exact (rest.cons c).trans (.swap b c _)

end Entries

namespace MessageStore

theorem store_of_vacant {s : MessageStore} {m : Message} (h : s.find? m.id = none) :
    s.store m = (.ok (), s.put m) := by
  simp only [store, h]

theorem store_of_present {s : MessageStore} {m n : Message} (h : s.find? m.id = some n) :
    s.store m = (.error (.messageExists m.id), s) := by
  simp only [store, h]

theorem load_of_find? {s : MessageStore} {id : Uuid} {m : Message} (h : s.find? id = some m) :
    s.load id = .ok m := by
  simp only [load, h]

theorem load_of_vacant {s : MessageStore} {id : Uuid} (h : s.find? id = none) :
    s.load id = .error (.noMessage id) := by
  simp only [load, h]

theorem id_of_find? {s : MessageStore} {id : Uuid} {m : Message} (h : s.find? id = some m) :
    m.id = id :=
  s.id_eq_of_find? h

/-- Each message is there once. -/
theorem nodup_toList (s : MessageStore) : (s.toList.map (·.id)).Nodup := by
  have keys : s.toList.map (·.id) = s.entries.keys := by
    rw [toList, Entries.values, Entries.keys, List.map_map]
    apply List.map_congr_left
    intro e mem
    exact s.id_eq_of_find? (Entries.lookup_of_mem s.entries.nodup_keys mem)
  rw [keys]
  exact s.entries.nodup_keys

theorem nodup_outstanding (s : MessageStore) (limit : UInt64) :
    ((s.outstanding limit).map (·.id)).Nodup := by
  refine List.Nodup.sublist ((List.take_sublist ..).map _) ?_
  refine ((List.mergeSort_perm ..).map _).nodup_iff.mpr ?_
  exact s.nodup_toList.sublist (List.filter_sublist.map _)

theorem update_of_successor {s : MessageStore} {m current : Message}
    (h : s.find? m.id = some current) (room : current.version.toNat + 1 < UInt64.size)
    (next : current.version + 1 = m.version) : s.update m = (.done, s.put m) := by
  simp only [update, h, if_neg (Nat.ne_of_lt room), if_pos next]

theorem find?_of_load {s : MessageStore} {id : Uuid} {m : Message}
    (loaded : s.load id = .ok m) : s.find? id = some m := by
  unfold load at loaded
  split at loaded
  · cases loaded
    assumption
  · cases loaded

/-- An update is made, or else the store stays as it is. -/
theorem update_cases (s : MessageStore) (m : Message) :
    (∃ n, s.find? m.id = some n ∧ n.version + 1 = m.version ∧ s.update m = (.done, s.put m)) ∨
      (s.update m).1 ≠ .done ∧ (s.update m).2 = s := by
  unfold update
  split
  · exact .inr ⟨nofun, rfl⟩
  · rename_i n found
    split
    · exact .inr ⟨nofun, rfl⟩
    · split
      · rename_i next
        exact .inl ⟨n, found, next, rfl⟩
      · exact .inr ⟨nofun, rfl⟩

end MessageStore

namespace ListenerLog

theorem has_iff {log : ListenerLog} {key : ListenerKey} :
    log.has key = true ↔ ∃ e, log.slots.find? key = some (.handled e) := by
  unfold has
  split
  · rename_i e found
    exact iff_of_true rfl ⟨e, found⟩
  · rename_i other
    exact iff_of_false Bool.false_ne_true fun ⟨e, found⟩ => other e found

theorem claim_of_vacant {log : ListenerLog} {key : ListenerKey} (now : Instant)
    (h : log.slots.find? key = none) : log.claim key now = (.claimed, log.take key now) := by
  simp only [claim, h]

theorem claim_of_handled {log : ListenerLog} {key : ListenerKey} {e : HandledEvent} (now : Instant)
    (h : log.slots.find? key = some (.handled e)) :
    log.claim key now = (.alreadyHandled, log) := by
  simp only [claim, h]

theorem claim_of_running {log : ListenerLog} {key : ListenerKey} {claimedAt now : Instant}
    (h : log.slots.find? key = some (.inProgress claimedAt))
    (running : log.expired claimedAt now = false) : log.claim key now = (.inProgress, log) := by
  simp [claim, h, running]

theorem claim_of_expired {log : ListenerLog} {key : ListenerKey} {claimedAt now : Instant}
    (h : log.slots.find? key = some (.inProgress claimedAt))
    (lapsed : log.expired claimedAt now = true) :
    log.claim key now = (.claimed, log.take key now) := by
  simp [claim, h, lapsed]

@[simp]
theorem find?_take (log : ListenerLog) (key other : ListenerKey) (now : Instant) :
    (log.take key now).slots.find? other =
      if other = key then some (.inProgress now) else log.slots.find? other :=
  Entries.find?_insert ..

theorem record_take (log : ListenerLog) (e : HandledEvent) (now : Instant) :
    (log.take (keyOf e) now).record e =
      (true, { log with slots := log.slots.insert (keyOf e) (.handled e) }) := by
  simp only [record, find?_take, if_true]
  simp only [take, Entries.insert_insert]

theorem release_take (log : ListenerLog) (key : ListenerKey) (now : Instant) :
    (log.take key now).release key = { log with slots := log.slots.erase key } := by
  simp only [release, find?_take, if_true]
  simp only [take, Entries.erase_insert]

/-! A request about one key leaves the others alone, and the time to live -/

section Frame

variable (log : ListenerLog) (now : Instant) {key other : ListenerKey}

theorem find?_claim_of_ne (h : other ≠ key) :
    (log.claim key now).2.slots.find? other = log.slots.find? other := by
  unfold claim
  split
  · simp [h]
  · rfl
  · split
    · simp [h]
    · rfl

theorem find?_record_of_ne {e : HandledEvent} (h : other ≠ keyOf e) :
    (log.record e).2.slots.find? other = log.slots.find? other := by
  unfold record
  split
  · rfl
  · simp [h]

theorem find?_release_of_ne (h : other ≠ key) :
    (log.release key).slots.find? other = log.slots.find? other := by
  unfold release
  split
  · simp [h]
  · rfl

theorem timeToLive_claim (key : ListenerKey) :
    (log.claim key now).2.timeToLive = log.timeToLive := by
  unfold claim
  split
  · rfl
  · rfl
  · split <;> rfl

theorem timeToLive_record (e : HandledEvent) : (log.record e).2.timeToLive = log.timeToLive := by
  unfold record
  split <;> rfl

theorem timeToLive_release (key : ListenerKey) :
    (log.release key).timeToLive = log.timeToLive := by
  unfold release
  split <;> rfl

end Frame

end ListenerLog

end SmsTracking
