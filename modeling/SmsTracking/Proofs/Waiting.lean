import Mathlib.Data.List.Nodup
import SmsTracking.Proofs.Stores

/-!
The messages of a store that wait for a phone. Main statements: what is handed out waits
(`outstanding_subset`), and what is left behind is not earlier (`orderTimestamp_le_of_outstanding`).
-/

namespace SmsTracking

namespace Timestamp

theorem le_total (s t : Timestamp) : s ≤ t ∨ t ≤ s := by
  show ¬ (_ ∨ _) ∨ ¬ (_ ∨ _)
  omega

theorem le_trans {s t u : Timestamp} (first : s ≤ t) (second : t ≤ u) : s ≤ u := by
  have first : ¬ (_ ∨ _) := first
  have second : ¬ (_ ∨ _) := second
  show ¬ (_ ∨ _)
  omega

end Timestamp

namespace MessageStore

/-- The other store holds the same messages, in whatever order it lists them. -/
def Relists (s s' : MessageStore) : Prop := ∀ id, s'.find? id = s.find? id

/-- All messages that wait for a phone. -/
def waiting (s : MessageStore) : List Message := s.toList.filter (·.isOutstanding)

variable {s : MessageStore} {limit : UInt64} {m n : Message}

theorem mem_toList_iff : m ∈ s.toList ↔ s.find? m.id = some m := by
  constructor
  · intro mem
    obtain ⟨e, listed, rfl⟩ := List.mem_map.mp mem
    have found := Entries.lookup_of_mem s.entries.nodup_keys listed
    rw [← s.id_eq_of_find? found] at found
    exact found
  · intro found
    obtain ⟨before, after, listed, _⟩ := List.lookup_eq_some_iff.mp found
    have mem : (m.id, m) ∈ s.entries.toList := by simp [listed]
    exact List.mem_map_of_mem mem

theorem mem_waiting_iff : m ∈ s.waiting ↔ s.find? m.id = some m ∧ m.isOutstanding = true := by
  rw [waiting, List.mem_filter, mem_toList_iff]

theorem nodup_waiting (s : MessageStore) : (s.waiting.map (·.id)).Nodup :=
  s.nodup_toList.sublist (List.filter_sublist.map _)

theorem Relists.waiting_perm {s' : MessageStore} (relists : s.Relists s') :
    s'.waiting.Perm s.waiting := by
  refine (List.perm_ext_iff_of_nodup ?_ ?_).mpr fun m => ?_
  · exact List.Nodup.of_map _ s'.nodup_waiting
  · exact List.Nodup.of_map _ s.nodup_waiting
  · rw [mem_waiting_iff, mem_waiting_iff, relists m.id]

theorem mem_map_waiting_iff {id : Uuid} :
    id ∈ s.waiting.map (·.id) ↔ ∃ m, s.find? id = some m ∧ m.isOutstanding = true := by
  rw [List.mem_map]
  constructor
  · rintro ⟨m, waits, rfl⟩
    exact ⟨m, mem_waiting_iff.mp waits⟩
  · rintro ⟨m, found, waits⟩
    obtain rfl := id_of_find? found
    exact ⟨m, mem_waiting_iff.mpr ⟨found, waits⟩, rfl⟩

theorem length_outstanding (s : MessageStore) (limit : UInt64) :
    (s.outstanding limit).length = min limit.toNat s.waiting.length := by
  rw [outstanding, List.length_take, List.length_mergeSort]
  rfl

theorem outstanding_subset (s : MessageStore) (limit : UInt64) : s.outstanding limit ⊆ s.waiting :=
  fun _ mem => (List.mergeSort_perm ..).mem_iff.mp (List.mem_of_mem_take mem)

/-- The waiting messages, the earliest first. -/
def queue (s : MessageStore) : List Message :=
  s.waiting.mergeSort fun a b => a.orderTimestamp ≤ b.orderTimestamp

theorem sorted_queue (s : MessageStore) :
    s.queue.Pairwise fun a b => a.orderTimestamp ≤ b.orderTimestamp := by
  refine (List.pairwise_mergeSort ?_ ?_ _).imp of_decide_eq_true
  · intro a b c ab bc
    exact decide_eq_true (Timestamp.le_trans (of_decide_eq_true ab) (of_decide_eq_true bc))
  · intro a b
    simpa using Timestamp.le_total a.orderTimestamp b.orderTimestamp

/-- What is left behind is not earlier than what is handed out. -/
theorem orderTimestamp_le_of_outstanding (out : m ∈ s.outstanding limit) (waits : n ∈ s.waiting)
    (left : n ∉ s.outstanding limit) : m.orderTimestamp ≤ n.orderTimestamp := by
  have parts : s.outstanding limit ++ s.queue.drop limit.toNat = s.queue :=
    List.take_append_drop limit.toNat s.queue
  have sorted := s.sorted_queue
  have listed : n ∈ s.queue := (List.mergeSort_perm ..).mem_iff.mpr waits
  rw [← parts] at sorted listed
  exact (List.pairwise_append.mp sorted).2.2 m out n ((List.mem_append.mp listed).resolve_left left)

end MessageStore

end SmsTracking
