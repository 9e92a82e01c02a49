import Mathlib.Data.List.Chain
import Mathlib.Data.List.Induction
import SmsTracking.Proofs.Stores

/-!
What a message store replies in the course of many calls, whatever the messages are that it is given.
The writes under an identifier that took effect tell what is stored there (`tells_askAll`): they are one
creation and then updates, each of which counts the version of the one before it up by one. Main
statement: a store that has begun empty replies to every further call as the writes under the
identifier say (`store_lawful`).
-/

namespace SmsTracking

/-- What a message store can be asked. -/
inductive StoreCall where
  | store (m : Message)
  | update (m : Message)
  | load (id : Uuid)
  | index (owner contact : String) (page : Page)
  | outstanding (limit : UInt64)

inductive StoreReply where
  | stored (r : Except DomainError Unit)
  | updated (u : Update)
  | loaded (r : Except DomainError Message)
  | listed (ms : List Message)

namespace StoreCall

/-- The message that is to be written. -/
def message? : StoreCall → Option Message
  | store m | update m => some m
  | load _ | index _ _ _ | outstanding _ => none

def writesTo (c : StoreCall) (id : Uuid) : Bool := c.message?.any (·.id = id)

end StoreCall

/-- Something was written. -/
def StoreReply.tookEffect : StoreReply → Bool
  | stored (.ok _) | updated .done => true
  | stored (.error _) | updated (.refused _) | updated .overflow | loaded _ | listed _ => false

/-- The version of the second message is the successor of the version of the first one. -/
def Message.SucceededBy (m n : Message) : Prop := m.version.toNat + 1 = n.version.toNat

namespace MessageStore

def ask (s : MessageStore) : StoreCall → StoreReply × MessageStore
  | .store m => (.stored (s.store m).1, (s.store m).2)
  | .update m => (.updated (s.update m).1, (s.update m).2)
  | .load id => (.loaded (s.load id), s)
  | .index owner contact page => (.listed (s.index owner contact page), s)
  | .outstanding limit => (.listed (s.outstanding limit), s)

/-- The store after some calls. -/
def askAll (s : MessageStore) (calls : List StoreCall) : MessageStore :=
  calls.foldl (fun s c => (s.ask c).2) s

/-- The calls with their replies. -/
def replies (s : MessageStore) : List StoreCall → List (StoreCall × StoreReply)
  | [] => []
  | c :: calls => (c, (s.ask c).1) :: (s.ask c).2.replies calls

/-- The writes under an identifier that took effect, in their order. -/
def writes (id : Uuid) (past : List (StoreCall × StoreReply)) : List StoreCall :=
  (past.filter fun c => c.2.tookEffect && c.1.writesTo id).map (·.1)

/-- The message of the last write under an identifier that took effect. -/
def lastWritten (id : Uuid) (past : List (StoreCall × StoreReply)) : Option Message :=
  (writes id past).getLast?.bind StoreCall.message?

theorem askAll_append (s : MessageStore) (calls more : List StoreCall) :
    s.askAll (calls ++ more) = (s.askAll calls).askAll more :=
  List.foldl_append

theorem replies_append (s : MessageStore) (calls more : List StoreCall) :
    s.replies (calls ++ more) = s.replies calls ++ (s.askAll calls).replies more := by
  induction calls generalizing s with
  | nil => rfl
  | cons c calls ih => simp only [List.cons_append, replies, ih, askAll, List.foldl_cons]

theorem writes_append (id : Uuid) (past more : List (StoreCall × StoreReply)) :
    writes id (past ++ more) = writes id past ++ writes id more := by
  simp [writes]

theorem writes_singleton (id : Uuid) (c : StoreCall) (reply : StoreReply) :
    writes id [(c, reply)] = if reply.tookEffect && c.writesTo id then [c] else [] := by
  unfold writes
  rw [List.filter_singleton]
  cases reply.tookEffect && c.writesTo id <;> simp

/-! Updates, with versions as numbers -/

section Update

variable {s : MessageStore} {m n : Message}

theorem update_of_succeeded (found : s.find? m.id = some n) (next : n.SucceededBy m) :
    s.update m = (.done, s.put m) := by
  have next : n.version.toNat + 1 = m.version.toNat := next
  have last := m.version.toNat_lt_size
  refine update_of_successor found (by omega) (UInt64.toNat_inj.mp ?_)
  rw [UInt64.toNat_add, ← next]
  exact Nat.mod_eq_of_lt (Nat.lt_of_le_of_lt (Nat.le_of_eq next) last)

theorem update_of_vacant (vacant : s.find? m.id = none) :
    s.update m = (.refused (.noMessage m.id), s) := by
  simp only [update, vacant]

theorem update_of_last (found : s.find? m.id = some n)
    (last : n.version.toNat + 1 = UInt64.size) : s.update m = (.overflow, s) := by
  simp only [update, found, if_pos last]

theorem update_of_stale (found : s.find? m.id = some n)
    (room : n.version.toNat + 1 ≠ UInt64.size) (stale : ¬ n.SucceededBy m) :
    s.update m = (.refused (.versionConflict m.id (precedingVersion m) n.version), s) := by
  have other : n.version + 1 ≠ m.version := by
    intro same
    refine stale ?_
    have below := n.version.toNat_lt_size
    rw [Message.SucceededBy, ← same, UInt64.toNat_add]
    exact (Nat.mod_eq_of_lt (Nat.lt_of_le_of_ne below room)).symm
  simp only [update, found, if_neg room, if_neg other]

end Update

/-! One call -/

/-- A call creates a message, or it replaces one by its successor, or nothing changes. -/
theorem ask_cases (s : MessageStore) (c : StoreCall) :
    (∃ m, c = .store m ∧ s.find? m.id = none ∧ s.ask c = (.stored (.ok ()), s.put m)) ∨
      (∃ m n, c = .update m ∧ s.find? m.id = some n ∧ n.SucceededBy m ∧
        s.ask c = (.updated .done, s.put m)) ∨
      ((s.ask c).1.tookEffect = false ∧ (s.ask c).2 = s) := by
  cases c with
  | load id => exact .inr (.inr ⟨rfl, rfl⟩)
  | index owner contact page => exact .inr (.inr ⟨rfl, rfl⟩)
  | outstanding limit => exact .inr (.inr ⟨rfl, rfl⟩)
  | store m =>
      cases found : s.find? m.id with
      | none => exact .inl ⟨m, rfl, found, by simp only [ask, store_of_vacant found]⟩
      | some n =>
          have asked : s.ask (.store m) = (.stored (.error (.messageExists m.id)), s) := by
            simp only [ask, store_of_present found]
          exact .inr (.inr (by rw [asked]; exact ⟨rfl, rfl⟩))
  | update m =>
      have asked {u : Update} (updated : s.update m = (u, s)) : s.ask (.update m) = (.updated u, s) := by
        simp only [ask, updated]
      cases found : s.find? m.id with
      | none =>
          rw [asked (update_of_vacant found)]
          exact .inr (.inr ⟨rfl, rfl⟩)
      | some n =>
          by_cases next : n.SucceededBy m
          · exact .inr (.inl ⟨m, n, rfl, found, next, by simp only [ask, update_of_succeeded found next]⟩)
          · by_cases last : n.version.toNat + 1 = UInt64.size
            · rw [asked (update_of_last found last)]
              exact .inr (.inr ⟨rfl, rfl⟩)
            · rw [asked (update_of_stale found last next)]
              exact .inr (.inr ⟨rfl, rfl⟩)

theorem unchanged_of_no_effect {s : MessageStore} {c : StoreCall}
    (failed : (s.ask c).1.tookEffect = false) : (s.ask c).2 = s := by
  rcases s.ask_cases c with ⟨m, _, _, asked⟩ | ⟨m, n, _, _, _, asked⟩ | ⟨_, same⟩
  · rw [asked] at failed
    cases failed
  · rw [asked] at failed
    cases failed
  · exact same

/-- What a call can change stands under the identifier of the message that it writes. -/
theorem erase_ask {s : MessageStore} {c : StoreCall} {m : Message} (writes : c.message? = some m) :
    (s.ask c).2.entries.erase m.id = s.entries.erase m.id := by
  rcases s.ask_cases c with ⟨n, rfl, _, asked⟩ | ⟨n, _, rfl, _, _, asked⟩ | ⟨_, same⟩
  · cases writes
    rw [asked]
    exact Entries.erase_insert ..
  · cases writes
    rw [asked]
    exact Entries.erase_insert ..
  · rw [same]

theorem find?_ask_of_ne {s : MessageStore} {c : StoreCall} {id : Uuid}
    (other : c.writesTo id = false) : (s.ask c).2.find? id = s.find? id := by
  rcases s.ask_cases c with ⟨m, rfl, _, asked⟩ | ⟨m, _, rfl, _, _, asked⟩ | ⟨_, same⟩
  · rw [asked, find?_put, if_neg (by simpa [StoreCall.writesTo, StoreCall.message?, eq_comm] using other)]
  · rw [asked, find?_put, if_neg (by simpa [StoreCall.writesTo, StoreCall.message?, eq_comm] using other)]
  · rw [same]

/-! The history of an identifier -/

/-- One message was created and then replaced by these, each of them the successor of the last. -/
structure Chronicle (ws : List StoreCall) (first : Message) (later : List Message) : Prop where
  writes_eq : ws = .store first :: later.map .update
  chain : (first :: later).IsChain Message.SucceededBy

/-- What is found under an identifier tells of the writes there. -/
def Tells (ws : List StoreCall) : Option Message → Prop
  | none => ws = []
  | some m => ∃ first later, Chronicle ws first later ∧ (first :: later).getLast? = some m

theorem Tells.ask {s : MessageStore} {id : Uuid} {past : List (StoreCall × StoreReply)}
    (tells : Tells (writes id past) (s.find? id)) (c : StoreCall) :
    Tells (writes id (past ++ [(c, (s.ask c).1)])) ((s.ask c).2.find? id) := by
  rw [writes_append, writes_singleton]
  by_cases own : c.writesTo id = true
  · rcases s.ask_cases c with ⟨m, rfl, vacant, asked⟩ | ⟨m, n, rfl, found, next, asked⟩ | ⟨failed, same⟩
    · obtain rfl : m.id = id := by simpa [StoreCall.writesTo, StoreCall.message?] using own
      rw [vacant] at tells
      have none : writes m.id past = [] := tells
      rw [asked, none, own, find?_put, if_pos rfl]
      exact ⟨m, [], ⟨rfl, List.isChain_singleton m⟩, rfl⟩
    · obtain rfl : m.id = id := by simpa [StoreCall.writesTo, StoreCall.message?] using own
      rw [found] at tells
      obtain ⟨first, later, ⟨made, chain⟩, last⟩ := tells
      rw [asked, made, own, find?_put, if_pos rfl]
      refine ⟨first, later ++ [m], ⟨?_, ?_⟩, ?_⟩
      · simp [StoreReply.tookEffect]
      · refine chain.append (List.isChain_singleton m) fun x mem y single => ?_
        rw [last] at mem
        cases mem
        cases single
        exact next
      · rw [← List.cons_append, List.getLast?_concat]
    · rw [same, failed]
      simpa using tells
  · have other : c.writesTo id = false := by simpa using own
    rw [find?_ask_of_ne other, other]
    simpa using tells

theorem tells_askAll (calls : List StoreCall) (id : Uuid) :
    Tells (writes id ((∅ : MessageStore).replies calls)) (((∅ : MessageStore).askAll calls).find? id) := by
  induction calls using List.reverseRecOn with
  | nil => exact rfl
  | append_singleton calls c ih =>
      rw [replies_append, askAll_append]
      exact ih.ask c

theorem version_of_chain {first last : Message} {later : List Message}
    (chain : (first :: later).IsChain Message.SucceededBy)
    (ends : (first :: later).getLast? = some last) :
    last.version.toNat = first.version.toNat + later.length := by
  induction later generalizing first with
  | nil =>
      cases ends
      rfl
  | cons m later ih =>
      rw [List.isChain_cons_cons] at chain
      rw [List.getLast?_cons_cons] at ends
      have counted : first.version.toNat + 1 = m.version.toNat := chain.1
      rw [ih chain.2 ends, List.length_cons]
      omega

theorem getLast?_writes (first : Message) (later : List Message) :
    (StoreCall.store first :: later.map .update).getLast?.bind StoreCall.message? =
      (first :: later).getLast? := by
  cases later using List.reverseRecOn with
  | nil => rfl
  | append_singleton later m =>
      rw [List.map_append, ← List.cons_append, ← List.cons_append, List.map_singleton,
        List.getLast?_concat, List.getLast?_concat]
      rfl

/-- What is stored under an identifier is what was written there last. -/
theorem find?_askAll (calls : List StoreCall) (id : Uuid) :
    ((∅ : MessageStore).askAll calls).find? id = lastWritten id ((∅ : MessageStore).replies calls) := by
  have tells := tells_askAll calls id
  cases found : ((∅ : MessageStore).askAll calls).find? id with
  | none =>
      rw [found] at tells
      have none : writes id ((∅ : MessageStore).replies calls) = [] := tells
      rw [lastWritten, none]
      rfl
  | some m =>
      rw [found] at tells
      obtain ⟨first, later, ⟨made, _⟩, last⟩ := tells
      rw [lastWritten, made, getLast?_writes]
      exact last.symm

/-! Versions do not fall -/

theorem version_le_ask {s : MessageStore} {id : Uuid} {m : Message} (found : s.find? id = some m)
    (c : StoreCall) : ∃ n, (s.ask c).2.find? id = some n ∧ m.version.toNat ≤ n.version.toNat := by
  rcases s.ask_cases c with ⟨l, rfl, vacant, asked⟩ | ⟨l, n, rfl, before, next, asked⟩ | ⟨_, same⟩
  · have other : id ≠ l.id := by
      rintro rfl
      rw [vacant] at found
      cases found
    rw [asked, find?_put, if_neg other]
    exact ⟨m, found, Nat.le_refl m.version.toNat⟩
  · rw [asked, find?_put]
    by_cases own : id = l.id
    · subst own
      rw [before] at found
      cases found
      have next : m.version.toNat + 1 = l.version.toNat := next
      exact ⟨l, if_pos rfl, by omega⟩
    · exact ⟨m, (if_neg own).trans found, Nat.le_refl m.version.toNat⟩
  · rw [same]
    exact ⟨m, found, Nat.le_refl m.version.toNat⟩

theorem version_le_askAll {s : MessageStore} {id : Uuid} {m : Message} (found : s.find? id = some m)
    (calls : List StoreCall) :
    ∃ n, (s.askAll calls).find? id = some n ∧ m.version.toNat ≤ n.version.toNat := by
  induction calls generalizing s m with
  | nil => exact ⟨m, found, Nat.le_refl _⟩
  | cons c calls ih =>
      obtain ⟨n, next, le⟩ := version_le_ask found c
      obtain ⟨l, last, le'⟩ := ih next
      exact ⟨l, last, Nat.le_trans le le'⟩

theorem find?_of_updated {s : MessageStore} {m : Message}
    (done : (s.ask (.update m)).1 = .updated .done) :
    (∃ n, s.find? m.id = some n ∧ n.SucceededBy m) ∧ (s.ask (.update m)).2 = s.put m := by
  rcases s.ask_cases (.update m) with ⟨_, absurd, _⟩ | ⟨l, n, same, found, next, asked⟩ | ⟨failed, _⟩
  · cases absurd
  · cases same
    exact ⟨⟨n, found, next⟩, by rw [asked]⟩
  · rw [done] at failed
    cases failed

/-- Once an update has been made, no other one with the same version can be. -/
theorem not_updated_again {s : MessageStore} {m n : Message} (between : List StoreCall)
    (done : (s.ask (.update m)).1 = .updated .done) (own : n.id = m.id)
    (same : n.version = m.version) :
    (((s.ask (.update m)).2.askAll between).ask (.update n)).1 ≠ .updated .done := by
  intro again
  have found : (s.ask (.update m)).2.find? m.id = some m := by
    rw [(find?_of_updated done).2, find?_put, if_pos rfl]
  obtain ⟨current, stored, le⟩ := version_le_askAll found between
  obtain ⟨⟨l, before, next⟩, _⟩ := find?_of_updated again
  rw [own, stored] at before
  cases before
  have next : current.version.toNat + 1 = n.version.toNat := next
  rw [same] at next
  omega

end MessageStore

open MessageStore

/-- What is true of a store that has begun empty after these calls, and of its replies to others. -/
structure LawfulStore (calls : List StoreCall) : Prop where
  own : ∀ id m, ((∅ : MessageStore).askAll calls).find? id = some m → m.id = id
  history : ∀ id, writes id ((∅ : MessageStore).replies calls) = [] ∨
    ∃ first later, Chronicle (writes id ((∅ : MessageStore).replies calls)) first later
  version : ∀ id m, ((∅ : MessageStore).askAll calls).find? id = some m →
    ∃ first later, Chronicle (writes id ((∅ : MessageStore).replies calls)) first later ∧
      m.version.toNat = first.version.toNat + later.length
  loaded : ∀ id, (((∅ : MessageStore).askAll calls).ask (.load id)).1 =
    .loaded (match lastWritten id ((∅ : MessageStore).replies calls) with
      | some m => .ok m
      | none => .error (.noMessage id))
  stored : ∀ m, (((∅ : MessageStore).askAll calls).ask (.store m)).1 =
    .stored (match lastWritten m.id ((∅ : MessageStore).replies calls) with
      | some _ => .error (.messageExists m.id)
      | none => .ok ())
  updated : ∀ m, (((∅ : MessageStore).askAll calls).ask (.update m)).1 =
    .updated (match lastWritten m.id ((∅ : MessageStore).replies calls) with
      | none => .refused (.noMessage m.id)
      | some n =>
        if n.version.toNat + 1 = UInt64.size then .overflow
        else if n.version.toNat + 1 ≠ m.version.toNat then
          .refused (.versionConflict m.id (precedingVersion m) n.version)
        else .done)
  /-- Of two updates that were prepared from the same loaded version at most one is made. -/
  exclusive : ∀ before between m n loaded, calls = before ++ .update m :: between →
    n.id = m.id → m.version = loaded + 1 → n.version = loaded + 1 →
    (((∅ : MessageStore).askAll before).ask (.update m)).1 = .updated .done →
    (((∅ : MessageStore).askAll calls).ask (.update n)).1 ≠ .updated .done
  /-- A call that fails, or that only reads, leaves all as it was. -/
  unchanged : ∀ c, (((∅ : MessageStore).askAll calls).ask c).1.tookEffect = false →
    (((∅ : MessageStore).askAll calls).ask c).2 = (∅ : MessageStore).askAll calls
  /-- A write changes nothing but what stands under its own identifier. -/
  apart : ∀ c m, c.message? = some m →
    (((∅ : MessageStore).askAll calls).ask c).2.entries.erase m.id =
      ((∅ : MessageStore).askAll calls).entries.erase m.id

theorem store_lawful (calls : List StoreCall) : LawfulStore calls where
  own id m found := id_of_find? found
  history id := by
    have tells := tells_askAll calls id
    cases found : ((∅ : MessageStore).askAll calls).find? id with
    | none =>
        rw [found] at tells
        exact .inl tells
    | some m =>
        rw [found] at tells
        obtain ⟨first, later, chronicle, _⟩ := tells
        exact .inr ⟨first, later, chronicle⟩
  version id m found := by
    have tells := tells_askAll calls id
    rw [found] at tells
    obtain ⟨first, later, chronicle, last⟩ := tells
    exact ⟨first, later, chronicle, version_of_chain chronicle.chain last⟩
  loaded id := by
    rw [← find?_askAll]
    rfl
  stored m := by
    rw [← find?_askAll]
    cases found : ((∅ : MessageStore).askAll calls).find? m.id with
    | none => simp only [ask, store_of_vacant found]
    | some n => simp only [ask, store_of_present found]
  updated m := by
    rw [← find?_askAll]
    cases found : ((∅ : MessageStore).askAll calls).find? m.id with
    | none => simp only [ask, update_of_vacant found]
    | some n =>
        by_cases last : n.version.toNat + 1 = UInt64.size
        · simp only [ask, update_of_last found last, if_pos last]
        · by_cases next : n.version.toNat + 1 = m.version.toNat
          · simp only [ask, update_of_succeeded found next, if_neg last, if_neg (not_not_intro next)]
          · simp only [ask, update_of_stale found last next, if_neg last, if_pos next]
  exclusive := by
    rintro before between m n loaded rfl own prepared same done
    rw [askAll_append]
    exact not_updated_again between done own (same.trans prepared.symm)
  unchanged c failed := unchanged_of_no_effect failed
  apart c m writes := erase_ask writes

end SmsTracking
