import SmsTracking.Message.Page
import SmsTracking.Repository.Entries
import SmsTracking.Text.Passage

/-!
Stored messages, each under its own identifier. A message is stored once and then updated only by
the successor of what is stored: the version must be one higher. Lists are sorted by the order
timestamp, and messages with the same one keep the order in which they were stored.
-/

namespace SmsTracking

structure MessageStore where
  entries : Entries Uuid Message := ∅
  id_eq_of_find? : ∀ {id m}, entries.find? id = some m → m.id = id := by simp

/-- What becomes of an update. -/
inductive Update where
  | done
  | refused (e : DomainError)
  /-- The stored version has no successor. -/
  | overflow

namespace MessageStore

instance : EmptyCollection MessageStore := ⟨{}⟩

instance : Inhabited MessageStore := ⟨∅⟩

/-- In the order in which they were stored. -/
def toList (s : MessageStore) : List Message := s.entries.values

def size (s : MessageStore) : Nat := s.entries.size

def find? (s : MessageStore) (id : Uuid) : Option Message := s.entries.find? id

def put (s : MessageStore) (m : Message) : MessageStore where
  entries := s.entries.insert m.id m
  id_eq_of_find? := by
    intro id n h
    rw [Entries.find?_insert] at h
    split at h
    · rename_i hid
      cases h
      exact hid.symm
    · exact s.id_eq_of_find? h

def store (s : MessageStore) (m : Message) : Except DomainError Unit × MessageStore :=
  match s.find? m.id with
  | some _ => (.error (.messageExists m.id), s)
  | none => (.ok (), s.put m)

def load (s : MessageStore) (id : Uuid) : Except DomainError Message :=
  match s.find? id with
  | some m => .ok m
  | none => .error (.noMessage id)

/-- The version that an update has to find: 0 has no predecessor and stands for itself. -/
def precedingVersion (m : Message) : UInt64 := if m.version = 0 then 0 else m.version - 1

def update (s : MessageStore) (m : Message) : Update × MessageStore :=
  match s.find? m.id with
  | none => (.refused (.noMessage m.id), s)
  | some current =>
    if current.version.toNat + 1 = UInt64.size then (.overflow, s)
    else if current.version + 1 = m.version then (.done, s.put m)
    else (.refused (.versionConflict m.id (precedingVersion m) current.version), s)

/-- Between the two numbers, with the text in its content. -/
def matching (s : MessageStore) (owner contact : String) (query : Option String) : List Message :=
  s.toList.filter fun m => m.owner = owner ∧ m.contact = contact ∧
    query.all fun q => Text.hasPassage q.toList m.content.toList

/-- One page of the matching messages, the latest first. -/
def index (s : MessageStore) (owner contact : String) (page : Page) : List Message :=
  let sorted := (s.matching owner contact page.query).mergeSort
    fun a b => b.orderTimestamp ≤ a.orderTimestamp
  (sorted.drop page.skip.toNat).take page.limit.toNat

/-- Up to `limit` messages that wait for a phone, the earliest first. -/
def outstanding (s : MessageStore) (limit : UInt64) : List Message :=
  let sorted := (s.toList.filter (·.isOutstanding)).mergeSort
    fun a b => a.orderTimestamp ≤ b.orderTimestamp
  sorted.take limit.toNat

@[simp]
theorem find?_put (s : MessageStore) (m : Message) (id : Uuid) :
    (s.put m).find? id = if id = m.id then some m else s.find? id :=
  s.entries.find?_insert m.id id m

end MessageStore

end SmsTracking
