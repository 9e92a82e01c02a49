import SmsTracking.Event.Envelope
import SmsTracking.Repository.Entries

/-!
Which handlers an event goes to. A handler asks for events of one type, of several types or for all
events. Handlers of a type stand in the order in which they were bound to it, each name once: a
handler that is bound again moves to the end. Those that ask for all events come after them.
-/

namespace SmsTracking

/-- The events that a handler asks for. -/
inductive Interest where
  | one (type : String)
  | many (types : List String)
  | all

/-- A handler does its work in the monad `m`. -/
structure Handler (m : Type → Type) where
  name : String
  interest : Interest
  handle : Envelope → m (Except Cause Unit)

/-- How many handlers of one event run at the same time unless it is set. -/
def defaultHandlerConcurrency : Nat := 8

structure Registry (m : Type → Type) where
  bound : Entries String (List (Handler m)) := ∅
  general : Entries String (Handler m) := ∅

namespace Registry

variable {m : Type → Type}

instance : EmptyCollection (Registry m) := ⟨{}⟩

instance : Inhabited (Registry m) := ⟨∅⟩

/-- The handlers of a type, in order. -/
def boundTo (r : Registry m) (type : String) : List (Handler m) := (r.bound.find? type).getD []

/-- Puts a handler at the end, and takes out the one that had its name. -/
def rebind (hs : List (Handler m)) (h : Handler m) : List (Handler m) :=
  hs.filter (·.name ≠ h.name) ++ [h]

def bind (r : Registry m) (h : Handler m) (type : String) : Registry m :=
  { r with bound := r.bound.insert type (rebind (r.boundTo type) h) }

def register (r : Registry m) (h : Handler m) : Registry m :=
  match h.interest with
  | .one type => r.bind h type
  | .many types => types.foldl (fun r type => r.bind h type) r
  | .all => { r with general := r.general.insert h.name h }

def ofList (hs : List (Handler m)) : Registry m := hs.foldl register ∅

/-- The handlers that an event of the type goes to. -/
def matching (r : Registry m) (type : String) : List (Handler m) :=
  r.boundTo type ++ r.general.values

def isEmpty (r : Registry m) : Bool := r.bound.size = 0 ∧ r.general.size = 0

end Registry

end SmsTracking
