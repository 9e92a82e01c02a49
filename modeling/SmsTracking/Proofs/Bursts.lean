import Mathlib.Data.List.Basic
import SmsTracking.Proofs.Stores
import SmsTracking.Routing.Engine

/-!
Bursts of events on a bus with an engine that takes all that waits for it before the next burst
comes. Of a burst that is too long for the bus the engine is told how much it has missed, and gets
the rest. Main statements: a stream that is drained yields what it yields item by item when it is
polled (`Bus.drain_of_poll`), and whatever comes of the bursts, the engine deals with the events
that the bus has held one after the other, in the order in which they were sent (`burstAll_eq`).
-/

namespace SmsTracking

section PowersOfTwo

open private Nat.nextPowerOfTwo.go from Init.Data.Nat.Power2.Basic

theorem double_le_of_lt {p m : Nat} (power : p.isPowerOfTwo) (other : m.isPowerOfTwo)
    (less : p < m) : p * 2 ≤ m := by
  obtain ⟨j, rfl⟩ := power
  obtain ⟨k, rfl⟩ := other
  rw [← Nat.pow_succ]
  exact Nat.pow_le_pow_right (by decide) ((Nat.pow_lt_pow_iff_right (by decide)).mp less)

theorem nextPowerOfTwo_go_least (n p : Nat) (positive : p > 0) (power : p.isPowerOfTwo)
    (least : ∀ m : Nat, m.isPowerOfTwo → n ≤ m → p ≤ m) :
    n ≤ Nat.nextPowerOfTwo.go n p positive ∧
      ∀ m : Nat, m.isPowerOfTwo → n ≤ m → Nat.nextPowerOfTwo.go n p positive ≤ m := by
  fun_induction Nat.nextPowerOfTwo.go n p positive with
  | case1 p positive less ih =>
      refine ih (Nat.isPowerOfTwo_mul_two_of_isPowerOfTwo power) ?_
      intro m other enough
      exact double_le_of_lt power other (Nat.lt_of_lt_of_le less enough)
  | case2 p positive enough => exact ⟨Nat.le_of_not_lt enough, least⟩

theorem nextPowerOfTwo_least (n : Nat) :
    n ≤ n.nextPowerOfTwo ∧ ∀ m : Nat, m.isPowerOfTwo → n ≤ m → n.nextPowerOfTwo ≤ m := by
  apply nextPowerOfTwo_go_least n 1 _ Nat.isPowerOfTwo_one
  intro m power _
  exact Nat.pos_of_isPowerOfTwo power

end PowersOfTwo

namespace Bus

/-- The bus after a burst; an event that is not sent is lost. -/
def sendAll (b : Bus) (es : List Envelope) : Bus :=
  es.foldl (fun b e => match b.send e with | .ok b => b | .error _ => b) b

/-- Those events of a burst that are held after all of them were sent. -/
def kept (capacity : Nat) (es : List Envelope) : List Envelope := es.drop (es.length - capacity)

/-- What a stream yields of a burst if nothing waited for it before. -/
def yield (capacity : Nat) (es : List Envelope) : List StreamItem :=
  (if capacity < es.length then [.lagged (es.length - capacity)] else []) ++
    (kept capacity es).map .event

/-- Nothing waits for the stream. -/
def IdleFor (b : Bus) (name : String) : Prop := b.streams.find? name = some b.sent.length

theorem idleFor_subscribe (b : Bus) (name : String) : (b.subscribe name).IdleFor name := by
  simp [IdleFor, subscribe]

/-- The least power of two that is not less than what was asked for. -/
theorem capacity_of_ofCapacity {n : Nat} {b : Bus} (given : ofCapacity n = .ok b) :
    b.capacity.isPowerOfTwo ∧ n ≤ b.capacity ∧
      ∀ m, m.isPowerOfTwo → n ≤ m → b.capacity ≤ m := by
  unfold ofCapacity at given
  split at given
  · cases given
  · split at given
    · cases given
    · cases given
      exact ⟨Nat.isPowerOfTwo_nextPowerOfTwo n, nextPowerOfTwo_least n⟩

theorem size_ne_zero {name : String} {b : Bus} (idle : b.IdleFor name) : b.streams.size ≠ 0 := by
  intro none
  have empty : b.streams.toList = [] := List.length_eq_zero_iff.mp none
  rw [IdleFor, Entries.find?, empty] at idle
  cases idle

theorem sendAll_eq {b : Bus} (size : b.streams.size ≠ 0) (es : List Envelope) :
    b.sendAll es = { b with sent := b.sent ++ es } := by
  induction es generalizing b with
  | nil => simp [sendAll]
  | cons e es ih =>
      have first : b.send e = .ok { b with sent := b.sent ++ [e] } := if_neg size
      have rest := ih (b := { b with sent := b.sent ++ [e] }) size
      simp only [sendAll, List.foldl_cons, first] at rest ⊢
      rw [rest]
      simp

/-- The bus after a burst of which nothing waits any more. -/
def past (b : Bus) (name : String) (es : List Envelope) : Bus :=
  { b with sent := b.sent ++ es }.advance name (b.sent.length + es.length)

theorem idleFor_past (b : Bus) (name : String) (es : List Envelope) :
    (b.past name es).IdleFor name := by
  simp [IdleFor, past, advance]

theorem drain_sendAll {name : String} {b : Bus} (idle : b.IdleFor name) (es : List Envelope) :
    (b.sendAll es).drain name = (yield b.capacity es, b.past name es) := by
  have position : ({ b with sent := b.sent ++ es } : Bus).streams.find? name = some b.sent.length :=
    idle
  rw [sendAll_eq (size_ne_zero idle)]
  simp only [drain, position, dropped, List.length_append, yield, kept, past]
  have missed : b.sent.length + es.length - b.capacity - b.sent.length =
      es.length - b.capacity := by
    omega
  have late : b.sent.length < b.sent.length + es.length - b.capacity ↔ b.capacity < es.length := by
    omega
  have next : max b.sent.length (b.sent.length + es.length - b.capacity) =
      b.sent.length + (es.length - b.capacity) := by
    omega
  simp only [missed, late, next, List.drop_append]
  simp

theorem capacity_past (b : Bus) (name : String) (es : List Envelope) :
    (b.past name es).capacity = b.capacity := rfl

/-- What a stream is drained of are the items that it yields one by one. -/
theorem drain_of_poll {name : String} {b b' : Bus} {item : StreamItem}
    (next : b.poll name = (some item, b')) :
    b.drain name = (item :: (b'.drain name).1, (b'.drain name).2) := by
  unfold poll at next
  split at next
  · cases next
  · rename_i position found
    split at next
    · rename_i late
      cases next
      have found' : (b.advance name b.dropped).streams.find? name = some b.dropped := by
        simp [advance]
      have dropped' : (b.advance name b.dropped).dropped = b.dropped := rfl
      simp only [drain, found, found', dropped', if_pos late, Nat.max_eq_right (Nat.le_of_lt late)]
      simp [advance, Entries.insert_insert]
    · rename_i kept
      split at next
      · rename_i e at_position
        cases next
        obtain ⟨inside, rfl⟩ := List.getElem?_eq_some_iff.mp at_position
        have here : max position b.dropped = position := by omega
        have later : max (position + 1) b.dropped = position + 1 := by omega
        have held : ¬ position + 1 < b.dropped := by omega
        have found' : (b.advance name (position + 1)).streams.find? name = some (position + 1) := by
          simp [advance]
        have dropped' : (b.advance name (position + 1)).dropped = b.dropped := rfl
        simp only [drain, found, found', dropped', if_neg kept, if_neg held, here, later]
        simp only [List.drop_eq_getElem_cons inside]
        simp only [advance, Entries.insert_insert, List.map_cons, List.nil_append]
      · cases next

end Bus

namespace Engine

variable {m : Type → Type} [Monad m] [MonadJournal m]

/-- A burst is sent, and the engine deals with all that waits for it. -/
def burst (g : Engine m) (b : Bus) (es : List Envelope) : m Bus := g.settle (b.sendAll es)

def burstAll (g : Engine m) (b : Bus) (bursts : List (List Envelope)) : m Bus :=
  bursts.foldlM g.burst b

/-- Deals with items in turn. -/
def deal (g : Engine m) (items : List StreamItem) : m Unit :=
  items.forM fun item => g.registry.react item g.concurrency

/-- What the stream of an engine yields of the bursts. -/
def given (capacity : Nat) (bursts : List (List Envelope)) : List StreamItem :=
  bursts.flatMap (Bus.yield capacity)

theorem burst_eq (g : Engine m) {b : Bus} (idle : b.IdleFor g.name) (es : List Envelope) :
    g.burst b es = (do
      g.deal (Bus.yield b.capacity es)
      pure (b.past g.name es)) := by
  rw [burst, settle, Bus.drain_sendAll idle, deal]

variable [LawfulMonad m]

theorem burstAll_eq (g : Engine m) {b : Bus} (idle : b.IdleFor g.name)
    (bursts : List (List Envelope)) :
    g.burstAll b bursts = (do
      g.deal (given b.capacity bursts)
      pure (bursts.foldl (fun b es => b.past g.name es) b)) := by
  induction bursts generalizing b with
  | nil => simp [burstAll, given, deal]
  | cons es bursts ih =>
      have rest := ih (b.idleFor_past g.name es)
      simp only [burstAll, b.capacity_past, given, deal] at rest
      simp only [burstAll, List.foldlM_cons, burst_eq g idle, bind_assoc, pure_bind, rest, given,
        deal, List.flatMap_cons, List.forM_eq_forM, List.forM_append, List.foldl_cons]

end Engine

end SmsTracking
