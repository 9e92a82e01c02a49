import SmsTracking.Proofs.Reachable
import SmsTracking.Proofs.Waiting

/-!
Threads of messages and their pages. A page is a slice of a list that holds every message of the
thread once, the latest first. No move changes what the list depends on, and a message that is
written again keeps its place in the store. Main statement: pages that are read one after the other
make up the thread as it was before, whatever is tried and confirmed meanwhile (`pages_stable`).
-/

namespace SmsTracking

/-- What no move changes of a message: all the rest is as if there had been none. -/
def Message.fixed (m : Message) : Message :=
  { m with
    status := .pending, version := 0, lastAttemptedAt := none, sendAttemptCount := 0
    sentAt := none, sendDurationMs := none, updatedAt := m.createdAt }

theorem Message.id_eq_of_fixed {m n : Message} (same : m.fixed = n.fixed) : m.id = n.id :=
  (congrArg Message.id same :)

theorem Move.fixed_result (move : Move) (m : Message) (now : Timestamp) :
    (move.result m now).fixed = m.fixed := by
  cases move <;> rfl

theorem Entries.map_put_of_eq {κ ν β : Type} [DecidableEq κ] (see : ν → β) {k : κ} {v w : ν}
    {es : List (κ × ν)} (found : es.lookup k = some w) (same : see w = see v) :
    ((put k v es).map (·.2)).map see = (es.map (·.2)).map see := by
  induction es with
  | nil => cases found
  | cons e es ih =>
      obtain ⟨l, u⟩ := e
      rw [lookup_pair] at found
      by_cases own : l = k
      · rw [if_pos own.symm] at found
        obtain rfl : u = w := Option.some.inj found
        simp [put, own, same]
      · rw [if_neg (Ne.symm own)] at found
        simp only [put, if_neg own, List.map_cons, ih found]

namespace MessageStore

/-- The messages between two numbers that have a text in their content, the latest first. -/
def thread (s : MessageStore) (owner contact : String) (query : Option String) : List Message :=
  (s.matching owner contact query).mergeSort fun a b => b.orderTimestamp ≤ a.orderTimestamp

/-- The list holds each stored message between the two numbers once that has the text in its
content, if a text is asked for, and a later message does not come behind an earlier one. -/
structure Lists (s : MessageStore) (owner contact : String) (query : Option String)
    (ms : List Message) : Prop where
  mem_iff : ∀ m, m ∈ ms ↔ s.find? m.id = some m ∧ m.owner = owner ∧ m.contact = contact ∧
    ∀ q, query = some q → q.toList <:+: m.content.toList
  once : (ms.map (·.id)).Nodup
  sorted : ms.Pairwise fun a b => b.orderTimestamp ≤ a.orderTimestamp

theorem lists_thread (s : MessageStore) (owner contact : String) (query : Option String) :
    s.Lists owner contact query (s.thread owner contact query) where
  mem_iff m := by
    rw [thread, (List.mergeSort_perm ..).mem_iff, matching, List.mem_filter, mem_toList_iff]
    cases query <;> simp [Text.hasPassage_iff]
  once := by
    refine ((List.mergeSort_perm ..).map _).nodup_iff.mpr ?_
    exact s.nodup_toList.sublist (List.filter_sublist.map _)
  sorted := by
    refine (List.pairwise_mergeSort ?_ ?_ _).imp of_decide_eq_true
    · intro a b c ab bc
      exact decide_eq_true (Timestamp.le_trans (of_decide_eq_true bc) (of_decide_eq_true ab))
    · intro a b
      simpa using Timestamp.le_total b.orderTimestamp a.orderTimestamp

theorem index_eq (s : MessageStore) (owner contact : String) (page : Page) :
    s.index owner contact page =
      ((s.thread owner contact page.query).drop page.skip.toNat).take page.limit.toNat :=
  rfl

theorem index_whole {s : MessageStore} {owner contact : String} {query : Option String}
    {limit : UInt64} (enough : (s.thread owner contact query).length ≤ limit.toNat) :
    s.index owner contact ⟨0, limit, query⟩ = s.thread owner contact query := by
  rw [index_eq]
  exact List.take_of_length_le enough

/-- The thread depends on nothing that a move changes. -/
theorem map_fixed_thread (s : MessageStore) (owner contact : String) (query : Option String) :
    (s.thread owner contact query).map Message.fixed =
      ((s.toList.map Message.fixed).filter fun m => m.owner = owner ∧ m.contact = contact ∧
        query.all fun q => Text.hasPassage q.toList m.content.toList).mergeSort
          fun a b => b.orderTimestamp ≤ a.orderTimestamp := by
  rw [List.filter_map]
  exact List.map_mergeSort fun a _ b _ => rfl

theorem map_fixed_put {s : MessageStore} {m n : Message} (found : s.find? m.id = some n)
    (same : n.fixed = m.fixed) :
    (s.put m).toList.map Message.fixed = s.toList.map Message.fixed :=
  Entries.map_put_of_eq Message.fixed found same

theorem fixed_mem_of_find? {s : MessageStore} {id : Uuid} {m : Message}
    (found : s.find? id = some m) : m.fixed ∈ s.toList.map Message.fixed := by
  obtain rfl := id_of_find? found
  exact List.mem_map_of_mem (mem_toList_iff.mpr found)

/-- What is fixed of a stored message can be told from its identifier. -/
theorem fixed_eq_of_mem {s : MessageStore} {m n : Message} (found : s.find? m.id = some n)
    (mem : m.fixed ∈ s.toList.map Message.fixed) : n.fixed = m.fixed := by
  obtain ⟨n', listed, same⟩ := List.mem_map.mp mem
  have found' := mem_toList_iff.mp listed
  rw [Message.id_eq_of_fixed same] at found'
  obtain rfl : n = n' := Option.some.inj (found.symm.trans found')
  exact same

end MessageStore

namespace Exchange

/-- The message that a load has found. -/
def recalled : Exchange → Option Message
  | ⟨.load _, .ok m⟩ => some m
  | _ => none

/-- The message that was created. -/
def created : Exchange → Option Message
  | ⟨.store m, .ok ()⟩ => some m
  | _ => none

end Exchange

/-- Nothing fixed changes: `known` is what is fixed of the messages that there are. -/
def Manners.faithful (known : List Message) : Manners where
  may
    | .update m => m.fixed ∈ known
    | _ => True
  given x := ∀ m, x.recalled = some m → m.fixed ∈ known
  read r reads := by
    cases r with
    | store _ | update _ => cases reads
    | _ => trivial
  create direction p now := trivial
  move id m move now recalled _ _ := by
    show (move.result m now).fixed ∈ known
    rw [move.fixed_result]
    exact recalled m rfl

theorem Manners.faithful_given_of_none {known : List Message} {x : Exchange}
    (none : x.recalled = none) : (faithful known).given x := by
  intro m recalled
  rw [none] at recalled
  cases recalled

/-- One request that creates no message. -/
theorem World.answer_faithful {a : Ambient} {w : World} {r : Request} {known : List Message}
    (stored : w.messages.toList.map Message.fixed = known) (may : (Manners.faithful known).may r)
    (creates : Exchange.created ⟨r, (w.answer a r).1⟩ = none) :
    (Manners.faithful known).given ⟨r, (w.answer a r).1⟩ ∧
      (w.answer a r).2.messages.toList.map Message.fixed = known := by
  cases r with
  | store m =>
      refine ⟨Manners.faithful_given_of_none rfl, ?_⟩
      cases found : w.messages.find? m.id with
      | some n =>
          simp only [answer, MessageStore.store_of_present found]
          exact stored
      | none =>
          simp only [answer, MessageStore.store_of_vacant found] at creates
          cases creates
  | update m =>
      refine ⟨Manners.faithful_given_of_none rfl, ?_⟩
      have mem : m.fixed ∈ known := may
      obtain ⟨n, found, -, done⟩ | ⟨-, same⟩ := w.messages.update_cases m
      · simp only [answer, done]
        rw [← stored] at mem
        rw [MessageStore.map_fixed_put found (MessageStore.fixed_eq_of_mem found mem)]
        exact stored
      · simp only [answer, same]
        exact stored
  | load id =>
      refine ⟨fun m recalled => ?_, stored⟩
      rw [← stored]
      cases found : w.messages.find? id with
      | none =>
          simp only [answer, MessageStore.load_of_vacant found] at recalled
          cases recalled
      | some n =>
          simp only [answer, MessageStore.load_of_find? found] at recalled
          cases recalled
          exact MessageStore.fixed_mem_of_find? found
  | publish e =>
      refine ⟨Manners.faithful_given_of_none rfl, ?_⟩
      simp only [answer, publish]
      split <;> exact stored
  | _ => exact ⟨Manners.faithful_given_of_none rfl, stored⟩

namespace Page

/-- The page of this number, of pages of `size` messages, counted from 0. -/
def nth (size : UInt64) (query : Option String) (number : Nat) : Page :=
  ⟨.ofNat (number * size.toNat), size, query⟩

end Page

namespace Turns

/-- The pages from this number on, each read after a further part of the schedule. -/
def pages (a : Ambient) (owner contact : String) (query : Option String) (size : UInt64) :
    Nat → List (List Turn) → Turns Reply → List (List Message)
  | _, [], _ => []
  | number, part :: parts, t =>
      (t.run a alone part).world.messages.index owner contact (.nth size query number) ::
        pages a owner contact query size (number + 1) parts (t.run a alone part)

variable {a : Ambient} {t : Turns Reply} {known : List Message}

theorem run_faithful (keeps : ∀ p ∈ t.programs, p.Keeps (.faithful known))
    (stored : t.world.messages.toList.map Message.fixed = known) (schedule : List Turn)
    (kept : ∀ e ∈ (t.run a alone schedule).exchanges, e.2.created = none) :
    (∀ p ∈ (t.run a alone schedule).programs, p.Keeps (.faithful known)) ∧
      (t.run a alone schedule).world.messages.toList.map Message.fixed = known :=
  run_keeps_manners (I := fun w => w.messages.toList.map Message.fixed = known)
    (K := fun x => x.created = none) keeps stored
    (fun _ _ stored may creates => World.answer_faithful stored may creates)
    (fun _ _ stored => stored) (fun _ stored => stored) schedule kept

theorem map_fixed_index {s : MessageStore} {full : List Message} {owner contact : String}
    {query : Option String} {size : UInt64} {number : Nat}
    (thread : (s.thread owner contact query).map Message.fixed = full)
    (small : number * size.toNat < UInt64.size) :
    (s.index owner contact (.nth size query number)).map Message.fixed =
      (full.drop (number * size.toNat)).take size.toNat := by
  have skip : (UInt64.ofNat (number * size.toNat)).toNat = number * size.toNat :=
    UInt64.toNat_ofNat_of_lt' small
  rw [MessageStore.index_eq, List.map_take, List.map_drop]
  simp only [Page.nth, thread, skip]

theorem map_fixed_pages (s : MessageStore) (owner contact : String) (query : Option String)
    {size : UInt64} {parts : List (List Turn)} (number : Nat)
    (keeps : ∀ p ∈ t.programs, p.Keeps (.faithful (s.toList.map Message.fixed)))
    (stored : t.world.messages.toList.map Message.fixed = s.toList.map Message.fixed)
    (kept : ∀ e ∈ (t.run a alone parts.flatten).exchanges, e.2.created = none)
    (fits : ∀ i < parts.length, (number + i) * size.toNat < UInt64.size) :
    (pages a owner contact query size number parts t).flatten.map Message.fixed =
      (((s.thread owner contact query).map Message.fixed).drop (number * size.toNat)).take
        (parts.length * size.toNat) := by
  induction parts generalizing t number with
  | nil => simp [pages]
  | cons part parts ih =>
      rw [List.flatten_cons, run_append] at kept
      have early : ∀ e ∈ (t.run a alone part).exchanges, e.2.created = none := fun e mem =>
        kept e (subset_exchanges_run a alone _ parts.flatten mem)
      obtain ⟨keeps', stored'⟩ := run_faithful keeps stored part early
      have thread : ((t.run a alone part).world.messages.thread owner contact query).map
          Message.fixed = (s.thread owner contact query).map Message.fixed := by
        rw [MessageStore.map_fixed_thread, MessageStore.map_fixed_thread, stored']
      have first : number * size.toNat < UInt64.size := fits 0 (Nat.succ_pos _)
      have later : ∀ i < parts.length, (number + 1 + i) * size.toNat < UInt64.size := by
        intro i inside
        rw [Nat.add_assoc, Nat.add_comm 1]
        exact fits (i + 1) (Nat.succ_lt_succ inside)
      rw [pages, List.flatten_cons, List.map_append, map_fixed_index thread first,
        ih (number + 1) keeps' stored' kept later, List.length_cons, Nat.succ_mul, Nat.succ_mul,
        Nat.add_comm (parts.length * _), List.take_add, List.drop_drop]

end Turns

/-- The pages of a thread are slices of a list of all its messages. -/
structure MessageStore.Paged (s : MessageStore) (owner contact : String) (query : Option String) :
    Prop where
  lists : s.Lists owner contact query (s.thread owner contact query)
  whole : ∀ limit : UInt64, (s.thread owner contact query).length ≤ limit.toNat →
    s.index owner contact ⟨0, limit, query⟩ = s.thread owner contact query
  slice : ∀ skip limit : UInt64, s.index owner contact ⟨skip, limit, query⟩ =
    ((s.thread owner contact query).drop skip.toNat).take limit.toNat

/-- Pages of a thread that are read while commands go on side by side, none of which creates a
message. -/
theorem pages_stable (a : Ambient) (config : ServiceConfig) (commands : List (Command × List Nat))
    (w : World) (owner contact : String) (query : Option String) (size : UInt64)
    (parts : List (List Turn)) (fits : ∀ i < parts.length, i * size.toNat < UInt64.size)
    (kept : ∀ e ∈ ((Turns.ofCommands config commands w).run a Turns.alone parts.flatten).exchanges,
      e.2.created = none) :
    (∀ s owner contact query, MessageStore.Paged s owner contact query) ∧
      (∀ q w, (Service.thread q).run a w =
        (.done (.ok (w.messages.index q.owner q.contact q.page)), w)) ∧
      let read := Turns.pages a owner contact query size 0 parts (.ofCommands config commands w)
      let full := w.messages.thread owner contact query
      read.flatten.map Message.fixed =
          (full.map Message.fixed).take (parts.length * size.toNat) ∧
        (full.length ≤ parts.length * size.toNat →
          read.flatten.map Message.fixed = full.map Message.fixed ∧
            (read.flatten.map (·.id)).Nodup) := by
  have taken := Turns.map_fixed_pages w.messages owner contact query 0
    (Turns.ofCommands_keeps config commands w) rfl kept (by simpa using fits)
  rw [Nat.zero_mul, List.drop_zero] at taken
  refine ⟨fun s owner contact query => ?_, fun q w => rfl, taken, fun enough => ?_⟩
  · exact ⟨s.lists_thread owner contact query, fun limit => MessageStore.index_whole,
      fun skip limit => rfl⟩
  · have whole := taken
    rw [List.take_of_length_le (by rwa [List.length_map])] at whole
    refine ⟨whole, ?_⟩
    have ids := congrArg (List.map Message.id) whole
    rw [List.map_map, List.map_map] at ids
    exact ids ▸ (w.messages.lists_thread owner contact query).once

/-- The first message of a page is tried before the next page is read. -/
theorem pages_stable_tried :
    let m (n : Nat) : Message :=
      .mobileTerminated ⟨⟨n⟩, "+1000", "+2000", "hi", .epoch⟩ .epoch
    let w : World := { messages := ((∅ : MessageStore).put (m 1)).put (m 2) }
    let a : Ambient := ⟨fun _ => .epoch, fun n => ⟨n⟩⟩
    let commands := [(Command.move ⟨1⟩ (.attempt .epoch), [])]
    let parts := [[], [.go 0, .go 0, .go 0]]
    let t := Turns.ofCommands {} commands w
    let read := Turns.pages a "+1000" "+2000" none 1 0 parts t
    (∀ i < parts.length, i * (1 : UInt64).toNat < UInt64.size) ∧
      (∀ e ∈ (t.run a Turns.alone parts.flatten).exchanges, e.2.created = none) ∧
      read.flatten.map Message.fixed =
        (w.messages.thread "+1000" "+2000" none).map Message.fixed := by
  intro m w a commands parts t read
  have fits : ∀ i < parts.length, i * (1 : UInt64).toNat < UInt64.size := by
    decide
  have kept : ∀ e ∈ (t.run a Turns.alone parts.flatten).exchanges, e.2.created = none := by
    decide
  obtain ⟨-, -, -, whole⟩ :=
    pages_stable a {} commands w "+1000" "+2000" none 1 parts fits kept
  have enough : (w.messages.thread "+1000" "+2000" none).length ≤ 2 * (1 : UInt64).toNat := by
    rw [MessageStore.thread, List.length_mergeSort]
    decide
  exact ⟨fits, kept, (whole enough).1⟩

end SmsTracking
