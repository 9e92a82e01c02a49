import SmsTracking.Proofs.Contention
import SmsTracking.Proofs.PollWorkers

/-!
The tries of messages, counted in two ways: by the workers that have written, and by what the store
says. A worker writes a try only of what is stored, and what has been tried is not selected any
more. Main statements: this stays so when a worker goes on (`Tallied.errand`), when a poll selects
(`Tallied.select`) and when a worker writes (`Tallied.write`).
-/

namespace SmsTracking

/-- The tries of a message, as they were written. -/
def triesOf (id : Uuid) (es : List (Nat × Exchange)) : List Message :=
  (es.filterMap fun e => e.2.written).filter (·.id = id)

theorem triesOf_append_of_none (id : Uuid) (es : List (Nat × Exchange)) (place : Nat) {x : Exchange}
    (nothing : x.written = none) : triesOf id (es ++ [(place, x)]) = triesOf id es := by
  simp [triesOf, nothing]

theorem triesOf_append_of_some (id : Uuid) (es : List (Nat × Exchange)) (place : Nat) {x : Exchange}
    {m : Message} (written : x.written = some m) :
    triesOf id (es ++ [(place, x)]) = triesOf id es ++ if m.id = id then [m] else [] := by
  by_cases own : m.id = id <;> simp [triesOf, written, own]

theorem Exchange.written_of_isAside {r : Request} (answer : r.Answer) (aside : r.isAside = true) :
    written ⟨r, answer⟩ = none := by
  cases r with
  | store | update | load | outstanding => cases aside
  | _ => rfl

theorem World.answer_messages_of_isAside (a : Ambient) (w : World) {r : Request}
    (aside : r.isAside = true) : (w.answer a r).2.messages = w.messages := by
  cases r with
  | store | update | load | outstanding => cases aside
  | publish e =>
      simp only [answer, publish]
      split <;> rfl
  | _ => rfl

namespace Errand

/-- The message that was loaded. -/
def message? : Errand → Option Message
  | loaded m | ready m _ => some m
  | idle | written => none

def isWritten : Errand → Bool
  | written => true
  | _ => false

theorem message?_next_of_isAside (errand : Errand) {r : Request} (answer : r.Answer)
    (aside : r.isAside = true) : (errand.next ⟨r, answer⟩).message? = errand.message? := by
  cases r with
  | store | update | load | outstanding => cases aside
  | _ => cases errand <;> rfl

theorem isWritten_next_of_isAside (errand : Errand) {r : Request} (answer : r.Answer)
    (aside : r.isAside = true) : (errand.next ⟨r, answer⟩).isWritten = errand.isWritten := by
  cases r with
  | store | update | load | outstanding => cases aside
  | _ => cases errand <;> rfl

theorem isWritten_next_load (errand : Errand) (id : Uuid) (answer : Except DomainError Message) :
    (errand.next ⟨.load id, answer⟩).isWritten = errand.isWritten := by
  cases errand <;> cases answer <;> rfl

/-- What a worker has loaded is the answer, or what it has loaded before. -/
theorem message?_next_load {errand : Errand} {id : Uuid} {answer : Except DomainError Message}
    {m : Message} (loaded : (errand.next ⟨.load id, answer⟩).message? = some m) :
    answer = .ok m ∨ errand.message? = some m := by
  cases answer with
  | error e => cases errand <;> exact .inr loaded
  | ok n =>
      cases errand with
      | written => exact .inr loaded
      | idle | loaded | ready =>
          cases loaded
          exact .inl rfl

end Errand

namespace Role

/-- A worker has written this message. -/
def hasWritten (id : Uuid) : Role → Bool
  | working _ id' errand => id' = id && errand.isWritten
  | asking _ | answered _ _ => false

end Role

theorem countP_hasWritten_le (roles : List Role) (id : Uuid) :
    roles.countP (·.hasWritten id) ≤ ((crew roles).filter (·.2 = id)).length := by
  induction roles with
  | nil => exact Nat.le_refl _
  | cons role roles ih =>
      rw [crew_cons, List.filter_append, List.length_append, List.countP_cons]
      have own : (if role.hasWritten id then 1 else 0) ≤
          (role.worker?.toList.filter (·.2 = id)).length := by
        cases role with
        | asking | answered => exact Nat.zero_le _
        | working poll id' errand =>
            by_cases same : id' = id
            · have mine : (Role.working poll id' errand).worker?.toList.filter (·.2 = id) =
                  [(poll, id')] := by simp [Role.worker?, same]
              rw [mine, List.length_singleton]
              split <;> omega
            · simp [Role.hasWritten, same]
      omega

/-- The message is what is stored under its identifier, or older. -/
def MessageStore.HasHeld (s : MessageStore) (m : Message) : Prop :=
  ∃ n, s.find? m.id = some n ∧ m.version.toNat ≤ n.version.toNat ∧ (m.version = n.version → m = n)

/-- What was tried can be told from the workers and from the store. -/
structure Tallied (w₀ w : World) (es : List (Nat × Exchange)) (roles : List Role) : Prop where
  beforehand : es.Pairwise fun x y => ∀ m ms,
    x.2.written = some m → y.2.selected = some ms → m.id ∉ ms.map (·.id)
  tries : ∀ id, (triesOf id es).length = roles.countP (·.hasWritten id)
  vacant : ∀ id, w₀.messages.find? id = none → w.messages.find? id = none
  stored : ∀ id m₀, w₀.messages.find? id = some m₀ → ∃ m, w.messages.find? id = some m ∧
    m.sendAttemptCount.toNat = m₀.sendAttemptCount.toNat + (triesOf id es).length ∧
    (triesOf id es ≠ [] → m.status = .sending)
  held : ∀ poll id errand m, .working poll id errand ∈ roles → errand.message? = some m →
    m.id = id ∧ w.messages.HasHeld m

theorem countP_set_add {α : Type} (p : α → Bool) {l : List α} {i : Nat} {x : α}
    (found : l[i]? = some x) (y : α) :
    (l.set i y).countP p + (if p x then 1 else 0) = l.countP p + if p y then 1 else 0 := by
  induction l generalizing i with
  | nil => cases found
  | cons z l ih =>
      cases i with
      | zero =>
          cases found
          simp only [List.set_cons_zero, List.countP_cons]
          omega
      | succ i =>
          have rest := ih found
          simp only [List.set_cons_succ, List.countP_cons]
          omega

namespace Tallied

variable {w₀ w w' : World} {es : List (Nat × Exchange)} {roles : List Role} {place : Nat}
  {x : Exchange}

theorem pairwise_append (tallied : Tallied w₀ w es roles)
    (apart : ∀ ms, x.selected = some ms → ∀ m ∈ ms, triesOf m.id es = []) :
    (es ++ [(place, x)]).Pairwise fun x y => ∀ m ms,
      x.2.written = some m → y.2.selected = some ms → m.id ∉ ms.map (·.id) := by
  refine List.pairwise_append.mpr ⟨tallied.beforehand, List.pairwise_singleton .., ?_⟩
  intro y tried _ last m ms written selected listed
  obtain rfl := List.mem_singleton.mp last
  obtain ⟨n, mem, named⟩ := List.mem_map.mp listed
  have tries : m ∈ triesOf n.id es :=
    List.mem_filter.mpr ⟨List.mem_filterMap.mpr ⟨y, tried, written⟩, by simp [named]⟩
  rw [apart ms selected n mem] at tries
  cases tries

/-- A worker goes on with its errand and changes no message. -/
theorem errand (tallied : Tallied w₀ w es roles) {poll : Nat} {id : Uuid} {errand errand' : Errand}
    (found : roles[place]? = some (.working poll id errand)) (unselected : x.selected = none)
    (unwritten : x.written = none) (messages : w'.messages = w.messages)
    (same : errand'.isWritten = errand.isWritten)
    (held : ∀ m, errand'.message? = some m → m.id = id ∧ w.messages.HasHeld m) :
    Tallied w₀ w' (es ++ [(place, x)]) (roles.set place (.working poll id errand')) := by
  refine ⟨tallied.pairwise_append fun ms selected => ?_, fun id' => ?_, ?_, ?_, ?_⟩
  · rw [unselected] at selected
    cases selected
  · have counted := countP_set_add (·.hasWritten id') found (.working poll id errand')
    have kept : (Role.working poll id errand').hasWritten id' =
        (Role.working poll id errand).hasWritten id' := by
      simp only [Role.hasWritten, same]
    rw [kept] at counted
    rw [triesOf_append_of_none id' es place unwritten, tallied.tries]
    omega
  · rw [messages]
    exact tallied.vacant
  · intro id' m₀ began
    rw [messages, triesOf_append_of_none id' es place unwritten]
    exact tallied.stored id' m₀ began
  · intro poll' id' other m mem loaded
    rw [messages]
    rcases List.mem_or_eq_of_mem_set mem with old | own
    · exact tallied.held poll' id' other m old loaded
    · cases own
      exact held m loaded

theorem select (tallied : Tallied w₀ w es roles) {poll : Nat}
    (found : roles[place]? = some (.asking poll)) {ms : List Message}
    (selected : x.selected = some ms) (unwritten : x.written = none)
    (waiting : ∀ m ∈ ms, w.messages.find? m.id = some m ∧ m.isOutstanding = true)
    (messages : w'.messages = w.messages) (ids : List Uuid) :
    Tallied w₀ w' (es ++ [(place, x)])
      (roles.set place (.answered poll ms) ++ ids.map fun id => .working poll id .idle) := by
  have untried : ∀ m ∈ ms, triesOf m.id es = [] := by
    intro m mem
    obtain ⟨found, waits⟩ := waiting m mem
    by_contra tried
    cases began : w₀.messages.find? m.id with
    | none =>
        rw [tallied.vacant m.id began] at found
        cases found
    | some m₀ =>
        obtain ⟨n, found', _, sending⟩ := tallied.stored m.id m₀ began
        rw [found] at found'
        cases found'
        simp [Message.isOutstanding, sending tried] at waits
  refine ⟨tallied.pairwise_append fun ms' same => ?_, fun id => ?_, ?_, ?_, ?_⟩
  · rw [selected] at same
    cases same
    exact untried
  · have counted := countP_set_add (·.hasWritten id) found (.answered poll ms)
    have idle : (ids.map fun id => Role.working poll id .idle).countP (·.hasWritten id) = 0 := by
      simp [List.countP_eq_zero, Role.hasWritten, Errand.isWritten]
    rw [triesOf_append_of_none id es place unwritten, tallied.tries, List.countP_append, idle]
    exact counted.symm
  · rw [messages]
    exact tallied.vacant
  · intro id m₀ began
    rw [messages, triesOf_append_of_none id es place unwritten]
    exact tallied.stored id m₀ began
  · intro poll' id errand m mem loaded
    rw [messages]
    rcases List.mem_append.mp mem with old | new
    · rcases List.mem_or_eq_of_mem_set old with old | own
      · exact tallied.held poll' id errand m old loaded
      · cases own
    · obtain ⟨_, _, same⟩ := List.mem_map.mp new
      cases same
      cases loaded

theorem write (tallied : Tallied w₀ w es roles) {poll : Nat} {id : Uuid} {m n : Message}
    {now time : Timestamp} (found : roles[place]? = some (.working poll id (.ready m now)))
    (unselected : x.selected = none) (stored : w.messages.find? id = some n)
    (room : (Move.attempt time).HasRoom n)
    (written : x.written = some ((Move.attempt time).result n now))
    (messages : w'.messages = w.messages.put ((Move.attempt time).result n now)) :
    Tallied w₀ w' (es ++ [(place, x)]) (roles.set place (.working poll id .written)) := by
  have named : n.id = id := MessageStore.id_of_find? stored
  have version := Move.toNat_version_result room now
  have attempts := Move.toNat_sendAttemptCount_result room now
  have status : ((Move.attempt time).result n now).status = .sending := rfl
  have own : ((Move.attempt time).result n now).id = id := named
  generalize (Move.attempt time).result n now = n' at *
  refine ⟨tallied.pairwise_append fun ms selected => ?_, fun id' => ?_, ?_, ?_, ?_⟩
  · rw [unselected] at selected
    cases selected
  · have counted := countP_set_add (·.hasWritten id') found (.working poll id .written)
    have before : (Role.working poll id (.ready m now)).hasWritten id' = false := Bool.and_false _
    have after : (Role.working poll id .written).hasWritten id' = decide (id = id') :=
      Bool.and_true _
    rw [before, after] at counted
    rw [triesOf_append_of_some id' es place written, own, List.length_append, tallied.tries]
    by_cases same : id = id' <;> simpa [same] using counted.symm
  · intro id' began
    have other : id' ≠ id := by
      rintro rfl
      rw [tallied.vacant id' began] at stored
      cases stored
    rw [messages, MessageStore.find?_put, own, if_neg other]
    exact tallied.vacant id' began
  · intro id' m₀ began
    rw [messages, MessageStore.find?_put, own, triesOf_append_of_some id' es place written, own,
      List.length_append]
    obtain ⟨n₁, found₁, counted, sending⟩ := tallied.stored id' m₀ began
    by_cases same : id' = id
    · subst same
      rw [stored] at found₁
      cases found₁
      refine ⟨n', if_pos rfl, ?_, fun _ => status⟩
      rw [attempts, counted, if_pos rfl, List.length_singleton, Move.isAttempt, if_pos rfl,
        Nat.add_assoc]
    · rw [if_neg same, if_neg (Ne.symm same), List.append_nil]
      exact ⟨n₁, found₁, counted, sending⟩
  · intro poll' id' errand m' mem loaded
    rcases List.mem_or_eq_of_mem_set mem with old | last
    · obtain ⟨named', n₁, found₁, le, same⟩ := tallied.held poll' id' errand m' old loaded
      refine ⟨named', ?_⟩
      rw [MessageStore.HasHeld, messages, MessageStore.find?_put, own]
      by_cases mine : m'.id = id
      · rw [mine, stored] at found₁
        cases found₁
        refine ⟨n', if_pos mine, by omega, fun equal => ?_⟩
        rw [equal] at le
        omega
      · exact ⟨n₁, (if_neg mine).trans found₁, le, same⟩
    · cases last
      cases loaded

end Tallied

end SmsTracking
