import SmsTracking.Proofs.Contention
import SmsTracking.Service.Messaging

/-!
How a message is looked for that may not be there yet, whatever the loads answer and whenever a
cancellation falls. Main statement: the loads stop at the first one that does not miss the message
or at the last one permitted, and a cancellation is heeded in the waits between them and nowhere
else (`reload_watched`).
-/

namespace SmsTracking

namespace Exchange

def loaded? : Exchange → Option (Except DomainError Message)
  | ⟨.load _, answer⟩ => some answer
  | _ => none

def cutShort? : Exchange → Option Bool
  | ⟨.pause _, answer⟩ => some answer
  | _ => none

end Exchange

/-- What a call meets that looks for a message: the answers to its loads, and for each of its waits
whether a cancellation cuts it short. -/
structure Vigil where
  loads : Nat → Except DomainError Message
  cut : Nat → Bool

namespace Vigil

def missing (v : Vigil) (i : Nat) : Bool :=
  match v.loads i with
  | .ok _ => false
  | .error e => e.isNotFound

/-- What is left to meet after the first load and the wait that follows it. -/
def later (v : Vigil) : Vigil where
  loads i := v.loads (i + 1)
  cut i := v.cut (i + 1)

theorem later_loads (v : Vigil) (i : Nat) : v.later.loads i = v.loads (i + 1) := rfl

/-- How many loads in a row, from the first one on, miss the message, counted up to a bound. -/
def misses : Nat → Vigil → Nat
  | 0, _ => 0
  | bound + 1, v => if v.missing 0 then misses bound v.later + 1 else 0

/-- The exchanges answer as the vigil says, load by load and wait by wait. -/
structure Answers (v : Vigil) (es : List Exchange) : Prop where
  loads : ∀ i answer, (es.filterMap Exchange.loaded?)[i]? = some answer → answer = v.loads i
  cut : ∀ i answer, (es.filterMap Exchange.cutShort?)[i]? = some answer → answer = v.cut i

/-- So many loads, each with a wait behind it that runs to its end. -/
def rounds (v : Vigil) (interval : Span) (id : Uuid) (n : Nat) : List Exchange :=
  (List.range n).flatMap fun i => [⟨.load id, v.loads i⟩, ⟨.pause interval, false⟩]

/-- What a search answers that has ended with a load. -/
def reported (id : Uuid) : Except DomainError Message → Except AppError Message :=
  inContext ("cannot reload message " ++ bracketed (toString id))

/-- How a search goes that may load so many times again. -/
structure Watched (v : Vigil) (interval : Span) (id : Uuid) (attempts : Nat) (es : List Exchange)
    (result : Except AppError Message) : Prop where
  /-- What a search does with no cancellation in any of its waits: one load more than there are
  misses, of which the last one tells the outcome. -/
  uncut : (∀ i < misses attempts v, v.cut i = false) →
    es = v.rounds interval id (misses attempts v) ++ [⟨.load id, v.loads (misses attempts v)⟩] ∧
      es.countP Exchange.isLoad = misses attempts v + 1 ∧
      result = reported id (v.loads (misses attempts v))
  /-- The first wait that is cut short ends the search, without another load. -/
  cut : ∀ k < misses attempts v, (∀ i < k, v.cut i = false) → v.cut k = true →
    es = v.rounds interval id k ++ [⟨.load id, v.loads k⟩, ⟨.pause interval, true⟩] ∧
      es.countP Exchange.isLoad = k + 1 ∧
      ∃ reason, result = .error (.cancelled reason)
  misses_eq : ∀ z, (∀ i < z, v.missing i = true) → v.missing z = false →
    misses attempts v = min z attempts
  misses_of_always : (∀ i < attempts, v.missing i = true) → misses attempts v = attempts
  visible : ∀ m, v.loads 0 = .ok m → es = [⟨.load id, .ok m⟩] ∧ result = .ok m
  /-- No other failure is tried again. -/
  failed : ∀ z e, z ≤ attempts → (∀ i < z, v.missing i = true ∧ v.cut i = false) →
    v.loads z = .error e → e.isNotFound = false →
    es.countP Exchange.isLoad = z + 1 ∧ result = reported id (.error e)
  /-- The message counts as not found after all loads that are permitted, and no sooner. What
  falls behind the last of them is of no account. -/
  notFound : (∃ e reason, result = .error e ∧ e.root = .domain (.notFound reason)) ↔
    (∀ i ≤ attempts, v.missing i = true) ∧ ∀ i < attempts, v.cut i = false
  recognised : ∀ e reason, result = .error e → e.root = .domain (.notFound reason) →
    e.isNotFound = true ∧ es.countP Exchange.isLoad = attempts + 1

variable {v : Vigil} {es : List Exchange}

theorem answers_nil (v : Vigil) : v.Answers [] := ⟨by simp, by simp⟩

theorem answers_load_iff {id : Uuid} {answer : Except DomainError Message} :
    v.Answers (⟨.load id, answer⟩ :: es) ↔
      answer = v.loads 0 ∧ Answers ⟨fun i => v.loads (i + 1), v.cut⟩ es := by
  constructor
  · rintro ⟨loads, cut⟩
    exact ⟨loads 0 _ rfl, fun i => loads (i + 1), cut⟩
  · rintro ⟨first, loads, cut⟩
    refine ⟨fun i other found => ?_, cut⟩
    cases i with
    | zero => exact (Option.some.inj found).symm.trans first
    | succ i => exact loads i other found

theorem answers_pause_iff {interval : Span} {answer : Bool} :
    v.Answers (⟨.pause interval, answer⟩ :: es) ↔
      answer = v.cut 0 ∧ Answers ⟨v.loads, fun i => v.cut (i + 1)⟩ es := by
  constructor
  · rintro ⟨loads, cut⟩
    exact ⟨cut 0 _ rfl, loads, fun i => cut (i + 1)⟩
  · rintro ⟨first, loads, cut⟩
    refine ⟨loads, fun i other found => ?_⟩
    cases i with
    | zero => exact (Option.some.inj found).symm.trans first
    | succ i => exact cut i other found

theorem rounds_succ (v : Vigil) (interval : Span) (id : Uuid) (n : Nat) :
    v.rounds interval id (n + 1) =
      ⟨.load id, v.loads 0⟩ :: ⟨.pause interval, false⟩ :: v.later.rounds interval id n := by
  simp [rounds, List.range_succ_eq_map, List.flatMap_map, later]

theorem countP_isLoad_rounds (v : Vigil) (interval : Span) (id : Uuid) (n : Nat) :
    (v.rounds interval id n).countP Exchange.isLoad = n := by
  induction n generalizing v with
  | zero => rfl
  | succ n ih =>
      rw [rounds_succ, List.countP_cons_of_pos rfl,
        List.countP_cons_of_neg (by simp [Exchange.isLoad]), ih]

theorem misses_succ_of_missing {bound : Nat} (missing : v.missing 0 = true) :
    misses (bound + 1) v = misses bound v.later + 1 := by
  simp [misses, missing]

theorem misses_of_not_missing (bound : Nat) (found : v.missing 0 = false) : misses bound v = 0 := by
  cases bound <;> simp [misses, found]

theorem misses_spec (bound : Nat) (v : Vigil) :
    misses bound v ≤ bound ∧ (∀ i < misses bound v, v.missing i = true) ∧
      (misses bound v < bound → v.missing (misses bound v) = false) := by
  induction bound generalizing v with
  | zero => simp [misses]
  | succ bound ih =>
      cases first : v.missing 0 with
      | false => simp [misses_of_not_missing (bound + 1) first, first]
      | true =>
          obtain ⟨most, before, behind⟩ := ih v.later
          rw [misses_succ_of_missing first]
          refine ⟨by omega, fun i less => ?_, fun less => behind (by omega)⟩
          cases i with
          | zero => exact first
          | succ i => exact before i (by omega)

theorem misses_eq_min {z : Nat} (before : ∀ i < z, v.missing i = true) (found : v.missing z = false)
    (bound : Nat) : misses bound v = min z bound := by
  obtain ⟨most, missing, behind⟩ := misses_spec bound v
  have reaches : ¬z < misses bound v := fun less => by simp [missing z less] at found
  by_cases less : misses bound v < z
  · have all : ¬misses bound v < bound := fun short => by
      have missed := before _ less
      rw [behind short] at missed
      cases missed
    omega
  · omega

theorem misses_eq_bound {bound : Nat} (always : ∀ i < bound, v.missing i = true) :
    misses bound v = bound := by
  obtain ⟨most, -, behind⟩ := misses_spec bound v
  refine Nat.le_antisymm most (Nat.le_of_not_lt fun less => ?_)
  have missed := always _ less
  rw [behind less] at missed
  cases missed

theorem uncut_or_cut (v : Vigil) (n : Nat) :
    (∀ i < n, v.cut i = false) ∨ ∃ k < n, (∀ i < k, v.cut i = false) ∧ v.cut k = true := by
  induction n with
  | zero => exact .inl fun i less => absurd less (Nat.not_lt_zero i)
  | succ n ih =>
      obtain uncut | ⟨k, less, before, here⟩ := ih
      · cases here : v.cut n with
        | true => exact .inr ⟨n, Nat.lt_succ_self n, uncut, here⟩
        | false =>
            refine .inl fun i less => ?_
            obtain before | rfl := Nat.lt_succ_iff_lt_or_eq.mp less
            · exact uncut i before
            · exact here
      · exact .inr ⟨k, Nat.lt_succ_of_lt less, before, here⟩

/-- The exchanges of a search and what it answers. -/
def search (interval : Span) (id : Uuid) : Nat → Vigil → List Exchange × Except AppError Message
  | 0, v =>
    ([⟨.load id, v.loads 0⟩], reported id (v.loads 0))
  | attempts + 1, v =>
    if v.missing 0 then
      if v.cut 0 then
        ([⟨.load id, v.loads 0⟩, ⟨.pause interval, true⟩],
          .error (.cancelled ("reload of message " ++ bracketed (toString id))))
      else
        (⟨.load id, v.loads 0⟩ :: ⟨.pause interval, false⟩ ::
          (search interval id attempts v.later).1, (search interval id attempts v.later).2)
    else
      ([⟨.load id, v.loads 0⟩], reported id (v.loads 0))

variable {interval : Span} {id : Uuid} {o : Outcome (Except AppError Message)}

/-- The only way in which a program that loads first can go on. -/
theorem talk_load_iff {f : Except DomainError Message → Program (Except AppError Message)} :
    ((Program.load id >>= f).Talk es o ∧ v.Answers es) ↔
      ∃ rest, es = ⟨.load id, v.loads 0⟩ :: rest ∧ (f (v.loads 0)).Talk rest o ∧
        Answers ⟨fun i => v.loads (i + 1), v.cut⟩ rest := by
  constructor
  · rintro ⟨whole, answers⟩
    obtain ⟨answer, rest, rfl, talk⟩ := Program.talk_request_iff.mp whole
    obtain ⟨rfl, others⟩ := answers_load_iff.mp answers
    exact ⟨rest, rfl, talk, others⟩
  · rintro ⟨rest, rfl, talk, answers⟩
    exact ⟨.ask talk, answers_load_iff.mpr ⟨rfl, answers⟩⟩

theorem talk_pause_iff {f : Bool → Program (Except AppError Message)} :
    ((Program.pause interval >>= f).Talk es o ∧ v.Answers es) ↔
      ∃ rest, es = ⟨.pause interval, v.cut 0⟩ :: rest ∧ (f (v.cut 0)).Talk rest o ∧
        Answers ⟨v.loads, fun i => v.cut (i + 1)⟩ rest := by
  constructor
  · rintro ⟨whole, answers⟩
    obtain ⟨answer, rest, rfl, talk⟩ := Program.talk_request_iff.mp whole
    obtain ⟨rfl, others⟩ := answers_pause_iff.mp answers
    exact ⟨rest, rfl, talk, others⟩
  · rintro ⟨rest, rfl, talk, answers⟩
    exact ⟨.ask talk, answers_pause_iff.mpr ⟨rfl, answers⟩⟩

theorem talk_done_iff {x : Exchange} {result : Except AppError Message} :
    (∃ rest, es = x :: rest ∧ (Program.done result).Talk rest o ∧ v.Answers rest) ↔
      es = [x] ∧ o = .done result := by
  constructor
  · rintro ⟨rest, rfl, talk, -⟩
    obtain ⟨rfl, rfl⟩ := Program.talk_done_iff.mp talk
    exact ⟨rfl, rfl⟩
  · rintro ⟨rfl, rfl⟩
    exact ⟨[], rfl, .done result, answers_nil v⟩

theorem missing_iff {i : Nat} :
    v.missing i = true ↔ ∃ reason, v.loads i = .error (.notFound reason) := by
  unfold missing
  rcases v.loads i with e | m
  · cases e <;> simp [DomainError.isNotFound]
  · simp

theorem look_of_missed {reason : String} (missed : v.loads 0 = .error (.notFound reason))
    (otherwise : DomainError → Program (Except AppError Message)) :
    ((Service.look id otherwise).Talk es o ∧ v.Answers es) ↔
      ∃ rest, es = ⟨.load id, v.loads 0⟩ :: rest ∧ (otherwise (.notFound reason)).Talk rest o ∧
        Answers ⟨fun i => v.loads (i + 1), v.cut⟩ rest := by
  unfold Service.look
  rw [talk_load_iff, missed]

theorem look_of_seen (seen : v.missing 0 = false)
    (otherwise : DomainError → Program (Except AppError Message)) :
    ((Service.look id otherwise).Talk es o ∧ v.Answers es) ↔
      es = [⟨.load id, v.loads 0⟩] ∧
        o = .done (reported id (v.loads 0)) := by
  unfold Service.look
  rw [talk_load_iff]
  rcases first : v.loads 0 with e | m
  · cases e with
    | notFound reason => rw [missing_iff.mpr ⟨reason, first⟩] at seen; cases seen
    | _ => exact talk_done_iff
  · exact talk_done_iff

/-- A search goes one way only. -/
theorem talk_reload_iff (interval : Span) (id : Uuid) (attempts : Nat) (v : Vigil) :
    ((Service.reload interval id attempts).Talk es o ∧ v.Answers es) ↔
      es = (search interval id attempts v).1 ∧ o = .done (search interval id attempts v).2 := by
  induction attempts generalizing v es with
  | zero =>
      unfold Service.reload search
      cases seen : v.missing 0 with
      | false => exact look_of_seen seen _
      | true =>
          obtain ⟨reason, missed⟩ := missing_iff.mp seen
          rw [look_of_missed missed, missed]
          exact talk_done_iff
  | succ attempts ih =>
      unfold Service.reload search
      cases seen : v.missing 0 with
      | false => exact look_of_seen seen _
      | true =>
          obtain ⟨reason, missed⟩ := missing_iff.mp seen
          rw [look_of_missed missed]
          simp only [↓reduceIte, talk_pause_iff]
          cases cut : v.cut 0 with
          | true =>
              simp only [↓reduceIte]
              constructor
              · rintro ⟨_, rfl, waiting⟩
                obtain ⟨rfl, ended⟩ := talk_done_iff.mp waiting
                exact ⟨rfl, ended⟩
              · rintro ⟨rfl, ended⟩
                exact ⟨_, rfl, talk_done_iff.mpr ⟨rfl, ended⟩⟩
          | false =>
              simp only [Bool.false_eq_true, ↓reduceIte]
              constructor
              · rintro ⟨_, rfl, _, rfl, rest⟩
                obtain ⟨rfl, ended⟩ := (ih v.later).mp rest
                exact ⟨rfl, ended⟩
              · rintro ⟨rfl, ended⟩
                exact ⟨_, rfl, _, rfl, (ih v.later).mpr ⟨rfl, ended⟩⟩

theorem search_uncut (interval : Span) (id : Uuid) {attempts : Nat}
    (uncut : ∀ i < misses attempts v, v.cut i = false) :
    search interval id attempts v =
      (v.rounds interval id (misses attempts v) ++ [⟨.load id, v.loads (misses attempts v)⟩],
        reported id (v.loads (misses attempts v))) := by
  induction attempts generalizing v with
  | zero => rfl
  | succ attempts ih =>
      cases first : v.missing 0 with
      | false => simp [search, first, misses_of_not_missing, rounds]
      | true =>
          rw [misses_succ_of_missing first] at uncut ⊢
          have rest := ih (v := v.later) fun i less => uncut (i + 1) (by omega)
          rw [rounds_succ]
          simp [search, first, uncut 0 (by omega), rest, later_loads]

theorem search_cut (interval : Span) (id : Uuid) {attempts k : Nat}
    (inside : k < misses attempts v) (before : ∀ i < k, v.cut i = false) (here : v.cut k = true) :
    search interval id attempts v =
      (v.rounds interval id k ++ [⟨.load id, v.loads k⟩, ⟨.pause interval, true⟩],
        .error (.cancelled ("reload of message " ++ bracketed (toString id)))) := by
  induction attempts generalizing v k with
  | zero => exact absurd inside (Nat.not_lt_zero k)
  | succ attempts ih =>
      cases first : v.missing 0 with
      | false =>
          rw [misses_of_not_missing _ first] at inside
          exact absurd inside (Nat.not_lt_zero k)
      | true =>
          rw [misses_succ_of_missing first] at inside
          cases k with
          | zero => simp [search, first, here, rounds]
          | succ k =>
              have rest := ih (v := v.later) (k := k) (by omega)
                (fun i less => before (i + 1) (by omega)) here
              rw [rounds_succ]
              simp [search, first, before 0 (by omega), rest, later_loads]

/-- Only a search that has come to its last load answers that the message was not found. -/
theorem search_of_root_eq {attempts : Nat} {e : AppError} {reason : String}
    (failed : (search interval id attempts v).2 = .error e)
    (root : e.root = .domain (.notFound reason)) :
    (∀ i < misses attempts v, v.cut i = false) ∧ misses attempts v = attempts ∧
      v.loads attempts = .error (.notFound reason) ∧ e.isNotFound = true := by
  obtain uncut | ⟨k, inside, before, here⟩ := v.uncut_or_cut (misses attempts v)
  · rw [search_uncut interval id uncut] at failed
    rcases last : v.loads (misses attempts v) with e' | m
    · rw [last] at failed
      cases failed
      obtain rfl : e' = .notFound reason := AppError.domain.inj root
      have all : misses attempts v = attempts := by
        obtain ⟨most, -, behind⟩ := misses_spec attempts v
        refine Nat.le_antisymm most (Nat.le_of_not_lt fun less => ?_)
        have found := behind less
        rw [missing_iff.mpr ⟨reason, last⟩] at found
        cases found
      exact ⟨uncut, all, all ▸ last, rfl⟩
    · rw [last] at failed
      cases failed
  · rw [search_cut interval id inside before here] at failed
    cases failed
    cases root

theorem countP_isLoad_search_uncut (interval : Span) (id : Uuid) {attempts : Nat}
    (uncut : ∀ i < misses attempts v, v.cut i = false) :
    (search interval id attempts v).1.countP Exchange.isLoad = misses attempts v + 1 := by
  rw [search_uncut interval id uncut, List.countP_append, countP_isLoad_rounds]
  rfl

theorem watched_search (interval : Span) (id : Uuid) (attempts : Nat) (v : Vigil) :
    v.Watched interval id attempts (search interval id attempts v).1
      (search interval id attempts v).2 where
  uncut quiet :=
    ⟨congrArg Prod.fst (search_uncut interval id quiet),
      countP_isLoad_search_uncut interval id quiet,
      congrArg Prod.snd (search_uncut interval id quiet)⟩
  cut k inside before here := by
    rw [search_cut interval id inside before here]
    refine ⟨rfl, ?_, _, rfl⟩
    rw [List.countP_append, countP_isLoad_rounds]
    rfl
  misses_eq z before found := misses_eq_min before found attempts
  misses_of_always := misses_eq_bound
  visible m seen := by
    have found : v.missing 0 = false := by simp [missing, seen]
    have none := misses_of_not_missing attempts found
    rw [search_uncut interval id (by simp [none]), none, seen]
    exact ⟨rfl, rfl⟩
  failed z e most before here other := by
    have found : v.missing z = false := by simp [missing, here, other]
    have stops : misses attempts v = z := by
      rw [misses_eq_min (fun i less => (before i less).1) found]
      exact Nat.min_eq_left most
    have uncut : ∀ i < misses attempts v, v.cut i = false :=
      fun i less => (before i (stops ▸ less)).2
    refine ⟨(countP_isLoad_search_uncut interval id uncut).trans (by rw [stops]), ?_⟩
    rw [search_uncut interval id uncut, stops, here]
  notFound := by
    constructor
    · rintro ⟨e, reason, failed, root⟩
      obtain ⟨uncut, all, last, -⟩ := search_of_root_eq failed root
      rw [all] at uncut
      obtain ⟨-, before, -⟩ := misses_spec attempts v
      refine ⟨fun i most => ?_, uncut⟩
      obtain less | rfl := Nat.lt_or_eq_of_le most
      · exact before i (all.symm ▸ less)
      · exact missing_iff.mpr ⟨reason, last⟩
    · rintro ⟨always, uncut⟩
      have all := misses_eq_bound fun i less => always i (Nat.le_of_lt less)
      obtain ⟨reason, last⟩ := missing_iff.mp (always attempts (Nat.le_refl _))
      rw [search_uncut interval id (all.symm ▸ uncut), all, last]
      exact ⟨_, reason, rfl, rfl⟩
  recognised e reason failed root := by
    obtain ⟨uncut, all, -, recognised⟩ := search_of_root_eq failed root
    exact ⟨recognised, (countP_isLoad_search_uncut interval id uncut).trans (by rw [all])⟩

end Vigil

/-- Whatever the loads answer and whenever a cancellation falls, there is one way in which a message
is looked for after its event was dispatched. -/
theorem reload_watched (config : ServiceConfig) (id : Uuid) (v : Vigil) :
    ∃ es result,
      (∀ es' o, ((Service.reload config.reloadInterval id config.reloadAttempts.toNat).Talk es' o ∧
        v.Answers es') ↔ es' = es ∧ o = .done result) ∧
      v.Watched config.reloadInterval id config.reloadAttempts.toNat es result :=
  ⟨_, _, fun _ _ => Vigil.talk_reload_iff _ _ _ v, Vigil.watched_search _ _ _ v⟩

end SmsTracking
