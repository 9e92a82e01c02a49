import SmsTracking.Proofs.Contention
import SmsTracking.Proofs.Moves

/-!
How a call stands that moves a message, try by try. A try is lost where the update is refused
because of the version, and only then another one is made. Main statements: a transition conducts
itself so (`transition_follows_bout`), what it has exchanged can be read off its standing
(`Bout.Shows.answer`), and the tries can be counted up in a number of 32 bits
(`counting_eq_transition`).
-/

namespace SmsTracking

namespace Exchange

def isUpdate : Exchange → Bool
  | ⟨.update _, _⟩ => true
  | _ => false

/-- An update that was refused because of the version. -/
def isRejected : Exchange → Bool
  | ⟨.update _, .refused (.versionConflict _ _ _)⟩ => true
  | _ => false

end Exchange

/-- How a call stands, with the number of tries that it has lost. -/
inductive Bout where
  | resting (lost : Nat)
  | loaded (lost : Nat) (m : Message)
  /-- It has loaded a message and read the clock. -/
  | ready (lost : Nat) (m : Message) (now : Timestamp)
  | committed (lost : Nat) (m : Message)
  | missing (lost : Nat) (e : DomainError)
  /-- Its update has failed in another way than because of the version. -/
  | stuck

namespace Bout

def next : Bout → Exchange → Bout
  | resting lost, ⟨.load _, .ok m⟩ => loaded lost m
  | resting lost, ⟨.load _, .error e⟩ => missing lost e
  | loaded lost m, ⟨.now, now⟩ => ready lost m now
  | ready lost _ _, ⟨.update m, .done⟩ => committed lost m
  | ready lost _ _, ⟨.update _, .refused (.versionConflict _ _ _)⟩ => resting (lost + 1)
  | ready _ _ _, ⟨.update _, _⟩ => stuck
  | b, _ => b

/-- What a call may ask that may lose so many tries and make one more. -/
inductive May (id : Uuid) (move : Move) (most : Nat) : Bout → Request → Prop
  | load {lost : Nat} (within : lost ≤ most) : May id move most (resting lost) (.load id)
  | now (lost : Nat) (m : Message) : May id move most (loaded lost m) .now
  | update {lost : Nat} {m m' : Message} {now : Timestamp} (made : move.apply m now = .done m') :
      May id move most (ready lost m now) (.update m')

/-- How the call ends. -/
inductive Ends (move : Move) (most : Nat) : Bout → Outcome (Except AppError Message) → Prop
  | exhausted (text : String) (id : Uuid) (expected actual : UInt64) :
      Ends move most (resting (most + 1))
        (.done (.error (.context text (.domain (.versionConflict id expected actual)))))
  | refused {lost : Nat} {m : Message} {now : Timestamp} (text : String)
      (refuses : m.status ∉ move.allowed) :
      Ends move most (ready lost m now)
        (.done (.error (.context text (.domain (.wrongStatus m.id m.status move.allowed)))))
  | overflow {lost : Nat} {m : Message} {now : Timestamp} (text : String)
      (full : ¬ move.HasRoom m) : Ends move most (ready lost m now) (.aborted text)
  | committed (lost : Nat) (m : Message) : Ends move most (committed lost m) (.done (.ok m))
  | missing (lost : Nat) (e : DomainError) (text : String) :
      Ends move most (missing lost e) (.done (.error (.context text (.domain e))))
  | stuck (o : Outcome (Except AppError Message)) : Ends move most stuck o

def conduct (id : Uuid) (move : Move) (most : Nat) : Conduct Bout (Except AppError Message) where
  start := resting 0
  next := next
  may := May id move most
  ends := Ends move most

/-- So many tries, all of them lost, and nothing else. -/
structure Lost (talk : List Exchange) (lost : Nat) : Prop where
  loads : talk.countP Exchange.isLoad = lost
  updates : talk.countP Exchange.isUpdate = lost
  rejected : talk.countP Exchange.isRejected = lost
  written : ∀ x ∈ talk, x.written = none

theorem Lost.nil : Lost [] 0 := ⟨rfl, rfl, rfl, by simp⟩

theorem Lost.append {talk : List Exchange} {lost : Nat} (beaten : Lost talk lost) (id id' : Uuid)
    (m m' : Message) (now : Timestamp) (expected actual : UInt64) :
    Lost (talk ++ [⟨.load id, .ok m⟩, ⟨.now, now⟩,
      ⟨.update m', .refused (.versionConflict id' expected actual)⟩]) (lost + 1) := by
  refine ⟨?_, ?_, ?_, ?_⟩
  · rw [List.countP_append, beaten.loads]
    rfl
  · rw [List.countP_append, beaten.updates]
    rfl
  · rw [List.countP_append, beaten.rejected]
    rfl
  · intro x mem
    obtain before | last := List.mem_append.mp mem
    · exact beaten.written x before
    · simp only [List.mem_cons, List.not_mem_nil, or_false] at last
      obtain rfl | rfl | rfl := last <;> rfl

/-- What a call has exchanged that stands so. -/
def Shows (id : Uuid) (move : Move) (most : Nat) : Bout → List Exchange → Prop
  | resting lost, talk => lost ≤ most + 1 ∧ Lost talk lost
  | loaded lost m, talk =>
      lost ≤ most ∧ ∃ before, Lost before lost ∧ talk = before ++ [⟨.load id, .ok m⟩]
  | ready lost m now, talk =>
      lost ≤ most ∧ ∃ before, Lost before lost ∧ talk = before ++ [⟨.load id, .ok m⟩, ⟨.now, now⟩]
  | committed lost m', talk =>
      lost ≤ most ∧ ∃ before m now, Lost before lost ∧ m' = move.result m now ∧
        talk = before ++ [⟨.load id, .ok m⟩, ⟨.now, now⟩, ⟨.update m', .done⟩]
  | missing lost e, talk =>
      lost ≤ most ∧ ∃ before, Lost before lost ∧ talk = before ++ [⟨.load id, .error e⟩]
  | stuck, _ => True

theorem Shows.answer {id : Uuid} {move : Move} {most : Nat} {b : Bout} {talk : List Exchange}
    {r : Request} (shows : b.Shows id move most talk) (may : May id move most b r)
    (answer : r.Answer) : (b.next ⟨r, answer⟩).Shows id move most (talk ++ [⟨r, answer⟩]) := by
  cases may with
  | load within =>
      obtain ⟨-, beaten⟩ := shows
      cases answer with
      | ok m => exact ⟨within, talk, beaten, rfl⟩
      | error e => exact ⟨within, talk, beaten, rfl⟩
  | now lost m =>
      obtain ⟨within, before, beaten, rfl⟩ := shows
      exact ⟨within, before, beaten, List.append_assoc ..⟩
  | update made =>
      obtain ⟨within, before, beaten, rfl⟩ := shows
      obtain ⟨-, -, rfl⟩ := Move.apply_eq_done_iff.mp made
      rw [List.append_assoc]
      cases answer with
      | done => exact ⟨within, before, _, _, beaten, rfl, rfl⟩
      | overflow => trivial
      | refused e =>
          cases e with
          | versionConflict id' expected actual =>
              exact ⟨Nat.succ_le_succ within, beaten.append ..⟩
          | _ => trivial

section Read

variable {id : Uuid} {move : Move} {most : Nat} {b : Bout} {talk : List Exchange}

theorem Lost.counts {before last : List Exchange} {lost : Nat} (beaten : Lost before lost)
    (within : lost ≤ most) (loads : last.countP Exchange.isLoad ≤ 1)
    (updates : last.countP Exchange.isUpdate ≤ 1) :
    (before ++ last).countP Exchange.isLoad ≤ most + 1 ∧
      (before ++ last).countP Exchange.isUpdate ≤ most + 1 := by
  rw [List.countP_append, List.countP_append, beaten.loads, beaten.updates]
  exact ⟨Nat.add_le_add within loads, Nat.add_le_add within updates⟩

theorem Shows.counts (shows : b.Shows id move most talk) (unstuck : b ≠ stuck) :
    talk.countP Exchange.isLoad ≤ most + 1 ∧ talk.countP Exchange.isUpdate ≤ most + 1 := by
  cases b with
  | resting lost =>
      obtain ⟨within, beaten⟩ := shows
      rw [beaten.loads, beaten.updates]
      exact ⟨within, within⟩
  | loaded lost m =>
      obtain ⟨within, before, beaten, rfl⟩ := shows
      exact beaten.counts within (Nat.le_refl 1) (Nat.zero_le 1)
  | ready lost m now =>
      obtain ⟨within, before, beaten, rfl⟩ := shows
      exact beaten.counts within (Nat.le_refl 1) (Nat.zero_le 1)
  | committed lost m =>
      obtain ⟨within, before, m', now, beaten, -, rfl⟩ := shows
      exact beaten.counts within (Nat.le_refl 1) (Nat.le_refl 1)
  | missing lost e =>
      obtain ⟨within, before, beaten, rfl⟩ := shows
      exact beaten.counts within (Nat.le_refl 1) (Nat.zero_le 1)
  | stuck => exact absurd rfl unstuck

/-- What was written behind lost tries was written at the end. -/
theorem Lost.mem_last {before last : List Exchange} {lost : Nat} (beaten : Lost before lost)
    {x : Exchange} {m : Message} (mem : x ∈ before ++ last) (written : x.written = some m) :
    x ∈ last := by
  obtain early | late := List.mem_append.mp mem
  · rw [beaten.written x early] at written
    cases written
  · exact late

/-- Only a call that has committed has written anything. -/
theorem Shows.committed_of_written (shows : b.Shows id move most talk) (unstuck : b ≠ stuck)
    {x : Exchange} {m : Message} (mem : x ∈ talk) (written : x.written = some m) :
    ∃ lost, b = committed lost m := by
  cases b with
  | resting lost =>
      rw [shows.2.written x mem] at written
      cases written
  | loaded lost m' =>
      obtain ⟨-, before, beaten, rfl⟩ := shows
      obtain rfl := List.mem_singleton.mp (beaten.mem_last mem written)
      cases written
  | ready lost m' now =>
      obtain ⟨-, before, beaten, rfl⟩ := shows
      have late := beaten.mem_last mem written
      simp only [List.mem_cons, List.not_mem_nil, or_false] at late
      obtain rfl | rfl := late <;> cases written
  | committed lost m' =>
      obtain ⟨-, before, m₁, now, beaten, -, rfl⟩ := shows
      have late := beaten.mem_last mem written
      simp only [List.mem_cons, List.not_mem_nil, or_false] at late
      obtain rfl | rfl | rfl := late <;> cases written
      exact ⟨lost, rfl⟩
  | missing lost e =>
      obtain ⟨-, before, beaten, rfl⟩ := shows
      obtain rfl := List.mem_singleton.mp (beaten.mem_last mem written)
      cases written
  | stuck => exact absurd rfl unstuck

end Read

end Bout

namespace Lifecycle

open Bout

theorem tryMove_follows_bout (id : Uuid) (move : Move) {most lost : Nat}
    {conflicted : DomainError → Program (Except AppError Message)} (within : lost ≤ most)
    (rest : ∀ id' expected actual, (conflicted (.versionConflict id' expected actual)).Follows
      (conduct id move most) (resting (lost + 1))) :
    (tryMove id move conflicted).Follows (conduct id move most) (resting lost) := by
  refine .load (.load within) fun answer => ?_
  cases answer with
  | error e => exact .missing lost e _
  | ok m =>
      refine .now (.now lost m) fun now => ?_
      cases made : move.apply m now with
      | overflow _ => exact .overflow _ (Move.not_hasRoom_of_apply_eq_overflow made)
      | refused e =>
          obtain ⟨refuses, rfl⟩ := Move.apply_eq_refused_iff.mp made
          exact .refused _ refuses
      | done m' =>
          refine .update (.update made) fun answer => ?_
          cases answer with
          | done => exact .committed lost m'
          | overflow => exact .stuck _
          | refused e =>
              cases e with
              | versionConflict id' expected actual => exact rest id' expected actual
              | _ => exact .stuck _

theorem transition_follows_bout (id : Uuid) (move : Move) {most lost retries : Nat}
    (left : lost + retries = most) :
    (transition id move retries).Follows (conduct id move most) (resting lost) := by
  induction retries generalizing lost with
  | zero =>
      obtain rfl : lost = most := left
      exact tryMove_follows_bout id move (Nat.le_refl lost) fun _ _ _ => .exhausted ..
  | succ retries ih =>
      exact tryMove_follows_bout id move (by omega) fun _ _ _ => ih (by omega)

theorem toNat_attempt_succ {attempt retries : UInt32} (less : attempt < retries) :
    (attempt + 1).toNat = attempt.toNat + 1 := by
  have top := retries.toNat_lt_size
  rw [UInt32.lt_iff_toNat_lt] at less
  rw [UInt32.toNat_add]
  exact Nat.mod_eq_of_lt (show attempt.toNat + 1 < UInt32.size by omega)

/-- A transition that counts its tries up, in a counter that could overflow. -/
def counting (id : Uuid) (move : Move) (retries attempt : UInt32) :
    Program (Except AppError Message) :=
  tryMove id move fun e =>
    if attempt < retries then
      if attempt.toNat + 1 = UInt32.size then .abort counterOverflow
      else counting id move retries (attempt + 1)
    else unwritten id move e
termination_by retries.toNat - attempt.toNat
decreasing_by
  rename_i less _
  rw [toNat_attempt_succ less]
  rw [UInt32.lt_iff_toNat_lt] at less
  omega

theorem counting_eq_transition (id : Uuid) (move : Move) {retries attempt : UInt32}
    {left : Nat} (within : attempt.toNat + left = retries.toNat) :
    counting id move retries attempt = transition id move left := by
  induction left generalizing attempt with
  | zero =>
      have all : ¬ attempt < retries := by
        rw [UInt32.lt_iff_toNat_lt]
        omega
      rw [counting, transition]
      simp only [if_neg all]
  | succ left ih =>
      have top := retries.toNat_lt_size
      have less : attempt < retries := by
        rw [UInt32.lt_iff_toNat_lt]
        omega
      have next := toNat_attempt_succ less
      have room : attempt.toNat + 1 ≠ UInt32.size := by omega
      rw [counting, transition]
      have rest : counting id move retries (attempt + 1) = transition id move left := ih (by omega)
      simp only [if_pos less, if_neg room, rest]

end Lifecycle

end SmsTracking
