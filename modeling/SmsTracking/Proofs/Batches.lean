import Mathlib.Data.List.Basic
import SmsTracking.Proofs.Histories

/-!
A batch is handed out one message after the other, and each worker leaves the others alone: it
announces at most one event, about its own message, and answers with its own message or not at all.
Main statement: a history that tells what is stored does so again with the attempts of the messages
that were handed out (`tells_process`).
-/

namespace SmsTracking

theorem Program.run_attempt {α : Type} (a : Ambient) (p : Program α) (w : World) :
    p.attempt.run a w = (.done (p.run a w).1, (p.run a w).2) := by
  induction p generalizing w with
  | done | abort => rfl
  | ask r next ih => exact ih ..

theorem WorkerEnd.run_note (a : Ambient) (e : WorkerEnd) (w : World) :
    ∃ lines, e.note.run a w = (.done e.message?, { w with lines }) := by
  cases e with
  | died number text => exact ⟨_, rfl⟩
  | answered id answer =>
      cases answer with
      | ok m => exact ⟨w.lines, rfl⟩
      | error reason =>
          simp only [note, WorkerEnd.lines]
          split
          · exact ⟨w.lines, rfl⟩
          · exact ⟨_, rfl⟩

namespace Effect

theorem ofHandOut?_of_mem {ids : List Uuid} {e : Envelope} {p : Payload}
    (payload : e.payload? = some p) (mem : p.messageId ∈ ids) :
    ofHandOut? ids e = some { event := some e, deed := .move p.messageId (.attempt e.time) } := by
  simp only [ofHandOut?, payload, Option.bind_some, if_pos mem]

theorem ofHandOut?_of_not_mem {ids : List Uuid} {e : Envelope} {p : Payload}
    (payload : e.payload? = some p) (other : p.messageId ∉ ids) : ofHandOut? ids e = none := by
  simp only [ofHandOut?, payload, Option.bind_some, if_neg other]

theorem ofHandOut?_congr {ids others : List Uuid} {e : Envelope} {p : Payload}
    (payload : e.payload? = some p) (same : p.messageId ∈ ids ↔ p.messageId ∈ others) :
    ofHandOut? ids e = ofHandOut? others e := by
  simp only [ofHandOut?, payload, Option.bind_some, same]

end Effect

/-- Of messages with the identifiers `ids`, those with the identifiers `handed` were handed out,
and the history tells so. -/
def History.HandedOut (h : History) (w : World) (ids handed : List Uuid) (w' : World) : Prop :=
  ∃ es, w'.announced = w.announced ++ es ∧
    (∀ e ∈ es, ∃ p, e.payload? = some p ∧ p.messageId ∈ ids) ∧ handed ⊆ ids ∧
    (h.extend (es.filterMap (Effect.ofHandOut? handed))).Tells w'

namespace History.HandedOut

variable {h : History} {w w' : World}

theorem nil (tells : h.Tells w) : h.HandedOut w [] [] w :=
  ⟨[], (List.append_nil _).symm, fun _ mem => absurd mem List.not_mem_nil, List.nil_subset _, tells⟩

theorem single {m : Message} {o : Outcome (Except AppError Message)} (tells : h.Tells w)
    (emission : Emission (.phoneSending (.ofMessage m)) w w' o) (number : Nat) :
    h.HandedOut w [m.id] ((WorkerEnd.ofOutcome number m.id o).message?.toList.map (·.id)) w' := by
  cases emission with
  | cancelled messages log announced =>
      refine ⟨[], by rw [announced, List.append_nil], fun _ mem => absurd mem List.not_mem_nil,
        List.nil_subset _, ?_⟩
      exact tells.of_same messages fun key => by rw [log]
  | taken carries announced received found =>
      rename_i e m'
      have named : m'.id = m.id := MessageStore.id_of_find? found
      refine ⟨[e], announced, ?_, ?_, ?_⟩
      · intro e' mem
        obtain rfl := List.mem_singleton.mp mem
        exact ⟨_, carries.payload?, List.mem_singleton_self _⟩
      · simp [WorkerEnd.ofOutcome, WorkerEnd.message?, named]
      · have counted : Effect.ofHandOut? [m'.id] e = some _ :=
          Effect.ofHandOut?_of_mem carries.payload? (List.mem_singleton.mpr named.symm)
        simp only [WorkerEnd.ofOutcome, WorkerEnd.message?, Option.toList_some, List.map_cons,
          List.map_nil, List.filterMap_cons, counted, List.filterMap_nil]
        exact tells.taken carries received
  | lost carries announced received vacant failure =>
      rename_i e success
      have nobody : (WorkerEnd.ofOutcome number m.id o).message? = none := by
        cases o with
        | aborted text => rfl
        | done answer =>
            cases answer with
            | ok m => cases failure
            | error reason => rfl
      refine ⟨[e], announced, ?_, ?_, ?_⟩
      · intro e' mem
        obtain rfl := List.mem_singleton.mp mem
        exact ⟨_, carries.payload?, List.mem_singleton_self _⟩
      · simp [nobody]
      · have nothing := Effect.ofHandOut?_of_not_mem carries.payload? List.not_mem_nil
        simp only [nobody, Option.toList_none, List.map_nil, List.filterMap_cons, nothing,
          List.filterMap_nil]
        exact tells.lost_of_carries carries received vacant

/-- What the others do about their messages does not change what one worker did about its own. -/
theorem cons {id : Uuid} {ids first rest : List Uuid} {w₁ : World} (new : id ∉ ids)
    (head : h.HandedOut w [id] first w₁)
    (tail : ∀ h₁ : History, h₁.Tells w₁ → h₁.HandedOut w₁ ids rest w') :
    h.HandedOut w (id :: ids) (first ++ rest) w' := by
  obtain ⟨es, announced, about, inside, tells⟩ := head
  obtain ⟨later, announced', about', inside', tells'⟩ := tail _ tells
  have own : es.filterMap (Effect.ofHandOut? (first ++ rest)) =
      es.filterMap (Effect.ofHandOut? first) := by
    refine List.filterMap_congr fun e mem => ?_
    obtain ⟨p, payload, named⟩ := about e mem
    obtain rfl := List.mem_singleton.mp named
    refine Effect.ofHandOut?_congr payload ?_
    rw [List.mem_append]
    exact or_iff_left fun other => new (inside' other)
  have others : later.filterMap (Effect.ofHandOut? (first ++ rest)) =
      later.filterMap (Effect.ofHandOut? rest) := by
    refine List.filterMap_congr fun e mem => ?_
    obtain ⟨p, payload, named⟩ := about' e mem
    refine Effect.ofHandOut?_congr payload ?_
    rw [List.mem_append]
    refine or_iff_right fun other => new ?_
    exact List.mem_singleton.mp (inside other) ▸ named
  refine ⟨es ++ later, ?_, ?_, ?_, ?_⟩
  · rw [announced', announced, List.append_assoc]
  · intro e mem
    rcases List.mem_append.mp mem with early | late
    · obtain ⟨p, payload, named⟩ := about e early
      exact ⟨p, payload, List.mem_singleton.mp named ▸ List.mem_cons_self⟩
    · obtain ⟨p, payload, named⟩ := about' e late
      exact ⟨p, payload, List.mem_cons_of_mem _ named⟩
  · refine List.append_subset.mpr ⟨fun i mem => ?_, fun i mem => ?_⟩
    · exact List.mem_singleton.mp (inside mem) ▸ List.mem_cons_self
    · exact List.mem_cons_of_mem _ (inside' mem)
  · rw [List.filterMap_append, extend_append, own, others]
    exact tells'

end History.HandedOut

namespace Batch

variable (a : Ambient) (config : ServiceConfig) (source : String)

theorem handedOut_work (job : Message × Nat) (w : World) :
    ∃ answer w', (work (.inPlace config) source job).run a w = (.done answer, w') ∧
      ∀ h : History, h.Tells w → h.HandedOut w [job.1.id] (answer.toList.map (·.id)) w' := by
  obtain ⟨emission, _⟩ := Service.emission_emit a config source (.phoneSending (.ofMessage job.1)) w
  simp only [work]
  rw [Program.run_bind, Program.run_attempt]
  obtain ⟨lines, noted⟩ := WorkerEnd.run_note a
    (.ofOutcome (job.2 + 1) job.1.id (((Service.inPlace config).handOut source job.1).run a w).1)
    (((Service.inPlace config).handOut source job.1).run a w).2
  refine ⟨_, _, noted, fun h tells => ?_⟩
  obtain ⟨es, announced, about, inside, told⟩ :=
    History.HandedOut.single tells emission (job.2 + 1)
  exact ⟨es, announced, about, inside, told.of_same rfl fun _ => rfl⟩

theorem handedOut_mapM {jobs : List (Message × Nat)} (distinct : (jobs.map (·.1.id)).Nodup)
    (w : World) :
    ∃ answers w', (jobs.mapM (work (.inPlace config) source)).run a w = (.done answers, w') ∧
      ∀ h : History, h.Tells w →
        h.HandedOut w (jobs.map (·.1.id)) ((answers.filterMap id).map (·.id)) w' := by
  induction jobs generalizing w with
  | nil => exact ⟨[], w, rfl, fun h tells => .nil tells⟩
  | cons job jobs ih =>
      obtain ⟨new, rest⟩ := List.nodup_cons.mp distinct
      obtain ⟨answer, w₁, worked, first⟩ := handedOut_work a config source job w
      obtain ⟨answers, w', ran, later⟩ := ih rest w₁
      refine ⟨answer :: answers, w', ?_, fun h tells => ?_⟩
      · rw [List.mapM_cons, Program.run_bind, worked]
        simp only
        rw [Program.run_bind, ran]
        rfl
      · have handed : ((answer :: answers).filterMap id).map (·.id) =
            answer.toList.map (·.id) ++ (answers.filterMap id).map (·.id) := by
          cases answer <;> rfl
        rw [handed]
        exact .cons new (first h tells) fun h₁ told => later h₁ told

theorem tells_process {b : Batch} (narrow : b.width ≤ maxWidth)
    (distinct : (b.messages.map (·.id)).Nodup) (picks : List Nat) (w : World) :
    ∃ handed w', (b.process (.inPlace config) picks).run a w = (.done handed, w') ∧
      ∀ h : History, h.Tells w →
        ∃ es, w'.announced = w.announced ++ es ∧
          (h.extend (es.filterMap (Effect.ofHandOut? (handed.map (·.id))))).Tells w' := by
  have jobs : ((completions b.width picks b.messages.zipIdx).map (·.1.id)).Nodup := by
    refine ((completions_perm b.width picks b.messages.zipIdx).map _).nodup_iff.mpr ?_
    have names : b.messages.zipIdx.map (·.1.id) = b.messages.map (·.id) := by
      have fsts := congrArg (List.map Message.id) (List.zipIdx_map_fst 0 b.messages)
      rwa [List.map_map] at fsts
    rw [names]
    exact distinct
  obtain ⟨answers, w', ran, told⟩ := handedOut_mapM a config b.source jobs w
  refine ⟨answers.filterMap id, w', ?_, fun h tells => ?_⟩
  · simp only [process, begin, if_pos narrow, pure_bind]
    rw [Program.run_bind, ran]
    rfl
  · obtain ⟨es, announced, _, _, tells'⟩ := told h tells
    exact ⟨es, announced, tells'⟩

end Batch

end SmsTracking
