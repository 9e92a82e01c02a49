import SmsTracking.Proofs.Classification

/-!
Errors in layers. On its way to the caller an error gets contexts, and a dispatch wraps what a
handler has failed with, so the error that tells what happened can lie under any number of layers.
Main statement: the whole is classified like the error under its layers, and no error counts both as
not found and as worth another try (`layers_classified`).
-/

namespace SmsTracking

/-- Holds no other error. -/
def DomainError.isLeaf : DomainError → Bool
  | eventHandler _ _ _ => false
  | _ => true

namespace AppError

def isLeaf : AppError → Bool
  | context _ _ => false
  | domain e => e.isLeaf
  | _ => true

/-- The error lies under layers: contexts, and failed handlers that hold an error of the service.
The handler at the bottom may hold the domain error itself. -/
inductive Under (leaf : AppError) : AppError → Prop
  | self : Under leaf leaf
  | context {e : AppError} (text : String) (inner : Under leaf e) : Under leaf (.context text e)
  | handler {cause : Cause} {e : AppError} (name eventId : String) (source : cause.root = .app e)
      (inner : Under leaf e) : Under leaf (.domain (.eventHandler name eventId cause))
  | bare {cause : Cause} {d : DomainError} (name eventId : String) (source : cause.root = .domain d)
      (bottom : leaf = .domain d) : Under leaf (.domain (.eventHandler name eventId cause))

/-! One layer -/

theorem isNotFound_handler (name eventId : String) (cause : Cause) :
    (domain (.eventHandler name eventId cause)).isNotFound = cause.root.isNotFound :=
  cause.isNotFound_root.symm

theorem isRetriable_handler (name eventId : String) (cause : Cause) :
    (domain (.eventHandler name eventId cause)).isRetriable = cause.root.isRetriable :=
  cause.isRetriable_root.symm

theorem isNotFound_domain {d : DomainError} (leaf : d.isLeaf = true) :
    (domain d).isNotFound = d.isNotFound := by
  cases d with
  | eventHandler _ _ _ => cases leaf
  | _ => rfl

theorem isRetriable_domain {d : DomainError} (leaf : d.isLeaf = true) :
    (domain d).isRetriable = d.isRetriable := by
  cases d with
  | eventHandler _ _ _ => cases leaf
  | _ => rfl

/-! All layers -/

theorem Under.isNotFound {leaf e : AppError} (bottom : leaf.isLeaf = true) (under : leaf.Under e) :
    e.isNotFound = leaf.isNotFound := by
  induction under with
  | self => rfl
  | context text inner ih => exact ih
  | handler name eventId source inner ih =>
      rw [isNotFound_handler, source]
      exact ih
  | bare name eventId source same =>
      subst same
      rw [isNotFound_handler, source]
      exact (isNotFound_domain bottom).symm

theorem Under.isRetriable {leaf e : AppError} (bottom : leaf.isLeaf = true) (under : leaf.Under e) :
    e.isRetriable = leaf.isRetriable := by
  induction under with
  | self => rfl
  | context text inner ih => exact ih
  | handler name eventId source inner ih =>
      rw [isRetriable_handler, source]
      exact ih
  | bare name eventId source same =>
      subst same
      rw [isRetriable_handler, source]
      exact (isRetriable_domain bottom).symm

/-- The root is what the outermost contexts are about. -/
theorem root_eq_iff {e r : AppError} :
    e.root = r ↔
      (∃ texts : List String, e = texts.foldr context r) ∧
        ∀ text source, r ≠ .context text source := by
  constructor
  · rintro rfl
    fun_induction root e with
    | case1 text source ih =>
        obtain ⟨⟨texts, below⟩, plain⟩ := ih
        exact ⟨⟨text :: texts, congrArg (context text) below⟩, plain⟩
    | case2 e plain => exact ⟨⟨[], rfl⟩, plain⟩
  · rintro ⟨⟨texts, rfl⟩, plain⟩
    induction texts with
    | nil =>
        cases r with
        | context text source => exact absurd rfl (plain text source)
        | _ => rfl
    | cons text texts ih => exact ih

end AppError

/-! The two classes do not meet -/

theorem DomainError.isRetriable_of_isNotFound {d : DomainError} (h : d.isNotFound = true) :
    d.isRetriable = false := by
  cases d with
  | notFound _ => rfl
  | _ => cases h

mutual

theorem AppError.isRetriable_of_isNotFound (e : AppError) (h : e.isNotFound = true) :
    e.isRetriable = false := by
  cases e with
  | context text source => exact source.isRetriable_of_isNotFound h
  | domain d =>
      cases d with
      | eventHandler name eventId cause => exact cause.isRetriable_of_isNotFound h
      | notFound _ => rfl
      | _ => cases h
  | _ => cases h

theorem Cause.isRetriable_of_isNotFound (c : Cause) (h : c.isNotFound = true) :
    c.isRetriable = false := by
  cases c with
  | context text source => exact source.isRetriable_of_isNotFound h
  | app e => exact e.isRetriable_of_isNotFound h
  | domain d => exact DomainError.isRetriable_of_isNotFound h
  | text _ => cases h

end

/-- A failed handler that holds an error of neither kind counts as worth another try. -/
theorem layers_classified :
    (∀ leaf e : AppError, leaf.isLeaf = true → leaf.Under e →
      e.isNotFound = leaf.isNotFound ∧ e.isRetriable = leaf.isRetriable) ∧
    (∀ e r : AppError, e.root = r ↔
      (∃ texts : List String, e = texts.foldr AppError.context r) ∧
        ∀ text source, r ≠ .context text source) ∧
    (∀ name eventId cause text, cause.root = .text text →
      let failure := DomainError.eventHandler name eventId cause
      (failure.isRetriable = true ∧ failure.isNotFound = false) ∧
        (AppError.domain failure).isRetriable = true ∧
        (AppError.domain failure).isNotFound = false) ∧
    (∀ d : DomainError, ¬ (d.isNotFound = true ∧ d.isRetriable = true)) ∧
    ∀ e : AppError, ¬ (e.isNotFound = true ∧ e.isRetriable = true) := by
  refine ⟨?_, fun _ _ => AppError.root_eq_iff, ?_, ?_, ?_⟩
  · exact fun leaf e bottom under => ⟨under.isNotFound bottom, under.isRetriable bottom⟩
  · intro name eventId cause text foreign failure
    refine ⟨⟨?_, rfl⟩, ?_, ?_⟩
    · rw [DomainError.isRetriable_eventHandler, foreign, Cause.isRetriableDomain]
    · rw [AppError.isRetriable_handler, foreign, Cause.isRetriable]
    · rw [AppError.isNotFound_handler, foreign, Cause.isNotFound]
  · rintro d ⟨missing, retriable⟩
    rw [DomainError.isRetriable_of_isNotFound missing] at retriable
    cases retriable
  · rintro e ⟨missing, retriable⟩
    rw [e.isRetriable_of_isNotFound missing] at retriable
    cases retriable

/-- Contexts above and below two failed handlers, of which the inner one holds the domain error. -/
theorem layers_classified_deep :
    let leaf := AppError.domain (.notFound "message")
    let inner : AppError := .context "cannot reload"
      (.domain (.eventHandler "h" "1" (.domain (.notFound "message"))))
    let e : AppError := .context "cannot send"
      (.domain (.eventHandler "g" "2" (.context "late" (.app inner))))
    leaf.isLeaf = true ∧ leaf.Under e ∧ e.isNotFound = leaf.isNotFound ∧
      e.isRetriable = leaf.isRetriable := by
  intro leaf inner e
  have under : leaf.Under e :=
    .context _ (.handler _ _ rfl (.context _ (.bare _ _ rfl rfl)))
  exact ⟨rfl, under, layers_classified.1 leaf e rfl under⟩

end SmsTracking
