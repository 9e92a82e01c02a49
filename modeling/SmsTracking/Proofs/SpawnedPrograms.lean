import Mathlib.Data.List.Forall2
import SmsTracking.Proofs.Conduct

/-!
Programs that keep to a conduct and set others going, which then keep to it too. Every program has a
standing beside it, and those that are set going come with theirs. Main statement: what every
permitted request preserves holds after every schedule (`run_keeps_offspring`).
-/

namespace SmsTracking

namespace Turns

variable {σ α : Type}

/-- All programs keep to the conduct, each from the standing in its place. -/
def Keeps (c : Conduct σ α) (programs : List (Program α)) (standings : List σ) : Prop :=
  List.Forall₂ (fun p s => p.Follows c s) programs standings

namespace Keeps

variable {c : Conduct σ α} {ps qs : List (Program α)} {ss rs : List σ}

theorem append (keeps : Keeps c ps ss) (more : Keeps c qs rs) : Keeps c (ps ++ qs) (ss ++ rs) := by
  induction keeps with
  | nil => exact more
  | cons follows _ ih => exact .cons follows ih

theorem set (keeps : Keeps c ps ss) {p : Program α} {s : σ} (follows : p.Follows c s)
    (place : Nat) : Keeps c (ps.set place p) (ss.set place s) := by
  induction keeps generalizing place with
  | nil => exact .nil
  | cons first rest ih =>
      cases place with
      | zero => exact .cons follows rest
      | succ place => exact .cons first (ih place)

theorem exists_standing (keeps : Keeps c ps ss) {place : Nat} {p : Program α}
    (found : ps[place]? = some p) : ∃ s, ss[place]? = some s ∧ p.Follows c s := by
  induction keeps generalizing place with
  | nil => simp at found
  | cons first rest ih =>
      cases place with
      | zero =>
          cases found
          exact ⟨_, rfl, first⟩
      | succ place => exact ih found

end Keeps

/-- The programs that are set going at an end have these standings. -/
def Begets (c : Conduct σ α) (heirs : α → List (Program α)) (offspring : α → List σ) : Prop :=
  ∀ s x, c.ends s (.done x) → Keeps c (heirs x) (offspring x)

/-- The standings of what a program in this standing may set going. -/
inductive Bears (c : Conduct σ α) (offspring : α → List σ) (s : σ) : List σ → Prop
  | nothing : Bears c offspring s []
  | ended {x : α} (ends : c.ends s (.done x)) : Bears c offspring s (offspring x)

theorem Begets.followers {c : Conduct σ α} {heirs : α → List (Program α)} {offspring : α → List σ}
    (begets : Begets c heirs offspring) {p : Program α} {s : σ} (follows : p.Follows c s) :
    ∃ more, Bears c offspring s more ∧ Keeps c (followers heirs p) more := by
  cases p with
  | done x => exact ⟨offspring x, .ended follows, begets s x follows⟩
  | abort text => exact ⟨[], .nothing, .nil⟩
  | ask r next => exact ⟨[], .nothing, .nil⟩

section Run

variable {a : Ambient} {c : Conduct σ α} {heirs : α → List (Program α)} {offspring : α → List σ}
  {I : World → List (Nat × Exchange) → List σ → Prop}

theorem step_keeps_offspring (begets : Begets c heirs offspring) {t : Turns α} {ss : List σ}
    (keeps : Keeps c t.programs ss) (inv : I t.world t.exchanges ss)
    (go : ∀ w es ss place s r more, I w es ss → ss[place]? = some s → c.may s r →
      Bears c offspring (c.next s ⟨r, (w.answer a r).1⟩) more →
      I (w.answer a r).2 (es ++ [(place, ⟨r, (w.answer a r).1⟩)])
        (ss.set place (c.next s ⟨r, (w.answer a r).1⟩) ++ more))
    (pass : ∀ w es ss s, I w es ss → I { w with uptime := w.uptime.after s } es ss)
    (cancel : ∀ w es ss, I w es ss → I { w with cancelled := true } es ss) (turn : Turn) :
    ∃ ss', Keeps c (t.step a heirs turn).programs ss' ∧
      I (t.step a heirs turn).world (t.step a heirs turn).exchanges ss' := by
  cases turn with
  | pass s => exact ⟨ss, keeps, pass _ _ _ s inv⟩
  | cancel => exact ⟨ss, keeps, cancel _ _ _ inv⟩
  | go place =>
      simp only [step, Turns.go]
      split
      · rename_i r next asked
        obtain ⟨s, found, may, rest⟩ := keeps.exists_standing asked
        have follows := rest a t.world
        obtain ⟨more, bears, kept⟩ := begets.followers follows
        exact ⟨_, (keeps.set follows place).append kept, go _ _ _ _ s r more inv found may bears⟩
      · exact ⟨ss, keeps, inv⟩

theorem run_keeps_offspring (begets : Begets c heirs offspring) {t : Turns α} {ss : List σ}
    (keeps : Keeps c t.programs ss) (inv : I t.world t.exchanges ss)
    (go : ∀ w es ss place s r more, I w es ss → ss[place]? = some s → c.may s r →
      Bears c offspring (c.next s ⟨r, (w.answer a r).1⟩) more →
      I (w.answer a r).2 (es ++ [(place, ⟨r, (w.answer a r).1⟩)])
        (ss.set place (c.next s ⟨r, (w.answer a r).1⟩) ++ more))
    (pass : ∀ w es ss s, I w es ss → I { w with uptime := w.uptime.after s } es ss)
    (cancel : ∀ w es ss, I w es ss → I { w with cancelled := true } es ss) (schedule : List Turn) :
    ∃ ss', Keeps c (t.run a heirs schedule).programs ss' ∧
      I (t.run a heirs schedule).world (t.run a heirs schedule).exchanges ss' := by
  induction schedule generalizing t ss with
  | nil => exact ⟨ss, keeps, inv⟩
  | cons turn schedule ih =>
      obtain ⟨ss', keeps', inv'⟩ := step_keeps_offspring begets keeps inv go pass cancel turn
      exact ih keeps' inv'

end Run

end Turns

end SmsTracking
