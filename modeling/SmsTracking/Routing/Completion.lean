/-!
The order in which jobs end when some of them run at the same time. Jobs start in their order, and
one starts as soon as fewer than the limit are running, so that the running ones are always the first
of those that have not ended. Main statements: every job ends once (`completions_perm`), and jobs
that run one at a time end in the order in which they start (`completions_of_limit_le_one`).
-/

namespace SmsTracking

variable {α : Type}

/-- The job at a position, or the last one, and the others. -/
def pick : Nat → α → List α → α × List α
  | 0, a, as => (a, as)
  | _ + 1, a, [] => (a, [])
  | i + 1, a, b :: as => ((pick i b as).1, a :: (pick i b as).2)

theorem length_pick (i : Nat) (a : α) (as : List α) : (pick i a as).2.length = as.length := by
  fun_induction pick i a as with
  | case1 | case2 => rfl
  | case3 i a b as ih => simp [ih]

theorem pick_perm (i : Nat) (a : α) (as : List α) :
    ((pick i a as).1 :: (pick i a as).2).Perm (a :: as) := by
  fun_induction pick i a as with
  | case1 | case2 => exact .refl _
  | case3 i a b as ih => exact (List.Perm.swap ..).trans (ih.cons a)

/-- `picks` says which of the running jobs ends next, and the first of them does where it says
nothing. At least one job runs at a time. -/
def completions (limit : Nat) : List Nat → List α → List α
  | _, [] => []
  | picks, job :: jobs =>
    let i := picks.headD 0 % max limit 1
    (pick i job jobs).1 :: completions limit picks.tail (pick i job jobs).2
termination_by _ jobs => jobs.length
decreasing_by
  rw [length_pick]
  exact Nat.lt_succ_self _

theorem completions_perm (limit : Nat) (picks : List Nat) (jobs : List α) :
    (completions limit picks jobs).Perm jobs := by
  fun_induction completions limit picks jobs with
  | case1 => exact .nil
  | case2 picks job jobs i ih => exact (ih.cons _).trans (pick_perm i job jobs)

theorem completions_of_limit_le_one {limit : Nat} (h : limit ≤ 1) (picks : List Nat)
    (jobs : List α) : completions limit picks jobs = jobs := by
  have hmax : max limit 1 = 1 := by omega
  induction jobs generalizing picks with
  | nil => rw [completions]
  | cons job jobs ih => rw [completions, hmax, Nat.mod_one, pick, ih]

end SmsTracking
