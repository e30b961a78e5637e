/-
# Runs shared among workers

A run is a list of tasks: before each registration and before each check it looks at the
token, and after looking before a check it has the findings of that check.  The run is
cancelled when the token is set at one of these moments, and otherwise it has the findings
of all tasks (`Run.sequential_eq`).  How the registrations are cut into stretches does not
matter: the stretches hold every registration once and in order
(`Run.flatten_stretches`), so workers that take a stretch each do the same tasks
(`Run.shared_eq`), and an audit with any number of workers is the audit without them
(`Auditor.auditWith_eq`).
-/

import MappingAudit.Audit.Basic
import Mathlib.Data.List.Basic
import Mathlib.Tactic.ByContra

namespace MappingAudit
namespace Run

/-- A look at the token, and what is found after it. -/
structure Task where
  poll : Poll
  found : List Finding

/-- The findings of some tasks. -/
def found (ts : List Task) : List Finding := ts.flatMap (·.found)

/-- Does tasks one after the other, unless the token is set at one of them. -/
def perform (t : Token) (ts : List Task) : Except Cancelled (List Finding) :=
  if ts.any fun task => t task.poll then .error .cancelled else .ok (found ts)

/-- The tasks of checks for one registration; the first check has a position. -/
def checkTasks (x : Context) : Nat → List Check → List Task
  | _, [] => []
  | j, c :: cs => ⟨.check x.registration.id j, (c.run x).findings⟩ :: checkTasks x (j + 1) cs

/-- The tasks of checks for some registrations. -/
def tasks (checks : List Check) (xs : List Context) : List Task :=
  xs.flatMap fun x => ⟨.registration x.registration.id, []⟩ :: checkTasks x 0 checks

/-! ### One worker -/

/-- Tasks behind each other find what both find. -/
@[simp] theorem found_append (ts us : List Task) : found (ts ++ us) = found ts ++ found us :=
  List.flatMap_append

/-- The tasks of a registration find what its checks find. -/
theorem found_checkTasks (x : Context) (j : Nat) (checks : List Check) :
    found (checkTasks x j checks) = checks.flatMap fun k => (k.run x).findings := by
  induction checks generalizing j with
  | nil => rfl
  | cons c cs ih =>
    have hrest := ih (j + 1)
    rw [found] at hrest ⊢
    rw [checkTasks, List.flatMap_cons, List.flatMap_cons, hrest]

/-- The tasks of several registrations find what their checks find, in order. -/
theorem found_tasks (checks : List Check) (xs : List Context) :
    found (tasks checks xs) = xs.flatMap fun x => checks.flatMap fun k => (k.run x).findings := by
  rw [found, tasks, List.flatMap_assoc]
  congr 1
  funext x
  rw [List.flatMap_cons, List.nil_append]
  exact found_checkTasks x 0 checks

/-- A task comes before the others. -/
theorem perform_cons (t : Token) (task : Task) (ts : List Task) :
    perform t (task :: ts) = (do
      t.poll task.poll
      let rest ← perform t ts
      pure (task.found ++ rest)) := by
  rw [perform, perform, List.any_cons, Token.poll]
  cases t task.poll with
  | true => rfl
  | false =>
    rw [Bool.false_or]
    cases ts.any fun task => t task.poll <;> rfl

/-- Tasks come before others. -/
theorem perform_append (t : Token) (ts us : List Task) :
    perform t (ts ++ us) = (do
      let first ← perform t ts
      let rest ← perform t us
      pure (first ++ rest)) := by
  rw [perform, perform, perform, List.any_append, found_append]
  cases ts.any fun task => t task.poll with
  | true => rfl
  | false =>
    rw [Bool.false_or]
    cases us.any fun task => t task.poll <;> rfl

/-- Running the checks of a registration performs its tasks. -/
theorem checksFrom_eq (t : Token) (x : Context) (j : Nat) (checks : List Check) :
    checksFrom t x j checks = perform t (checkTasks x j checks) := by
  induction checks generalizing j with
  | nil => rfl
  | cons c cs ih => rw [checksFrom, checkTasks, perform_cons, ih]

/-- **A run is cancelled at one of its tasks, or it has the findings of all of them.** -/
theorem sequential_eq (t : Token) (checks : List Check) (xs : List Context) :
    sequential t checks xs = perform t (tasks checks xs) := by
  induction xs with
  | nil => rfl
  | cons x xs ih =>
    have hcons : tasks checks (x :: xs) =
        ⟨.registration x.registration.id, []⟩ :: (checkTasks x 0 checks ++ tasks checks xs) :=
      List.flatMap_cons
    rw [sequential, hcons, perform_cons, perform_append, ih, checksFrom_eq]
    cases t.poll (.registration x.registration.id) with
    | error e => rfl
    | ok u =>
      cases perform t (checkTasks x 0 checks) with
      | error e => rfl
      | ok first => cases perform t (tasks checks xs) <;> rfl

/-! ### Several workers -/

section Stretches

variable {α : Type} {n : Nat}

/-- **Stretches hold every element once, in order.** -/
theorem flatten_stretches (hn : 0 < n) (xs : List α) : (stretches n xs).flatten = xs := by
  fun_induction stretches n xs with
  | case1 xs h ih => rw [List.flatten_cons, ih, List.take_append_drop]
  | case2 xs h =>
    have hnil : xs = [] := by
      by_contra hne
      exact h ⟨hn, hne⟩
    rw [hnil, List.flatten_nil]

/-- All stretches but the last one are full. -/
theorem length_stretches (hn : 0 < n) (xs : List α) :
    (stretches n xs).length = (xs.length + n - 1) / n := by
  fun_induction stretches n xs with
  | case1 xs h ih =>
    have hpos := List.length_pos_iff.2 h.2
    rw [List.length_cons, ih, List.length_drop]
    rcases Nat.lt_or_ge xs.length n with hlt | hle
    · have hnone : (xs.length - n + n - 1) / n = 0 := Nat.div_eq_of_lt (by omega)
      have hone : (xs.length + n - 1) / n = 1 := Nat.div_eq_of_lt_le (by omega) (by omega)
      rw [hnone, hone]
    · rw [show xs.length - n + n - 1 = xs.length - 1 by omega,
        show xs.length + n - 1 = xs.length - 1 + n by omega, Nat.add_div_right _ hn]
  | case2 xs h =>
    have hnil : xs = [] := by
      by_contra hne
      exact h ⟨hn, hne⟩
    rw [hnil, List.length_nil, List.length_nil]
    exact (Nat.div_eq_of_lt (by omega)).symm

/-- **There are no more stretches than workers.** -/
theorem length_stretches_le {workers : Nat} (hworkers : 0 < workers) (xs : List α) :
    (stretches ((xs.length + workers - 1) / workers) xs).length ≤ workers := by
  have hlt := Nat.lt_mul_div_succ (xs.length + workers - 1) hworkers
  generalize (xs.length + workers - 1) / workers = n at hlt ⊢
  rw [Nat.mul_add, Nat.mul_one] at hlt
  rcases Nat.eq_zero_or_pos n with rfl | hn
  · rw [stretches, dif_neg (fun h => absurd h.1 (Nat.lt_irrefl 0))]
    exact Nat.zero_le _
  · rw [length_stretches hn]
    have hbound : xs.length + n - 1 < (workers + 1) * n := by
      rw [Nat.add_mul, Nat.one_mul]
      omega
    exact Nat.lt_succ_iff.1 (Nat.div_lt_of_lt_mul (by rwa [Nat.mul_comm]))

end Stretches

/-- What each of several workers does. -/
def parts (workers : Nat) (checks : List Check) (xs : List Context) : List (List Task) :=
  (if workers ≤ 1 then [xs] else stretches ((xs.length + workers - 1) / workers) xs).map
    (tasks checks)

/-- The tasks of several stretches are those of all registrations. -/
theorem tasks_flatten (checks : List Check) (xss : List (List Context)) :
    (xss.map (tasks checks)).flatten = tasks checks xss.flatten := by
  induction xss with
  | nil => rfl
  | cons xs xss ih => rw [List.map_cons, List.flatten_cons, ih, List.flatten_cons, tasks, tasks,
      tasks, List.flatMap_append]

/-- **The workers together do every task once, in order.** -/
theorem flatten_parts (workers : Nat) (checks : List Check) (xs : List Context) :
    (parts workers checks xs).flatten = tasks checks xs := by
  rw [parts, tasks_flatten]
  split
  · rw [List.flatten_singleton]
  · next hworkers =>
    by_cases hne : xs = []
    · rw [hne, stretches, dif_neg (fun h => h.2 rfl)]
      rfl
    · have hpos := List.length_pos_iff.2 hne
      rw [flatten_stretches (Nat.div_pos (by omega) (by omega))]

/-- No worker is left over. -/
theorem length_parts_le {workers : Nat} (hworkers : 0 < workers) (checks : List Check)
    (xs : List Context) : (parts workers checks xs).length ≤ workers := by
  rw [parts, List.length_map]
  split
  · exact hworkers
  · exact length_stretches_le hworkers xs

/-- Stretches that are performed one by one are performed as a whole. -/
theorem join_map_perform (t : Token) (tss : List (List Task)) :
    join (tss.map (perform t)) = perform t tss.flatten := by
  induction tss with
  | nil => rfl
  | cons ts tss ih => rw [List.map_cons, join, List.flatten_cons, perform_append, ih]

/-- **However many workers share a run, it comes to the same.** -/
theorem shared_eq (t : Token) (workers : Nat) (checks : List Check) (xs : List Context) :
    shared t workers checks xs = perform t (tasks checks xs) := by
  have hparts := flatten_parts workers checks xs
  rw [parts] at hparts
  rw [shared]
  split
  · exact sequential_eq t checks xs
  · next hworkers =>
    rw [if_neg hworkers] at hparts
    rw [show sequential t checks = perform t ∘ tasks checks from funext (sequential_eq t checks),
      ← List.map_map, join_map_perform, hparts]

end Run

namespace Auditor

variable [CSharp.Reader]

/-- What the checks see of the registrations of a workspace. -/
def contextsOf (w : Workspace) : List Context :=
  contexts w.catalog (.ofRegistrations w.catalog w.registrations) w.registrations

/-- The audit that has these findings, before the settings are looked at. -/
def finish (a : Auditor) (w : Workspace) (found : List Finding) : Audit :=
  ⟨w.registrations, .ofRegistrations w.catalog w.registrations,
    arrange w.registrations (a.configure found)⟩

/-- The moments at which an audit looks at the token. -/
def polls (a : Auditor) (w : Workspace) : List Poll :=
  .start :: ((Run.tasks a.active (contextsOf w)).map (·.poll) ++ [.finish])

/-- **An audit** is what its tasks find, finished. -/
theorem audit_eq (a : Auditor) (w : Workspace) :
    a.audit w = a.finish w (Run.found (Run.tasks a.active (contextsOf w))) := by
  rw [Run.found_tasks]
  rfl

/-- **An audit is cancelled at one of its looks at the token, or it is the whole audit.** -/
theorem auditWith_eq (a : Auditor) (cores : Nat) (t : Token) (w : Workspace) :
    a.auditWith cores t w = if (a.polls w).any t then .error .cancelled else .ok (a.audit w) := by
  have hshared : Run.shared t (a.workers cores w.registrations) a.active (contextsOf w) =
      Run.perform t (Run.tasks a.active (contextsOf w)) :=
    Run.shared_eq t _ a.active (contextsOf w)
  have hany : (a.polls w).any t = (t .start ||
      ((Run.tasks a.active (contextsOf w)).any (fun task => t task.poll) || t .finish)) := by
    rw [polls, List.any_cons, List.any_append, List.any_map, List.any_cons, List.any_nil,
      Bool.or_false]
    rfl
  have hrun : a.auditWith cores t w = (do
      t.poll .start
      let found ← Run.shared t (a.workers cores w.registrations) a.active (contextsOf w)
      t.poll .finish
      pure (a.finish w found)) := rfl
  rw [hrun, hshared, hany, audit_eq, Run.perform, Token.poll, Token.poll]
  cases t .start with
  | true => rfl
  | false =>
    cases (Run.tasks a.active (contextsOf w)).any fun task => t task.poll with
    | true => rfl
    | false => cases t .finish <;> rfl

/-- Without a cancellation the audit is the whole one, however many workers share it. -/
theorem auditWith_never (a : Auditor) (cores : Nat) (w : Workspace) :
    a.auditWith cores .never w = .ok (a.audit w) := by
  rw [auditWith_eq, if_neg]
  simp [Token.never]

end Auditor
end MappingAudit
