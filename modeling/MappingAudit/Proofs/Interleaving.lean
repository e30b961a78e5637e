/-
# Interleaved audits

The workers of an audit, the thread that waits for them and whoever cancels the audit take
turns in any order (`Execution.step`).  A worker looks at the token before each of its tasks
and gives up when it finds it set; the token is never unset.  What holds at every moment
(`Execution.IsSound`) is that a worker that has not given up has the findings of the tasks it
has done, in order, and that nobody gives up before the token is set.  It holds at the start
and after each move (`Execution.IsSound.step`), so an audit that has ended is cancelled, or it
is the one that a single worker comes to when nobody cancels it (`Execution.isSound_run`).
However the moves so far were taken, some further moves end the audit
(`Execution.exists_ended`).
-/

import MappingAudit.Proofs.SharedRun
import Mathlib.Data.List.Forall2

namespace MappingAudit

open Run (Task)

/-- A worker, with what it has found and what it has to do. -/
structure Worker where
  found : Except Cancelled (List Finding)
  todo : List Task

namespace Worker

/-- A worker at the start. -/
def ofTasks (ts : List Task) : Worker := ⟨.ok [], ts⟩

/-- The worker has nothing to do any more. -/
def isDone (k : Worker) : Bool := k.todo.isEmpty

/-- Looks at the token and does a task, or gives up. -/
def advance (isSet : Bool) (k : Worker) : Worker :=
  match k.todo with
  | [] => k
  | task :: rest =>
    if isSet then ⟨.error .cancelled, []⟩ else ⟨k.found.map (· ++ task.found), rest⟩

/-- The worker gave up after the token was set, or it has the findings of those of its tasks
that it has done. -/
def IsSound (isSet : Bool) (ts : List Task) (k : Worker) : Prop :=
  (k.found = .error .cancelled ∧ k.todo = [] ∧ isSet = true) ∨
    ∃ fs, k.found = .ok fs ∧ fs ++ Run.found k.todo = Run.found ts

variable {isSet : Bool} {ts : List Task} {k : Worker}

/-- A worker is sound before its first task. -/
theorem isSound_ofTasks (isSet : Bool) (ts : List Task) : IsSound isSet ts (ofTasks ts) :=
  Or.inr ⟨[], rfl, List.nil_append _⟩

/-- What a worker has stays right when the token is set. -/
theorem IsSound.set (h : IsSound isSet ts k) : IsSound true ts k := by
  rcases h with ⟨hfound, htodo, -⟩ | h
  · exact Or.inl ⟨hfound, htodo, rfl⟩
  · exact Or.inr h

/-- A step of a worker keeps it sound. -/
theorem IsSound.advance (h : IsSound isSet ts k) : IsSound isSet ts (k.advance isSet) := by
  rw [Worker.advance]
  split
  · exact h
  · next task rest htodo =>
    rcases h with ⟨-, hnil, -⟩ | ⟨fs, hfound, heq⟩
    · rw [hnil] at htodo
      cases htodo
    · cases isSet with
      | true => exact Or.inl ⟨rfl, rfl, rfl⟩
      | false =>
        refine Or.inr ⟨fs ++ task.found, by rw [hfound]; rfl, ?_⟩
        rw [htodo] at heq
        rw [← heq, List.append_assoc]
        rfl

/-- A worker that has something to do comes nearer to its end. -/
theorem length_todo_advance_lt (isSet : Bool) (h : k.isDone = false) :
    (k.advance isSet).todo.length < k.todo.length := by
  rw [advance]
  split
  · next hnil =>
    rw [isDone, hnil] at h
    cases h
  · next task rest htodo =>
    rw [htodo, List.length_cons]
    cases isSet with
    | true => exact Nat.succ_pos _
    | false => exact Nat.lt_succ_self _

end Worker

/-- How far an audit has come. -/
inductive Stage where
  | starting
  /-- The workers are at work, and the main thread waits for them. -/
  | working (workers : List Worker)
  | ended (result : Except Cancelled (List Finding))

/-- An audit at some moment. -/
structure Execution where
  /-- The token is set. -/
  isSet : Bool
  stage : Stage

/-- Who takes the next turn. -/
inductive Move where
  /-- The token is set. -/
  | cancel
  /-- The main thread. -/
  | main
  /-- The worker of a position. -/
  | worker (position : Nat)
  deriving DecidableEq

namespace Execution

/-- Before the first move. -/
def start : Execution := ⟨false, .starting⟩

/-- The result of a run when the token is looked at once more. -/
def settle (isSet : Bool) (found : Except Cancelled (List Finding)) :
    Except Cancelled (List Finding) :=
  if isSet then .error .cancelled else found

/-- The audit after the main thread has taken its turn: it looks at the token and starts the
workers, or puts their findings together once all of them are done. -/
def stepMain (tss : List (List Task)) (e : Execution) : Stage :=
  match e.stage with
  | .starting => if e.isSet then .ended (.error .cancelled) else .working (tss.map .ofTasks)
  | .working ks =>
    if ks.all (·.isDone) then .ended (settle e.isSet (Run.join (ks.map (·.found))))
    else .working ks
  | .ended r => .ended r

/-- The audit after a worker has taken its turn. -/
def stepWorker (e : Execution) (i : Nat) : Stage :=
  match e.stage with
  | .working ks => .working (ks.modify i (Worker.advance e.isSet))
  | stage => stage

/-- The audit after a move; each worker has its tasks. -/
def step (tss : List (List Task)) (e : Execution) : Move → Execution
  | .cancel => { e with isSet := true }
  | .main => { e with stage := e.stepMain tss }
  | .worker i => { e with stage := e.stepWorker i }

/-- The audit after some moves. -/
def run (tss : List (List Task)) (e : Execution) (moves : List Move) : Execution :=
  moves.foldl (step tss) e

/-! ### What holds at every moment -/

/-- What the stage says is right. -/
def IsSound (tss : List (List Task)) (e : Execution) : Prop :=
  match e.stage with
  | .starting => True
  | .working ks => List.Forall₂ (Worker.IsSound e.isSet) tss ks
  | .ended r => (r = .error .cancelled ∧ e.isSet = true) ∨ r = .ok (Run.found tss.flatten)

/-- Changing an element of the second list keeps the lists related. -/
theorem forall₂_modify {α β : Type} {R : α → β → Prop} {f : β → β}
    (hf : ∀ a b, R a b → R a (f b)) {as : List α} {bs : List β} (h : List.Forall₂ R as bs)
    (i : Nat) : List.Forall₂ R as (bs.modify i f) := by
  induction h generalizing i with
  | nil => cases i <;> exact .nil
  | cons hab hrest ih =>
    cases i with
    | zero => exact .cons (hf _ _ hab) hrest
    | succ i => exact .cons hab (ih i)

/-- Workers that are all done have all findings, unless one of them gave up. -/
theorem join_found {isSet : Bool} {tss : List (List Task)} {ks : List Worker}
    (h : List.Forall₂ (Worker.IsSound isSet) tss ks) (hdone : ks.all (·.isDone) = true) :
    (Run.join (ks.map (·.found)) = .error .cancelled ∧ isSet = true) ∨
      Run.join (ks.map (·.found)) = .ok (Run.found tss.flatten) := by
  induction h with
  | nil => exact Or.inr rfl
  | @cons ts k tss ks hk hks ih =>
    rw [List.all_cons, Bool.and_eq_true] at hdone
    rw [List.map_cons, Run.join, List.flatten_cons, Run.found_append]
    rcases hk with ⟨hfound, -, hset⟩ | ⟨fs, hfound, heq⟩
    · exact Or.inl ⟨by rw [hfound]; rfl, hset⟩
    · have htodo : k.todo = [] := List.isEmpty_iff.1 hdone.1
      rw [htodo, Run.found, List.flatMap_nil, List.append_nil] at heq
      rw [hfound, heq]
      rcases ih hdone.2 with ⟨hjoin, hset⟩ | hjoin
      · exact Or.inl ⟨by rw [hjoin]; rfl, hset⟩
      · exact Or.inr (by rw [hjoin]; rfl)

variable {tss : List (List Task)} {e : Execution}

/-- A run is sound before its first step. -/
theorem isSound_start (tss : List (List Task)) : IsSound tss start := trivial

/-- A run that ended with all findings or with the token set is sound. -/
theorem isSound_settle {found : Except Cancelled (List Finding)}
    (h : (found = .error .cancelled ∧ e.isSet = true) ∨ found = .ok (Run.found tss.flatten)) :
    IsSound tss ⟨e.isSet, .ended (settle e.isSet found)⟩ := by
  cases hset : e.isSet with
  | true => exact Or.inl ⟨rfl, rfl⟩
  | false =>
    rcases h with ⟨-, hset'⟩ | h
    · rw [hset] at hset'
      cases hset'
    · exact Or.inr h

/-- A step of the main thread keeps a run sound. -/
theorem IsSound.stepMain (h : e.IsSound tss) : IsSound tss ⟨e.isSet, e.stepMain tss⟩ := by
  obtain ⟨isSet, stage⟩ := e
  cases stage with
  | starting =>
    cases isSet with
    | true => exact Or.inl ⟨rfl, rfl⟩
    | false =>
      show List.Forall₂ (Worker.IsSound false) tss (tss.map .ofTasks)
      rw [List.forall₂_map_right_iff, List.forall₂_same]
      exact fun ts _ => Worker.isSound_ofTasks false ts
  | working ks =>
    rw [Execution.stepMain]
    dsimp only
    split
    · next hdone => exact isSound_settle (e := ⟨isSet, .working ks⟩) (join_found h hdone)
    · exact h
  | ended r => exact h

/-- A step of a worker keeps a run sound. -/
theorem IsSound.stepWorker (h : e.IsSound tss) (i : Nat) :
    IsSound tss ⟨e.isSet, e.stepWorker i⟩ := by
  obtain ⟨isSet, stage⟩ := e
  cases stage with
  | starting => trivial
  | working ks => exact forall₂_modify (fun _ _ hk => hk.advance) h i
  | ended r => exact h

/-- Setting the token keeps a run sound. -/
theorem IsSound.set (h : e.IsSound tss) : IsSound tss ⟨true, e.stage⟩ := by
  obtain ⟨isSet, stage⟩ := e
  cases stage with
  | starting => trivial
  | working ks => exact List.Forall₂.imp (fun _ _ hk => hk.set) h
  | ended r => exact h.imp (fun herror => ⟨herror.1, rfl⟩) id

/-- **A move keeps what holds.** -/
theorem IsSound.step (h : e.IsSound tss) (move : Move) : (e.step tss move).IsSound tss := by
  cases move with
  | cancel => exact h.set
  | main => exact h.stepMain
  | worker i => exact h.stepWorker i

/-- **What the stage says is right at every moment.** -/
theorem isSound_run (h : e.IsSound tss) (moves : List Move) : (e.run tss moves).IsSound tss := by
  induction moves generalizing e with
  | nil => exact h
  | cons move moves ih => exact ih (h.step move)

/-- One worker is done before the token is set and the other gives up: nothing is found. -/
example : (start.run [[⟨.finish, []⟩], [⟨.finish, []⟩]]
    [.main, .worker 1, .cancel, .worker 0, .main]).stage = .ended (.error .cancelled) := rfl

/-- The token is set when it was set before or is set by a move. -/
theorem isSet_run (tss : List (List Task)) (e : Execution) (moves : List Move) :
    (e.run tss moves).isSet = true ↔ e.isSet = true ∨ .cancel ∈ moves := by
  induction moves generalizing e with
  | nil => simp [run]
  | cons move moves ih =>
    have hstep : (e.step tss move).isSet = true ↔ e.isSet = true ∨ .cancel = move := by
      cases move <;> simp [step]
    rw [show e.run tss (move :: moves) = (e.step tss move).run tss moves from rfl, ih, hstep,
      List.mem_cons, or_assoc]

/-! ### How an audit ends -/

/-- The turns that the main thread and the workers have yet to take. -/
def remaining (tss : List (List Task)) (e : Execution) : Nat :=
  match e.stage with
  | .starting => tss.flatten.length + 2
  | .working ks => (ks.flatMap (·.todo)).length + 1
  | .ended _ => 0

/-- A worker with fewer tasks leaves fewer tasks to all of them. -/
theorem length_flatMap_modify_lt {f : Worker → Worker} {ks : List Worker} {i : Nat} {k : Worker}
    (hk : ks[i]? = some k) (hlt : (f k).todo.length < k.todo.length) :
    ((ks.modify i f).flatMap (·.todo)).length < (ks.flatMap (·.todo)).length := by
  induction ks generalizing i with
  | nil => cases hk
  | cons l ks ih =>
    cases i with
    | zero =>
      obtain rfl := Option.some.inj hk
      simp only [List.modify_zero_cons, List.flatMap_cons, List.length_append]
      omega
    | succ i =>
      have hrest := ih hk
      simp only [List.modify_succ_cons, List.flatMap_cons, List.length_append]
      omega

/-- **Until an audit has ended, somebody can take a turn that brings it nearer to its end.** -/
theorem exists_step (tss : List (List Task)) (e : Execution) :
    (∃ r, e.stage = .ended r) ∨
      ∃ move ≠ Move.cancel, (e.step tss move).remaining tss < e.remaining tss := by
  obtain ⟨isSet, stage⟩ := e
  cases stage with
  | starting =>
    refine Or.inr ⟨.main, Move.noConfusion, ?_⟩
    cases isSet with
    | true => exact Nat.succ_pos _
    | false =>
      have htodo : (tss.map Worker.ofTasks).flatMap (·.todo) = tss.flatten := by
        rw [List.flatMap_map]
        exact List.flatMap_id
      show ((tss.map Worker.ofTasks).flatMap (·.todo)).length + 1 < tss.flatten.length + 2
      rw [htodo]
      omega
  | working ks =>
    right
    by_cases hdone : ks.all (·.isDone) = true
    · refine ⟨.main, Move.noConfusion, ?_⟩
      rw [step, stepMain]
      dsimp only
      rw [if_pos hdone]
      exact Nat.succ_pos _
    · rw [List.all_eq_true, not_forall] at hdone
      obtain ⟨k, hk⟩ := hdone
      rw [Classical.not_imp, Bool.not_eq_true] at hk
      obtain ⟨i, hi⟩ := List.mem_iff_getElem?.1 hk.1
      refine ⟨.worker i, Move.noConfusion, ?_⟩
      exact Nat.succ_lt_succ (length_flatMap_modify_lt hi (Worker.length_todo_advance_lt isSet hk.2))
  | ended r => exact Or.inl ⟨r, rfl⟩

/-- **An audit can always be brought to its end**, without cancelling it. -/
theorem exists_ended (tss : List (List Task)) (e : Execution) :
    ∃ moves, .cancel ∉ moves ∧ ∃ r, (e.run tss moves).stage = .ended r := by
  induction hn : e.remaining tss using Nat.strongRecOn generalizing e with
  | ind n ih =>
    rcases exists_step tss e with ⟨r, hr⟩ | ⟨move, hmove, hlt⟩
    · exact ⟨[], List.not_mem_nil, r, hr⟩
    · obtain ⟨moves, hmoves, r, hr⟩ := ih _ (hn ▸ hlt) (e.step tss move) rfl
      refine ⟨move :: moves, ?_, r, hr⟩
      rw [List.mem_cons, not_or]
      exact ⟨hmove.symm, hmoves⟩

end Execution

namespace Auditor

variable [CSharp.Reader]

/-- What each of several workers has to do in an audit. -/
def parts (a : Auditor) (workers : Nat) (w : Workspace) : List (List Task) :=
  Run.parts workers a.active (contextsOf w)

/-- The audit after some moves of the main thread, its workers and who may cancel it. -/
def interleaved (a : Auditor) (workers : Nat) (w : Workspace) (moves : List Move) : Execution :=
  Execution.start.run (a.parts workers w) moves

/-- The auditor that does not share its work. -/
def alone (a : Auditor) : Auditor := { a with settings := { a.settings with parallel := false } }

/-- What an audit comes to, however it is shared and whenever it is cancelled. -/
structure AllOrNothing (a : Auditor) (w : Workspace) : Prop where
  /-- Whatever an audit finds when it looks at the token, it is cancelled or it is the audit
  of one worker that nobody cancels. -/
  cancelled_or_whole : ∀ cores t, a.auditWith cores t w = .error .cancelled ∨
    a.auditWith cores t w = a.alone.auditWith 1 .never w
  never_cancelled : ∀ cores, a.auditWith cores .never w = .ok (a.audit w)
  alone_never_cancelled : a.alone.auditWith 1 .never w = .ok (a.audit w)
  /-- The workers do every task of a single worker once, and none of them is left over. -/
  flatten_parts : ∀ workers, (a.parts workers w).flatten = (a.parts 1 w).flatten
  length_parts_le : ∀ workers, 0 < workers → (a.parts workers w).length ≤ workers
  /-- In whatever order they take turns, an audit that has ended is cancelled, with the token
  set by one of the moves, or it is the whole one. -/
  interleaved : ∀ workers moves r, (a.interleaved workers w moves).stage = .ended r →
    (r = .error .cancelled ∧ .cancel ∈ moves) ∨ r.map (a.finish w) = .ok (a.audit w)
  /-- Whatever moves were taken, further ones end the audit. -/
  ends : ∀ workers moves, ∃ more, .cancel ∉ more ∧
    ∃ r, (a.interleaved workers w (moves ++ more)).stage = .ended r

end Auditor

/-- **Scheduling and cancellation.**  Whatever the workspace, the checks, the settings and the
number of workers, and whenever the token is set: an audit is cancelled, or it is exactly the
audit that a single worker comes to when nobody cancels it, with the findings in the same
order.  When the token is never set, it is the latter. -/
theorem audit_all_or_nothing [CSharp.Reader] (a : Auditor) (w : Workspace) : a.AllOrNothing w := by
  have halone : a.alone.auditWith 1 .never w = .ok (a.audit w) := Auditor.auditWith_never a.alone 1 w
  have hparts (workers : Nat) :
      (a.parts workers w).flatten = Run.tasks a.active (Auditor.contextsOf w) :=
    Run.flatten_parts workers a.active (Auditor.contextsOf w)
  refine ⟨fun cores t => ?_, fun cores => Auditor.auditWith_never a cores w, halone,
    fun workers => (hparts workers).trans (hparts 1).symm,
    fun workers hworkers => Run.length_parts_le hworkers _ _, fun workers moves r hr => ?_,
    fun workers moves => ?_⟩
  · rw [halone, Auditor.auditWith_eq]
    split
    · exact Or.inl rfl
    · exact Or.inr rfl
  · have hsound : Execution.IsSound (a.parts workers w) (a.interleaved workers w moves) :=
      Execution.isSound_run (Execution.isSound_start _) moves
    rw [Execution.IsSound, hr, hparts] at hsound
    rcases hsound with ⟨hcancelled, hset⟩ | hwhole
    · rw [Auditor.interleaved, Execution.isSet_run] at hset
      rcases hset with hset | hmem
      · cases hset
      · exact Or.inl ⟨hcancelled, hmem⟩
    · rw [hwhole, Auditor.audit_eq]
      exact Or.inr rfl
  · obtain ⟨more, hmore, r, hr⟩ :=
      Execution.exists_ended (a.parts workers w) (a.interleaved workers w moves)
    refine ⟨more, hmore, r, ?_⟩
    rw [Auditor.interleaved, Execution.run, List.foldl_append]
    exact hr

end MappingAudit
