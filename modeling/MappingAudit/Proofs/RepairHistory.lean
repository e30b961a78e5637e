/-
# What a repair does, round by round

A round of a repair tries one action on the current workspace.  The action is the first
of the eligible ones whose key was not declined there (`choose_snd`), and the round
either goes on with the workspace that the action makes or declines the action
(`make_cases`).  `attempts` lists what the rounds tried, and `kept` the actions among
them that the repair went on with, each with the workspace that it made.

`Rounds` relates a repair to the list of attempts that it leads from and the repair at
the end (`rounds_spec`), so facts about runs are inductions over it; no other list fits
(`Rounds.log_unique`).  `run_history` says what they come to for a run from the start: a
path of eligible actions through workspaces that are pairwise different, in at most
`maxRounds` rounds, at whose end everything that could still be tried was tried already.
-/

import MappingAudit.CSharp.Declarations
import MappingAudit.Fix.Repair
import Mathlib.Data.List.Nodup
import Mathlib.Data.List.Pairwise

namespace MappingAudit

/-- The texts of a workspace decide what it says. -/
theorem Workspace.eq_of_texts_eq [CSharp.Reader] {u v : Workspace} (h : u.texts = v.texts) : u = v := by
  have hread (w : Workspace) : ofSources w.texts = w := by
    have hdocument : (fun d : Document => Document.read d.path d.text) = id := by
      funext d
      obtain ⟨path, text, file, rfl⟩ := d
      rfl
    rw [ofSources, texts, List.map_map]
    show mk (w.documents.map fun d => Document.read d.path d.text) = w
    rw [hdocument, List.map_id]
  rw [← hread u, h, hread v]

namespace Repair

section

variable [CSharp.Reader]

/-- The actions for selected findings of a workspace that may be made, in the order in
which a round looks at them. -/
def eligible (auditor : Auditor) (o : RepairOptions) (w : Workspace) : List Action :=
  let a := auditor.audit w
  (a.findings.filter fun f => o.selects f.rule).flatMap fun f =>
    (Action.forFinding w a f).filter o.admits

/-- The actions that a repair may choose settle a selected finding and are admitted. -/
theorem mem_eligible {auditor : Auditor} {o : RepairOptions} {w : Workspace} {x : Action} :
    x ∈ eligible auditor o w ↔ ∃ f ∈ (auditor.audit w).findings, o.selects f.rule = true ∧
      x ∈ Action.forFinding w (auditor.audit w) f ∧ o.admits x = true := by
  simp only [eligible, List.mem_flatMap, List.mem_filter, and_assoc]

/-- The action was declined on the current workspace. -/
def isDeclined (r : Repair) (x : Action) : Bool :=
  r.declined.contains (r.current.fingerprint, x.key)

/-- What is declined stays so. -/
@[simp] theorem isDeclined_decline (r : Repair) (x : Action) (why : String) :
    (r.decline x why).isDeclined x = true := by
  simp [isDeclined, decline]

/-- The first candidate that is admitted is the first admitted action that was not declined. -/
theorem find?_candidates (o : RepairOptions) (r : Repair) (a : Audit) (f : Finding) :
    (r.candidates a f).find? o.admits =
      ((Action.forFinding r.current a f).filter o.admits).find? fun x => !r.isDeclined x := by
  simp only [candidates, isDeclined, List.find?_filter]
  congr 1
  funext x
  exact decide_eq_decide.2 and_comm

/-- **A round takes the first action that may be made and was not declined.**  The
notes on other findings do not change which one that is. -/
theorem pick_snd (o : RepairOptions) (r : Repair) (a : Audit) (skipped : List String)
    (fs : List Finding) :
    (pick o r a skipped fs).2 = (fs.flatMap fun f =>
      (Action.forFinding r.current a f).filter o.admits).find? fun x => !r.isDeclined x := by
  induction fs generalizing skipped with
  | nil => rfl
  | cons f fs ih =>
    rw [List.flatMap_cons, List.find?_append, ← find?_candidates]
    cases hfind : (r.candidates a f).find? o.admits with
    | some x => simp only [pick, hfind, Option.some_or]
    | none =>
      rw [Option.none_or]
      cases hcs : r.candidates a f with
      | nil => simp only [pick, hcs, List.find?_nil, ih]
      | cons x xs =>
        rw [hcs] at hfind
        simp only [pick, hcs, hfind, ih]

/-- A round chooses the first eligible action that was not declined. -/
theorem choose_snd (auditor : Auditor) (o : RepairOptions) (r : Repair) :
    (choose auditor o r).2 = (eligible auditor o r.current).find? fun x => !r.isDeclined x :=
  pick_snd o r _ r.skipped _

/-! ### The rounds of a repair -/

/-- **Why an action is declined on a workspace:** it cannot be made, or it makes a
workspace whose fingerprint is among those given. -/
inductive Refused (seen : List String) (w : Workspace) (x : Action) : String → Prop
  | fails {e : EditError} (h : w.edit x.edits = .error e) : Refused seen w x (failureText e)
  | cycle {v : Workspace} (h : w.edit x.edits = .ok v) (hseen : v.fingerprint ∈ seen) :
      Refused seen w x "fix cycle"

/-- What is refused is refused after more states have been seen. -/
theorem Refused.mono {seen more : List String} {w : Workspace} {x : Action} {why : String}
    (h : Refused seen w x why) (hsub : seen ⊆ more) : Refused more w x why := by
  cases h with
  | fails h => exact .fails h
  | cycle h hseen => exact .cycle h (hsub hseen)

/-- What is refused makes no workspace that was not seen. -/
theorem Refused.mem_seen {seen : List String} {w v : Workspace} {x : Action} {why : String}
    (h : Refused seen w x why) (hv : w.edit x.edits = .ok v) : v.fingerprint ∈ seen := by
  cases h with
  | fails he =>
    rw [he] at hv
    cases hv
  | cycle hu hseen =>
    obtain rfl := Except.ok.inj (hu.symm.trans hv)
    exact hseen

/-- What one round tried. -/
structure Attempt where
  /-- The workspace of the round. -/
  before : Workspace
  action : Action
  /-- The workspace that the repair went on with; `none` when it declined the action. -/
  after : Option Workspace

/-- The workspace that the repair goes on with after an action. -/
def outcome? (r : Repair) (x : Action) : Option Workspace :=
  match r.current.edit x.edits with
  | .ok w => if r.seen.contains w.fingerprint then none else some w
  | .error _ => none

/-- What at most `n` rounds try. -/
def attemptsFrom (auditor : Auditor) (o : RepairOptions) : Nat → Repair → List Attempt
  | 0, _ => []
  | n + 1, r =>
    match choose auditor o r with
    | (_, none) => []
    | (skipped, some x) =>
      let r := { r with skipped }
      ⟨r.current, x, r.outcome? x⟩ :: attemptsFrom auditor o n (make r x)

/-- The attempt was made on a workspace and would have led the repair on to one with
another fingerprint. -/
def turnsBack (u : Workspace) (a : Attempt) : Bool :=
  a.before.fingerprint == u.fingerprint &&
    match u.edit a.action.edits with
    | .ok v => v.fingerprint != u.fingerprint
    | .error _ => false

/-- What the rounds of a run try, in order. -/
def attempts (auditor : Auditor) (o : RepairOptions) (w : Workspace) : List Attempt :=
  attemptsFrom auditor o o.maxRounds (start w)

/-- The actions that were kept, each with the workspace that it made. -/
def kept (log : List Attempt) : List (Action × Workspace) :=
  log.filterMap fun a => a.after.map fun w => (a.action, w)

/-- Without attempts nothing is kept. -/
@[simp] theorem kept_nil : kept [] = [] := rfl

/-- An attempt that came to a workspace is kept. -/
@[simp] theorem kept_some (w v : Workspace) (x : Action) (log : List Attempt) :
    kept (⟨w, x, some v⟩ :: log) = (x, v) :: kept log := rfl

/-- An attempt that was refused is not. -/
@[simp] theorem kept_none (w : Workspace) (x : Action) (log : List Attempt) :
    kept (⟨w, x, none⟩ :: log) = kept log := rfl

/-- The repair after an action that it keeps. -/
def advance (r : Repair) (x : Action) (w : Workspace) : Repair :=
  { r with current := w, applied := r.applied ++ [x.key], seen := w.fingerprint :: r.seen }

/-- **The rounds of a repair.**  `Rounds n r log r'` says that at most `n` rounds lead
from `r` to `r'` and try what `log` lists. -/
inductive Rounds (auditor : Auditor) (o : RepairOptions) :
    Nat → Repair → List Attempt → Repair → Prop
  /-- The rounds are used up. -/
  | limit (r : Repair) : Rounds auditor o 0 r [] r
  /-- Nothing is left to try. -/
  | done {n : Nat} {r : Repair} {skipped : List String}
      (h : (eligible auditor o r.current).find? (fun x => !r.isDeclined x) = none) :
      Rounds auditor o (n + 1) r [] { r with skipped }
  | keep {n : Nat} {r r' : Repair} {skipped : List String} {x : Action} {w : Workspace}
      {log : List Attempt}
      (h : (eligible auditor o r.current).find? (fun x => !r.isDeclined x) = some x)
      (hw : r.current.edit x.edits = .ok w) (hnew : w.fingerprint ∉ r.seen)
      (hr : Rounds auditor o n (advance { r with skipped } x w) log r') :
      Rounds auditor o (n + 1) r (⟨r.current, x, some w⟩ :: log) r'
  | decline {n : Nat} {r r' : Repair} {skipped : List String} {x : Action} {why : String}
      {log : List Attempt}
      (h : (eligible auditor o r.current).find? (fun x => !r.isDeclined x) = some x)
      (hx : Refused r.seen r.current x why)
      (hr : Rounds auditor o n (Repair.decline { r with skipped } x why) log r') :
      Rounds auditor o (n + 1) r (⟨r.current, x, none⟩ :: log) r'

/-- **An attempt** leads to a new workspace, or it is refused and declined from then on. -/
theorem make_cases (r : Repair) (x : Action) :
    (∃ w, r.current.edit x.edits = .ok w ∧ w.fingerprint ∉ r.seen ∧ r.outcome? x = some w ∧
        make r x = r.advance x w) ∨
      ∃ why, Refused r.seen r.current x why ∧ r.outcome? x = none ∧
        make r x = r.decline x why := by
  cases hedit : r.current.edit x.edits with
  | error e =>
    refine Or.inr ⟨_, .fails hedit, ?_, ?_⟩
    · simp only [outcome?, hedit]
    · simp only [make, hedit]
  | ok w =>
    by_cases hseen : w.fingerprint ∈ r.seen
    · have hc : r.seen.contains w.fingerprint = true := List.contains_iff_mem.2 hseen
      refine Or.inr ⟨_, .cycle hedit hseen, ?_, ?_⟩
      · simp only [outcome?, hedit, hc, if_true]
      · simp only [make, hedit, hc, if_true]
    · have hc : r.seen.contains w.fingerprint = false :=
        Bool.eq_false_iff.2 fun h => hseen (List.contains_iff_mem.1 h)
      refine Or.inl ⟨w, rfl, hseen, ?_, ?_⟩
      · simp only [outcome?, hedit, hc, Bool.false_eq_true, if_false]
      · simp only [make, hedit, hc, Bool.false_eq_true, if_false, advance]

/-- **The rounds that run are those of the relation.** -/
theorem rounds_spec (auditor : Auditor) (o : RepairOptions) (n : Nat) (r : Repair) :
    Rounds auditor o n r (attemptsFrom auditor o n r) (rounds auditor o n r) := by
  induction n generalizing r with
  | zero => exact .limit r
  | succ n ih =>
    have hnext := choose_snd auditor o r
    rcases hc : choose auditor o r with ⟨skipped, _ | x⟩
    · rw [hc] at hnext
      simp only [attemptsFrom, rounds, hc]
      exact .done hnext.symm
    · rw [hc] at hnext
      simp only [attemptsFrom, rounds, hc]
      rcases make_cases { r with skipped } x with ⟨w, hw, hnew, hout, hmake⟩ | ⟨why, hx, hout, hmake⟩
      · rw [hmake, hout]
        exact .keep hnext.symm hw hnew (ih _)
      · rw [hmake, hout]
        exact .decline hnext.symm hx (ih _)

/-! ### What the rounds leave behind -/

section Facts

variable {auditor : Auditor} {o : RepairOptions} {n : Nat} {r r' : Repair} {log : List Attempt}

/-- **Rounds try one thing.**  The workspace, what was seen and what was declined decide what
the rounds try. -/
theorem Rounds.log_unique (h : Rounds auditor o n r log r') {s s' : Repair}
    {log' : List Attempt} (h' : Rounds auditor o n s log' s') (hcur : s.current = r.current)
    (hseen : s.seen = r.seen) (hdeclined : s.declined = r.declined) : log' = log := by
  have hnext {r s : Repair} (hcur : s.current = r.current) (hdeclined : s.declined = r.declined) :
      (eligible auditor o s.current).find? (fun x => !s.isDeclined x) =
        (eligible auditor o r.current).find? fun x => !r.isDeclined x := by
    simp only [isDeclined, hcur, hdeclined]
  induction h generalizing s log' with
  | limit r =>
    cases h'
    rfl
  | done hnone =>
    rw [← hnext hcur hdeclined] at hnone
    cases h' with
    | done _ => rfl
    | keep hx _ _ _ => cases hnone.symm.trans hx
    | decline hx _ _ => cases hnone.symm.trans hx
  | keep hx hw hnew hr ih =>
    rw [← hnext hcur hdeclined] at hx
    rw [← hcur] at hw
    cases h' with
    | done hnone => cases hnone.symm.trans hx
    | keep hx' hw' _ hr' =>
      obtain rfl := Option.some.inj (hx.symm.trans hx')
      obtain rfl := Except.ok.inj (hw.symm.trans hw')
      rw [ih hr' rfl (congrArg (List.cons _) hseen) hdeclined, hcur]
    | decline hx' hrefused _ =>
      obtain rfl := Option.some.inj (hx.symm.trans hx')
      exact absurd (hseen ▸ hrefused.mem_seen hw) hnew
  | @decline _ r _ _ x _ _ hx hrefused hr ih =>
    rw [← hnext hcur hdeclined] at hx
    cases h' with
    | done hnone => cases hnone.symm.trans hx
    | keep hx' hw' hnew' _ =>
      obtain rfl := Option.some.inj (hx.symm.trans hx')
      exact absurd (hseen ▸ hrefused.mem_seen (hcur ▸ hw')) hnew'
    | decline hx' _ hr' =>
      obtain rfl := Option.some.inj (hx.symm.trans hx')
      have hmore : (s.current.fingerprint, x.key) :: s.declined =
          (r.current.fingerprint, x.key) :: r.declined := by rw [hcur, hdeclined]
      rw [ih hr' hcur hseen hmore, hcur]

/-- Actions lead from workspace to workspace, each eligible where it is made. -/
def IsPath (auditor : Auditor) (o : RepairOptions) : Workspace → List (Action × Workspace) → Prop
  | _, [] => True
  | u, (x, v) :: rest =>
    x ∈ eligible auditor o u ∧ u.edit x.edits = .ok v ∧ IsPath auditor o v rest

/-- The workspaces on a path, the first one included. -/
def visited (w : Workspace) (steps : List (Action × Workspace)) : List Workspace :=
  w :: steps.map (·.2)

/-- The first workspace is always visited. -/
theorem visited_ne_nil (w : Workspace) (steps : List (Action × Workspace)) :
    visited w steps ≠ [] := List.cons_ne_nil _ _

/-- A kept attempt goes on from its workspace. -/
@[simp] theorem visited_cons (w v : Workspace) (x : Action) (steps : List (Action × Workspace)) :
    visited w ((x, v) :: steps) = w :: visited v steps := rfl

namespace Rounds

/-- There are no more attempts than rounds. -/
theorem length_le (h : Rounds auditor o n r log r') : log.length ≤ n := by
  induction h with
  | limit r => exact Nat.zero_le _
  | done h => exact Nat.zero_le _
  | keep h hw hnew hr ih => exact Nat.succ_le_succ ih
  | decline h hx hr ih => exact Nat.succ_le_succ ih

/-- The keys of kept attempts are added to those that were applied. -/
theorem applied_eq (h : Rounds auditor o n r log r') :
    r'.applied = r.applied ++ (kept log).map (·.1.key) := by
  induction h with
  | limit r => simp
  | done h => simp
  | keep h hw hnew hr ih => simp [ih, advance]
  | decline h hx hr ih => simp [ih, Repair.decline]

/-- Each round leaves one key or one error. -/
theorem length_applied_add_errors (h : Rounds auditor o n r log r') :
    r'.applied.length + r'.errors.length =
      r.applied.length + r.errors.length + log.length := by
  induction h with
  | limit r => rfl
  | done h => rfl
  | keep h hw hnew hr ih =>
    simp only [advance, List.length_append, List.length_cons, List.length_nil] at ih ⊢
    omega
  | decline h hx hr ih =>
    simp only [Repair.decline, List.length_append, List.length_cons, List.length_nil] at ih ⊢
    omega

/-- Kept attempts lead from each workspace to the next. -/
theorem isPath (h : Rounds auditor o n r log r') : IsPath auditor o r.current (kept log) := by
  induction h with
  | limit r => trivial
  | done h => trivial
  | keep h hw hnew hr ih => exact ⟨List.mem_of_find?_eq_some h, hw, ih⟩
  | decline h hx hr ih => exact ih

/-- The rounds end in the last workspace that was visited. -/
theorem current_eq (h : Rounds auditor o n r log r') :
    r'.current = (visited r.current (kept log)).getLast (visited_ne_nil _ _) := by
  induction h with
  | limit r => rfl
  | done h => rfl
  | keep h hw hnew hr ih =>
    simp only [kept_some, visited_cons, List.getLast_cons (visited_ne_nil _ _)]
    exact ih
  | decline h hx hr ih => exact ih

/-- So the workspace at the end was visited. -/
theorem current_mem_visited (h : Rounds auditor o n r log r') :
    r'.current ∈ visited r.current (kept log) :=
  h.current_eq ▸ List.getLast_mem _

/-- The workspaces that actions made were seen, the later ones in front. -/
theorem seen_eq (h : Rounds auditor o n r log r') :
    r'.seen = ((kept log).map (·.2.fingerprint)).reverse ++ r.seen := by
  induction h with
  | limit r => rfl
  | done h => rfl
  | keep h hw hnew hr ih => simp [ih, advance]
  | decline h hx hr ih => exact ih

/-- States that were seen remain seen. -/
theorem subset_seen (h : Rounds auditor o n r log r') : r.seen ⊆ r'.seen := by
  rw [h.seen_eq]
  exact List.subset_append_right _ _

/-- Only workspaces with new fingerprints are kept. -/
theorem nodup_seen (h : Rounds auditor o n r log r') (hr : r.seen.Nodup) : r'.seen.Nodup := by
  induction h with
  | limit r => exact hr
  | done h => exact hr
  | keep h hw hnew _ ih => exact ih (List.nodup_cons.2 ⟨hnew, hr⟩)
  | decline h hx _ ih => exact ih hr

/-- Every round works on one of the workspaces of the path. -/
theorem before_mem (h : Rounds auditor o n r log r') :
    ∀ a ∈ log, a.before ∈ visited r.current (kept log) := by
  induction h with
  | limit r => simp
  | done h => simp
  | keep h hw hnew hr ih =>
    rintro a (_ | ⟨_, ha⟩)
    · exact List.mem_cons_self
    · exact List.mem_cons_of_mem _ (ih a ha)
  | decline h hx hr ih =>
    rintro a (_ | ⟨_, ha⟩)
    · exact List.mem_cons_self
    · exact ih a ha

/-- Every attempt was eligible on its workspace. -/
theorem action_mem (h : Rounds auditor o n r log r') :
    ∀ a ∈ log, a.action ∈ eligible auditor o a.before := by
  induction h with
  | limit r => simp
  | done h => simp
  | keep h hw hnew hr ih =>
    rintro a (_ | ⟨_, ha⟩)
    · exact List.mem_of_find?_eq_some h
    · exact ih a ha
  | decline h hx hr ih =>
    rintro a (_ | ⟨_, ha⟩)
    · exact List.mem_of_find?_eq_some h
    · exact ih a ha

/-- **What is declined was tried.**  An action that is declined at the end was declined
at the start, or some round tried an action of its key on the same workspace and
refused it. -/
theorem declined_cases (h : Rounds auditor o n r log r') {state key : String}
    (hd : (state, key) ∈ r'.declined) :
    (state, key) ∈ r.declined ∨ ∃ a ∈ log, a.before.fingerprint = state ∧ a.action.key = key ∧
      ∃ why, Refused r'.seen a.before a.action why := by
  induction h with
  | limit r => exact Or.inl hd
  | done h => exact Or.inl hd
  | keep h hw hnew hr ih =>
    rcases ih hd with hold | ⟨a, ha, hrest⟩
    · exact Or.inl hold
    · exact Or.inr ⟨a, List.mem_cons_of_mem _ ha, hrest⟩
  | decline h hx hr ih =>
    rcases ih hd with hold | ⟨a, ha, hrest⟩
    · rcases List.mem_cons.1 hold with heq | hold
      · obtain ⟨rfl, rfl⟩ := Prod.mk.inj heq
        exact Or.inr ⟨_, List.mem_cons_self, rfl, rfl, _, hx.mono hr.subset_seen⟩
      · exact Or.inl hold
    · exact Or.inr ⟨a, List.mem_cons_of_mem _ ha, hrest⟩

/-- **A repair that ends early has nothing left to try.** -/
theorem isDeclined_of_length_lt (h : Rounds auditor o n r log r') (hlt : log.length < n) :
    ∀ x ∈ eligible auditor o r'.current, r'.isDeclined x = true := by
  induction h with
  | limit r => exact absurd hlt (Nat.not_lt_zero _)
  | done h =>
    intro x hx
    simpa [isDeclined] using List.find?_eq_none.1 h x hx
  | keep h hw hnew hr ih => exact ih (Nat.lt_of_succ_lt_succ hlt)
  | decline h hx hr ih => exact ih (Nat.lt_of_succ_lt_succ hlt)

end Rounds

end Facts

/-! ### A run from the start -/

/-- The repair ends because nothing is left to try, before its rounds are used up. -/
def EndsEarly (auditor : Auditor) (o : RepairOptions) (w : Workspace) : Prop :=
  (attempts auditor o w).length < o.maxRounds

instance (auditor : Auditor) (o : RepairOptions) (w : Workspace) :
    Decidable (EndsEarly auditor o w) :=
  inferInstanceAs (Decidable (_ < _))

/-- The workspaces whose fingerprints a run takes: the first one and what its attempts
make. -/
def touched (auditor : Auditor) (o : RepairOptions) (w : Workspace) : List Workspace :=
  w :: (attempts auditor o w).filterMap fun a => (a.before.edit a.action.edits).toOption

/-- The fingerprints tell the texts of some workspaces apart. -/
def TellsApart (ws : List Workspace) : Prop :=
  ∀ u ∈ ws, ∀ v ∈ ws, u.fingerprint = v.fingerprint → u.texts = v.texts

instance (ws : List Workspace) : Decidable (TellsApart ws) :=
  inferInstanceAs (Decidable (∀ u ∈ ws, ∀ v ∈ ws, u.fingerprint = v.fingerprint → u.texts = v.texts))

/-- **A run of a repair**, seen through what its rounds tried. -/
structure IsRun (auditor : Auditor) (o : RepairOptions) (w : Workspace) (log : List Attempt)
    (r : Repair) : Prop where
  /-- Whatever was tried was eligible where it was tried. -/
  action_mem : ∀ a ∈ log, a.action ∈ eligible auditor o a.before
  /-- Each workspace comes from the one before by an action that is eligible there. -/
  isPath : IsPath auditor o w (kept log)
  /-- No two of the workspaces have the same texts. -/
  pairwise_ne : (visited w (kept log)).Pairwise fun u v => u.texts ≠ v.texts
  /-- The keys of the actions that were made, in order. -/
  applied_eq : r.applied = (kept log).map (·.1.key)
  length_le : r.applied.length + r.errors.length ≤ o.maxRounds
  /-- The result is the last of the workspaces. -/
  current_eq : r.current = (visited w (kept log)).getLast (visited_ne_nil _ _)
  /-- When the run ends early, every action for a selected finding of the result needs a
  decision that was not given, or an attempt with its key was made on the result and
  failed or led to texts that were there before. -/
  exhausted : log.length < o.maxRounds →
    ∀ f ∈ (auditor.audit r.current).findings, o.selects f.rule = true →
      ∀ x ∈ Action.forFinding r.current (auditor.audit r.current) f,
        (o.all = false ∧ x.confidence = .low) ∨
          ∃ a ∈ log, a.before = r.current ∧ a.action.key = x.key ∧
            ((∃ e, r.current.edit a.action.edits = .error e) ∨
              ∃ v, r.current.edit a.action.edits = .ok v ∧
                ∃ u ∈ visited w (kept log), v.texts = u.texts)

/-- Workspaces with different fingerprints have different texts. -/
theorem fingerprint_ne_of_texts_ne {u v : Workspace} (h : u.fingerprint ≠ v.fingerprint) :
    u.texts ≠ v.texts := by
  intro heq
  exact h (by rw [Workspace.fingerprint, heq, Workspace.fingerprint])

/-- What is kept was made by its attempt. -/
theorem Rounds.edit_of_after {auditor : Auditor} {o : RepairOptions} {n : Nat} {r r' : Repair}
    {log : List Attempt} (h : Rounds auditor o n r log r') :
    ∀ a ∈ log, ∀ v, a.after = some v → a.before.edit a.action.edits = .ok v := by
  induction h with
  | limit r => simp
  | done h => simp
  | keep h hw hnew hr ih =>
    rintro a (_ | ⟨_, ha⟩) v hv
    · exact Option.some.inj hv ▸ hw
    · exact ih a ha v hv
  | decline h hx hr ih =>
    rintro a (_ | ⟨_, ha⟩) v hv
    · cases hv
    · exact ih a ha v hv

/-- The attempts of a run are its rounds from the start. -/
theorem run_rounds (auditor : Auditor) (o : RepairOptions) (w : Workspace) :
    Rounds auditor o o.maxRounds (start w) (attempts auditor o w) (run auditor o w) :=
  rounds_spec auditor o o.maxRounds (start w)

/-- The fingerprints that a run has seen are those of its workspaces. -/
theorem seen_run (auditor : Auditor) (o : RepairOptions) (w : Workspace) :
    (run auditor o w).seen =
      ((visited w (kept (attempts auditor o w))).map (·.fingerprint)).reverse := by
  rw [(run_rounds auditor o w).seen_eq]
  simp [visited, start, Function.comp_def]

/-- A run visits no fingerprint twice. -/
theorem pairwise_fingerprint_ne (auditor : Auditor) (o : RepairOptions) (w : Workspace) :
    (visited w (kept (attempts auditor o w))).Pairwise fun u v => u.fingerprint ≠ v.fingerprint := by
  have hnodup := (run_rounds auditor o w).nodup_seen (List.nodup_singleton _)
  rw [seen_run, List.nodup_reverse] at hnodup
  exact List.pairwise_map.1 hnodup

/-- Two workspaces of a run with one fingerprint are the same. -/
theorem eq_of_fingerprint_eq {auditor : Auditor} {o : RepairOptions} {w u v : Workspace}
    (hu : u ∈ visited w (kept (attempts auditor o w)))
    (hv : v ∈ visited w (kept (attempts auditor o w))) (h : u.fingerprint = v.fingerprint) :
    u = v :=
  List.inj_on_of_nodup_map (List.pairwise_map.2 (pairwise_fingerprint_ne auditor o w)) hu hv h

/-- A workspace that an attempt leads to was touched. -/
theorem mem_touched_of_edit {auditor : Auditor} {o : RepairOptions} {w v : Workspace}
    {a : Attempt} (ha : a ∈ attempts auditor o w) (h : a.before.edit a.action.edits = .ok v) :
    v ∈ touched auditor o w :=
  List.mem_cons_of_mem _ (List.mem_filterMap.2 ⟨a, ha, by rw [h]; rfl⟩)

/-- All visited workspaces were. -/
theorem visited_subset_touched (auditor : Auditor) (o : RepairOptions) (w : Workspace) :
    visited w (kept (attempts auditor o w)) ⊆ touched auditor o w := by
  intro u hu
  rcases List.mem_cons.1 hu with rfl | hu
  · exact List.mem_cons_self
  · obtain ⟨⟨x, v⟩, hstep, rfl⟩ := List.mem_map.1 hu
    obtain ⟨a, ha, hafter⟩ := List.mem_filterMap.1 hstep
    obtain ⟨v', hv', heq⟩ := Option.map_eq_some_iff.1 hafter
    obtain ⟨rfl, rfl⟩ := Prod.mk.inj heq
    exact mem_touched_of_edit ha ((run_rounds auditor o w).edit_of_after a ha _ hv')

/-- **Every action that is left was tried.**  At the end of a run that ends early, an
attempt with the key of any eligible action was made on the result and refused there. -/
theorem exists_refused_attempt {auditor : Auditor} {o : RepairOptions} {w : Workspace}
    (h : EndsEarly auditor o w) {x : Action}
    (hx : x ∈ eligible auditor o (run auditor o w).current) :
    ∃ a ∈ attempts auditor o w, a.before = (run auditor o w).current ∧ a.action.key = x.key ∧
      ∃ why, Refused (run auditor o w).seen (run auditor o w).current a.action why := by
  have hrun := run_rounds auditor o w
  have hd := List.contains_iff_mem.1 (hrun.isDeclined_of_length_lt h x hx)
  rcases hrun.declined_cases hd with hold | ⟨a, ha, hstate, hkey, why, hwhy⟩
  · exact absurd hold List.not_mem_nil
  · have hbefore := eq_of_fingerprint_eq (hrun.before_mem a ha) hrun.current_mem_visited hstate
    exact ⟨a, ha, hbefore, hkey, why, hbefore ▸ hwhy⟩

/-- **The history of a run.**  Whatever the checks, the settings and the options: when
fingerprints tell the workspaces of the run apart, it goes through pairwise different
workspaces by eligible actions, reports their keys in order, keeps to its rounds, and
ends early only when everything for the selected findings was tried or needs a decision. -/
theorem run_history (auditor : Auditor) (o : RepairOptions) (w : Workspace)
    (h : TellsApart (touched auditor o w)) :
    IsRun auditor o w (attempts auditor o w) (run auditor o w) where
  action_mem := (run_rounds auditor o w).action_mem
  isPath := (run_rounds auditor o w).isPath
  pairwise_ne := (pairwise_fingerprint_ne auditor o w).imp fingerprint_ne_of_texts_ne
  applied_eq := (run_rounds auditor o w).applied_eq
  length_le := by
    have hrun := run_rounds auditor o w
    have hcount := hrun.length_applied_add_errors
    have hle := hrun.length_le
    simp only [start, List.length_nil] at hcount
    omega
  current_eq := (run_rounds auditor o w).current_eq
  exhausted := by
    intro hend f hf hselects x hx
    by_cases hadmits : o.admits x = true
    · obtain ⟨a, ha, hbefore, hkey, why, hwhy⟩ :=
        exists_refused_attempt hend (mem_eligible.2 ⟨f, hf, hselects, hx, hadmits⟩)
      refine Or.inr ⟨a, ha, hbefore, hkey, ?_⟩
      cases hwhy with
      | fails hedit => exact Or.inl ⟨_, hedit⟩
      | @cycle v hedit hseen =>
        rw [seen_run, List.mem_reverse, List.mem_map] at hseen
        obtain ⟨u, hu, hfingerprint⟩ := hseen
        have hv := mem_touched_of_edit ha (hbefore ▸ hedit)
        have htexts := h v hv u (visited_subset_touched auditor o w hu) hfingerprint.symm
        exact Or.inr ⟨v, hedit, u, hu, htexts⟩
    · rw [RepairOptions.admits, Bool.or_eq_true, not_or, bne_iff_ne, not_not] at hadmits
      exact Or.inl ⟨Bool.eq_false_iff.2 hadmits.1, hadmits.2⟩

end

/-- A source member whose name differs in case from that of the destination member. -/
def caseVariants : Workspace :=
  .ofSources [("P.cs", "AddMaps(c=>c.CreateMap<S,D>());record S(int a);record D(int A);")]

/-- The workspace after the member is mapped by name. -/
def mappedVariants : Workspace :=
  .ofSources [("P.cs", "AddMaps(c=>c.CreateMap<S,D>().ForMember(dest => dest.A, " ++
    "opt => opt.MapFrom(src => src.a)));record S(int a);record D(int A);")]

/-- The action that maps it. -/
def mapVariant : Action where
  rule := .caseMismatch
  title := "Map 'A' from 'a'"
  key := "AM005:map-from:CreateMap<S, D>.A"
  confidence := .high
  operation := .appendCall 0 "ForMember(dest => dest.A, opt => opt.MapFrom(src => src.a))"
  edits := [⟨"P.cs", 29, 29, ".ForMember(dest => dest.A, opt => opt.MapFrom(src => src.a))"⟩]

/-- The action that takes the call away again. -/
def unmapVariant : Action where
  rule := .redundantMapFrom
  title := "Remove ForMember for 'A'"
  key := "AM050:remove-redundant:CreateMap<S, D>.A#1"
  confidence := .high
  operation := .removeCall 0 1
  edits := [⟨"P.cs", 29, 89, ""⟩]

set_option maxRecDepth 100000 in
/-- There is one action for `caseVariants`: to map the member. -/
theorem eligible_caseVariants : eligible (.ofSettings {}) {} caseVariants = [mapVariant] := by
  decide +kernel

set_option maxRecDepth 100000 in
/-- Once it is mapped, there is one again: to take the call out. -/
theorem eligible_mappedVariants :
    eligible (.ofSettings {}) {} mappedVariants = [unmapVariant] := by
  decide +kernel

set_option maxRecDepth 100000 in
/-- The two actions lead from one of two texts to the other. -/
theorem texts_caseVariants :
    (caseVariants.edit mapVariant.edits).map Workspace.texts = .ok mappedVariants.texts ∧
      (mappedVariants.edit unmapVariant.edits).map Workspace.texts = .ok caseVariants.texts ∧
        mappedVariants.fingerprint ≠ caseVariants.fingerprint := by
  decide +kernel

/-- They lead from one of two workspaces to the other. -/
theorem edit_caseVariants : caseVariants.edit mapVariant.edits = .ok mappedVariants ∧
    mappedVariants.edit unmapVariant.edits = .ok caseVariants := by
  have hedit {u v : Workspace} {es : List Edit}
      (h : (u.edit es).map Workspace.texts = .ok v.texts) : u.edit es = .ok v := by
    cases hw : u.edit es with
    | error e =>
      rw [hw] at h
      cases h
    | ok w =>
      rw [hw] at h
      rw [Workspace.eq_of_texts_eq (Except.ok.inj h)]
  exact ⟨hedit texts_caseVariants.1, hedit texts_caseVariants.2.1⟩

/-- **The rounds of the run on `caseVariants`**: the member is mapped by name, and the action
that follows leads back to the texts from before. -/
theorem history_caseVariants : attempts (.ofSettings {}) {} caseVariants =
    [⟨caseVariants, mapVariant, some mappedVariants⟩, ⟨mappedVariants, unmapVariant, none⟩] := by
  obtain ⟨hmap, hunmap⟩ := edit_caseVariants
  have hne := texts_caseVariants.2.2
  let first := start caseVariants
  let second := first.advance mapVariant mappedVariants
  have hmaps : (eligible (.ofSettings {}) {} caseVariants).find? (fun x => !first.isDeclined x) =
      some mapVariant := by
    rw [eligible_caseVariants]
    rfl
  have hunmaps : (eligible (.ofSettings {}) {} mappedVariants).find?
      (fun x => !second.isDeclined x) = some unmapVariant := by
    rw [eligible_mappedVariants]
    rfl
  have hends (r : Repair) (why : String) : (eligible (.ofSettings {}) {} mappedVariants).find?
      (fun x => !(r.decline unmapVariant why).isDeclined x) = none := by
    rw [eligible_mappedVariants, List.find?_cons, isDeclined_decline]
    rfl
  have hrounds : Rounds (.ofSettings {}) {} 200 first
      [⟨caseVariants, mapVariant, some mappedVariants⟩, ⟨mappedVariants, unmapVariant, none⟩]
      (second.decline unmapVariant "fix cycle") :=
    .keep hmaps hmap (List.mem_singleton.not.2 hne)
      (.decline hunmaps (.cycle hunmap (List.mem_cons_of_mem _ List.mem_cons_self))
        (.done (hends second _)))
  exact hrounds.log_unique (rounds_spec _ _ _ _) rfl rfl rfl

/-- A repair of `caseVariants` ends early, and its second attempt would turn back. -/
theorem caseVariants_attempts :
    EndsEarly (.ofSettings {}) {} caseVariants ∧
      TellsApart (touched (.ofSettings {}) {} caseVariants) ∧
        ∃ a ∈ attempts (.ofSettings {}) {} caseVariants,
          turnsBack ((visited caseVariants (kept (attempts (.ofSettings {}) {} caseVariants))).getLast
            (visited_ne_nil _ _)) a = true := by
  obtain ⟨hmap, hunmap⟩ := edit_caseVariants
  have hne := texts_caseVariants.2.2
  have htouched : touched (.ofSettings {}) {} caseVariants =
      [caseVariants, mappedVariants, caseVariants] := by
    have hmade {a b : Attempt} {u v : Workspace} (ha : a.before.edit a.action.edits = .ok u)
        (hb : b.before.edit b.action.edits = .ok v) :
        [a, b].filterMap (fun a => (a.before.edit a.action.edits).toOption) = [u, v] := by
      simp [ha, hb, Except.toOption]
    rw [touched, history_caseVariants, hmade hmap hunmap]
  refine ⟨?_, ?_, ?_⟩
  · rw [EndsEarly, history_caseVariants]
    decide
  · rw [htouched]
    simp [TellsApart, hne, hne.symm]
  · simp only [history_caseVariants]
    refine ⟨⟨mappedVariants, unmapVariant, none⟩, by simp, ?_⟩
    show turnsBack mappedVariants ⟨mappedVariants, unmapVariant, none⟩ = true
    simp [turnsBack, hunmap, hne.symm]

/-- The run on `caseVariants` ends early, and its history is as stated. -/
theorem run_history_caseVariants :
    TellsApart (touched (.ofSettings {}) {} caseVariants) ∧
      EndsEarly (.ofSettings {}) {} caseVariants ∧
        IsRun (.ofSettings {}) {} caseVariants (attempts (.ofSettings {}) {} caseVariants)
          (run (.ofSettings {}) {} caseVariants) := by
  obtain ⟨hends, happart, -⟩ := caseVariants_attempts
  exact ⟨happart, hends, run_history _ _ _ happart⟩

end Repair
end MappingAudit
