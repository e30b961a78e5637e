/-
# Repairing a workspace

A repair makes one action at a time and looks at the workspace again after each.  An
action that fails, or that leads back to texts that were there before, is not tried
again on the same texts.  The repair ends when no finding has an action left that may
be made, or after a given number of rounds.
-/

import MappingAudit.Fix.Action

namespace MappingAudit

variable [CSharp.Reader]

/-- Which actions a repair makes. -/
structure RepairOptions where
  /-- Actions that need a decision are made too. -/
  all : Bool := false
  /-- The rules whose findings are settled; `none` for every rule. -/
  rules : Option (List String) := none
  maxRounds : Nat := 200
  deriving Repr, DecidableEq, Inhabited

namespace RepairOptions

/-- Findings of the rule are settled. -/
def selects (o : RepairOptions) (rule : RuleId) : Bool :=
  match o.rules with
  | some codes => codes.any fun c => Pieces.sameName c rule.code
  | none => true

/-- The action may be made. -/
def admits (o : RepairOptions) (a : Action) : Bool := o.all || a.confidence != .low

end RepairOptions

/-- How far a repair has come. -/
structure Repair where
  current : Workspace
  /-- The keys of the actions made. -/
  applied : List String := []
  /-- Actions that need a decision. -/
  skipped : List String := []
  errors : List String := []
  /-- The fingerprints of the workspaces that were there at some time. -/
  seen : List String := []
  /-- Fingerprints with the keys of actions that are not tried again there. -/
  declined : List (String × String) := []

namespace Repair

/-- A repair that has not begun. -/
def start (w : Workspace) : Repair := { current := w, seen := [w.fingerprint] }

/-- The note on an action that needs a decision. -/
def note (a : Action) : String := a.key ++ " (low confidence)"

/-- The actions for a finding that were not declined. -/
def candidates (r : Repair) (a : Audit) (f : Finding) : List Action :=
  let state := r.current.fingerprint
  (Action.forFinding r.current a f).filter fun x => !r.declined.contains (state, x.key)

/-- Looks for the next action.  Findings without one that may be made leave a note on
their first action. -/
def pick (o : RepairOptions) (r : Repair) (a : Audit) (skipped : List String) :
    List Finding → List String × Option Action
  | [] => (skipped, none)
  | f :: fs =>
    let cs := r.candidates a f
    match cs.find? o.admits with
    | some x => (skipped, some x)
    | none =>
      match cs with
      | [] => pick o r a skipped fs
      | x :: _ =>
        pick o r a (if skipped.contains (note x) then skipped else skipped ++ [note x]) fs

/-- The repair without another try of an action on the same texts. -/
def decline (r : Repair) (x : Action) (why : String) : Repair :=
  { r with
    errors := r.errors ++ [x.key ++ ": " ++ why]
    declined := (r.current.fingerprint, x.key) :: r.declined }

/-- What is said about an edit that failed. -/
def failureText (e : EditError) : String := "Fix error: " ++ e.message

/-- Makes an action. -/
def make (r : Repair) (x : Action) : Repair :=
  match r.current.edit x.edits with
  | .error e => r.decline x (failureText e)
  | .ok w =>
    if r.seen.contains w.fingerprint then r.decline x "fix cycle"
    else
      { r with
        current := w
        applied := r.applied ++ [x.key]
        seen := w.fingerprint :: r.seen }

/-- The notes and the action of a round. -/
def choose (auditor : Auditor) (o : RepairOptions) (r : Repair) : List String × Option Action :=
  let a := auditor.audit r.current
  pick o r a r.skipped (a.findings.filter fun f => o.selects f.rule)

/-- At most `n` rounds. -/
def rounds (auditor : Auditor) (o : RepairOptions) : Nat → Repair → Repair
  | 0, r => r
  | n + 1, r =>
    match choose auditor o r with
    | (skipped, none) => { r with skipped }
    | (skipped, some x) => rounds auditor o n (make { r with skipped } x)

/-- Repairs a workspace. -/
def run (auditor : Auditor) (o : RepairOptions) (w : Workspace) : Repair :=
  rounds auditor o o.maxRounds (start w)

/-- There is no answer to what settles one of the findings up to the next action. -/
def pickCrashes (o : RepairOptions) (r : Repair) (a : Audit) : List Finding → Bool
  | [] => false
  | f :: fs =>
    Action.crashes r.current a f ||
      (((r.candidates a f).find? o.admits).isNone && pickCrashes o r a fs)

/-- One of at most `n` rounds does not come to an end. -/
def roundsCrash (auditor : Auditor) (o : RepairOptions) : Nat → Repair → Bool
  | 0, _ => false
  | n + 1, r =>
    let a := auditor.audit r.current
    pickCrashes o r a (a.findings.filter fun f => o.selects f.rule) ||
      match choose auditor o r with
      | (_, none) => false
      | (skipped, some x) => roundsCrash auditor o n (make { r with skipped } x)

/-- The repair of a workspace does not come to an end. -/
def crashes (auditor : Auditor) (o : RepairOptions) (w : Workspace) : Bool :=
  roundsCrash auditor o o.maxRounds (start w)

end Repair
end MappingAudit
