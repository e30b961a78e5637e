/-
# Running checks

The active checks run over each registration in turn.  A run may be cancelled: it
looks for that between registrations and between checks, and a cancelled run gives no
findings at all.  Registrations may be shared out among several workers, each of which
takes a stretch of them; the findings keep the order of the registrations.
-/

import MappingAudit.Check.Basic

namespace MappingAudit

/-- A moment at which a run looks whether it was cancelled. -/
inductive Poll where
  | start
  /-- Before a registration. -/
  | registration (id : Nat)
  /-- Before a check of a registration. -/
  | check (id : Nat) (position : Nat)
  | finish
  deriving Repr, DecidableEq, Inhabited

/-- The run was cancelled. -/
inductive Cancelled where
  | cancelled
  deriving Repr, DecidableEq, Inhabited

/-- Whether the run counts as cancelled at each moment. -/
abbrev Token := Poll → Bool

namespace Token

/-- The run is never cancelled. -/
def never : Token := fun _ => false

/-- The run is cancelled before it starts. -/
def always : Token := fun _ => true

/-- Goes on unless the run was cancelled. -/
def poll (t : Token) (p : Poll) : Except Cancelled Unit :=
  if t p then .error .cancelled else .ok ()

end Token

namespace Run

/-- The findings of checks for one registration; the first check has a position. -/
def checksFrom (t : Token) (x : Context) : Nat → List Check → Except Cancelled (List Finding)
  | _, [] => .ok []
  | j, c :: cs => do
    t.poll (.check x.registration.id j)
    let rest ← checksFrom t x (j + 1) cs
    pure ((c.run x).findings ++ rest)

/-- The findings of checks for some registrations, one after the other. -/
def sequential (t : Token) (checks : List Check) : List Context → Except Cancelled (List Finding)
  | [] => .ok []
  | x :: xs => do
    t.poll (.registration x.registration.id)
    let found ← checksFrom t x 0 checks
    let rest ← sequential t checks xs
    pure (found ++ rest)

/-- Cuts a list into stretches of `n` elements, or into none when `n` is zero. -/
def stretches {α : Type} (n : Nat) (xs : List α) : List (List α) :=
  if _h : 0 < n ∧ xs ≠ [] then xs.take n :: stretches n (xs.drop n) else []
termination_by xs.length
decreasing_by
  rw [List.length_drop]
  have := List.length_pos_iff.2 _h.2
  omega

/-- The findings of several workers together, in the order of the workers. -/
def join : List (Except Cancelled (List Finding)) → Except Cancelled (List Finding)
  | [] => .ok []
  | r :: rs => do
    let found ← r
    let rest ← join rs
    pure (found ++ rest)

/-- The findings of checks for some registrations that are shared out among workers. -/
def shared (t : Token) (workers : Nat) (checks : List Check) (xs : List Context) :
    Except Cancelled (List Finding) :=
  if workers ≤ 1 then sequential t checks xs
  else
    join ((stretches ((xs.length + workers - 1) / workers) xs).map (sequential t checks))

end Run
end MappingAudit
