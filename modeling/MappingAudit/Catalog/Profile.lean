/-
# Mapping profiles

A mapping profile is a class that derives, directly or through other types, from
the framework's `Profile`.  Each entry of a base list leads to the framework, to
a declared type or nowhere; a type is a profile when a type that can be reached
from it in this way has an entry that leads to the framework.  The search looks at
each type once and ends at the first such entry.

A bare `Profile` means a type that a declared namespace around the class holds,
if there is one; else the framework's type when a file of the class imports the
framework; else what the name resolves to, and the framework's type when that is
nothing.
-/

import MappingAudit.Catalog.Lineage
import MappingAudit.Catalog.Reach

namespace MappingAudit

namespace Catalog

/-- Where an entry of a base list leads. -/
inductive BaseTarget where
  | framework
  | declared (id : Id)
  | nowhere
  deriving Repr, DecidableEq, Inhabited

/-- Where a bare use of the framework's name leads. -/
def bareTarget (c : Catalog) (e : Entry) (name : String) : BaseTarget :=
  match c.visibleFrom name e.ns with
  | some id => .declared id
  | none =>
    if e.importsFramework then .framework
    else match c.resolve name 0 e.ns with
      | some id => .declared id
      | none => .framework

/-- Where a written base of `e` leads, when the framework's type is `name`. -/
def baseTarget (c : Catalog) (e : Entry) (name : String) (base : String) : BaseTarget :=
  match TypeExpr.read? base with
  | none => .nowhere
  | some t =>
    if t.pathText? = some (Source.frameworkNamespace ++ "." ++ name) then .framework
    else if t.pathText? = some name ∧ t.genericArgs.isEmpty then c.bareTarget e name
    else match c.resolveType t e.ns with
      | some id => .declared id
      | none => .nowhere

/-- Where the bases of a type lead. -/
def baseTargets (c : Catalog) (name : String) (id : Id) : List BaseTarget :=
  match c.get? id with
  | some e => e.bases.map (c.baseTarget e name)
  | none => []

/-- The declared types that the targets of a base list lead to, put on a stack one after the
other; nothing as soon as a target is the framework's type. -/
def push : List BaseTarget → List Id → Option (List Id)
  | [], stack => some stack
  | .framework :: _, _ => none
  | .declared id :: targets, stack => push targets (id :: stack)
  | .nowhere :: targets, stack => push targets stack

/-- No more types are put on the stack than there are targets. -/
theorem length_le_of_push {targets : List BaseTarget} {stack stack' : List Id}
    (h : push targets stack = some stack') : stack'.length ≤ targets.length + stack.length := by
  induction targets generalizing stack with
  | nil =>
    have hsame : stack'.length = stack.length := by rw [← Option.some.inj h]
    rw [List.length_nil]
    omega
  | cons target targets ih =>
    rw [List.length_cons]
    match target, h with
    | .declared id, h =>
      have hle := ih h
      rw [List.length_cons] at hle
      omega
    | .nowhere, h =>
      have hle := ih h
      omega

/-- A search for the framework's type. -/
structure Search where
  /-- The types to look at, the next one first. -/
  stack : List Id
  /-- The types that were looked at. -/
  seen : List Id
  deriving Repr, DecidableEq, Inhabited

namespace Search

/-- One round of a search: the next type is looked at, unless it was before, and its bases
are gone through.  The round ends the search when one of them is the framework's type, or
when there is no next type. -/
def round (c : Catalog) (name : String) : Search → Search ⊕ Bool
  | ⟨[], _⟩ => .inr false
  | ⟨id :: rest, seen⟩ =>
    if seen.contains id then .inl ⟨rest, seen⟩
    else match push (c.baseTargets name id) rest with
      | some stack => .inl ⟨stack, id :: seen⟩
      | none => .inr true

/-- The base list entries of the types that were not looked at. -/
def basesLeft (c : Catalog) (name : String) (seen : List Id) : Nat :=
  Reach.weight (fun id => (c.baseTargets name id).length) seen c.size

/-- A bound for the rounds to go: the types on the stack and those that the types not
looked at can add to it. -/
def roundsLeft (c : Catalog) (name : String) (s : Search) : Nat :=
  s.stack.length + basesLeft c name s.seen

/-- Looking at a new type takes its base list away. -/
theorem basesLeft_cons_le {c : Catalog} {name : String} {id : Id} {seen : List Id}
    (h : seen.contains id = false) :
    (c.baseTargets name id).length + basesLeft c name (id :: seen) ≤ basesLeft c name seen := by
  by_cases hlt : id < c.size
  · have hweight := Reach.weight_cons (w := fun id => (c.baseTargets name id).length) hlt h
    rw [basesLeft, basesLeft]
    omega
  · have hget : c.get? id = none := List.getElem?_eq_none (Nat.le_of_not_lt hlt)
    have hnone : c.baseTargets name id = [] := by rw [baseTargets, hget]
    rw [basesLeft, basesLeft, Reach.weight_cons_of_le (Nat.le_of_not_lt hlt), hnone,
      List.length_nil]
    omega

/-- Every round brings a search nearer to its end. -/
theorem roundsLeft_lt_of_round {c : Catalog} {name : String} {s s' : Search}
    (h : s.round c name = .inl s') : s'.roundsLeft c name < s.roundsLeft c name := by
  match s, h with
  | ⟨id :: rest, seen⟩, h =>
    rw [round] at h
    split at h
    · obtain rfl := Sum.inl.inj h
      simp only [roundsLeft, List.length_cons]
      omega
    · next hid =>
      rw [Bool.not_eq_true] at hid
      split at h
      · next stack hpush =>
        obtain rfl := Sum.inl.inj h
        have hstack := length_le_of_push hpush
        have hbases : (c.baseTargets name id).length + basesLeft c name (id :: seen) ≤
            basesLeft c name seen := basesLeft_cons_le hid
        simp only [roundsLeft, List.length_cons]
        omega
      · cases h

/-- The answer of a search: one of its types leads to the framework's type. -/
def answer (c : Catalog) (name : String) (s : Search) : Bool :=
  match _h : s.round c name with
  | .inl s' => answer c name s'
  | .inr found => found
termination_by s.roundsLeft c name
decreasing_by exact roundsLeft_lt_of_round _h

end Search

/-- The type derives from the framework's type `name`. -/
def derivesFrom (c : Catalog) (name : String) (id : Id) : Bool :=
  Search.answer c name ⟨[id], []⟩

/-- The name of the framework's base class of mapping profiles. -/
def profileName : String := "Profile"

/-- The type is a mapping profile. -/
def isProfile (c : Catalog) (id : Id) : Bool := c.derivesFrom profileName id

end Catalog
end MappingAudit
