/-
# Which source member fills a destination member

A destination member is filled from the source member of its name, else from one
whose name differs in case only, else through members of declared types: the words
of the name are cut into groups that name a path, as `CustomerName` names
`Customer.Name`.
-/

import MappingAudit.Model.Member
import MappingAudit.Model.Words

namespace MappingAudit

/-- How a destination member found its source. -/
inductive MatchKind where
  | exact
  | ignoringCase
  | flattened
  deriving Repr, DecidableEq, Inhabited

/-- The source of a destination member. -/
structure SourceMatch where
  /-- The member names from the source on. -/
  path : List String
  /-- The last member of the path. -/
  member : Member
  kind : MatchKind
  deriving Repr, Inhabited, BEq

namespace Model

/-- The first member of a name, whatever its case. -/
def named? (members : List Member) (name : String) : Option Member :=
  members.find? fun m => Pieces.sameName m.name name

/-- The members that can be read from the value of a member. -/
def readableOf (c : Catalog) (m : Member) : List Member := Member.ofShape c .readable m.shape

/-- The path of members named by consecutive groups of words, at least two and at
most `n + 1`. -/
def flatten? (c : Catalog) : Nat → List String → List Member → Option (List String × Member)
  | 0, _, _ => none
  | n + 1, words, members =>
    (List.range (words.length - 1)).findSome? fun k => do
      let head ← named? members (String.join (words.take (k + 1)))
      if head.shape.underlying.isComplex then
        let inner := readableOf c head
        let rest := words.drop (k + 1)
        match named? inner (String.join rest) with
        | some m => pure ([head.name, m.name], m)
        | none => (flatten? c n rest inner).map fun (path, m) => (head.name :: path, m)
      else none

/-- The most members of a path below its first one. -/
def maxFlattening : Nat := 4

/-- The source of the destination member of a name. -/
def match? (c : Catalog) (source : Model) (name : String) : Option SourceMatch :=
  match source.findExact? name with
  | some m => some ⟨[m.name], m, .exact⟩
  | none =>
    match source.find? name with
    | some m => some ⟨[m.name], m, .ignoringCase⟩
    | none =>
      (flatten? c maxFlattening (Words.ofName name) source.members).map fun (path, m) =>
        ⟨path, m, .flattened⟩

/-- The last member of a path of names. -/
def followFrom? (c : Catalog) (members : List Member) : List String → Option Member
  | [] => none
  | [name] => named? members name
  | name :: rest => do
    let m ← named? members name
    followFrom? c (readableOf c m) rest

/-- The member that a path of names leads to. -/
def follow? (c : Catalog) (source : Model) (path : List String) : Option Member :=
  followFrom? c source.members path

end Model
end MappingAudit
