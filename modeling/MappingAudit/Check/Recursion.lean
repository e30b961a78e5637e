/-
# Mappings that may not end

When a pair of members leads back to the types of the registration on both sides,
mapping may go on without end.  A depth limit or kept references exclude that.
-/

import MappingAudit.Check.Pairing

namespace MappingAudit

namespace Shape

/-- The type that values of a type hold in the end: the innermost element of a
collection, without optional wrappers. -/
def node (s : Shape) : Shape := (s.innermost?.getD s).underlying

/-- Searches the members of members, `n` levels deep, for the type of key `target`.
Types are entered once; the second result lists those entered. -/
def search (c : Catalog) (target : String) : Nat → List String → Shape → Bool × List String
  | 0, visited, s => (s.node.isComplex && s.node.key == target, visited)
  | n + 1, visited, s =>
    let node := s.node
    if !node.isComplex then (false, visited)
    else if node.key == target then (true, visited)
    else if visited.contains node.key then (false, visited)
    else
      (Member.ofShape c .any node).foldl
        (fun r m => if r.1 then r else search c target n r.2 m.shape)
        (false, node.key :: visited)

/-- How many members of members are searched. -/
def maxSearchDepth : Nat := 8

/-- The search finds the type of key `target` from a type on. -/
def reaches (c : Catalog) (target : String) (s : Shape) : Bool :=
  (search c target maxSearchDepth [] s).1

end Shape

namespace Check

/-- Something bounds how deep values are mapped. -/
def isBounded (r : Registration) : Bool := r.maxDepth.isSome || r.preservesReferences

/-- The pair leads back to the types of the registration on both sides. -/
def leadsBack (x : Context) (source destination : Model) (p : MemberPair) : Bool :=
  p.source.path.length == 1 && p.via.isEmpty &&
    p.source.member.shape.reaches x.catalog source.shape.underlying.key &&
    p.destination.shape.reaches x.catalog destination.shape.underlying.key

/-- Members that may make mapping go on without end. -/
def recursion (x : Context) : List Finding :=
  match x.models? with
  | none => []
  | some (s, d) =>
    if isBounded x.registration then []
    else (x.pairs.filter (leadsBack x s d)).map fun p => x.pairFinding .recursion p

end Check
end MappingAudit
