/-
# Declared types within declared types

Members of two different declared types need a registered mapping of their own.  A
missing mapping may need further ones: those for the members of its types that
convention pairs, followed to a fixed depth.
-/

import MappingAudit.Check.Pairing
import MappingAudit.Shape.Compare

namespace MappingAudit

/-- The two types of a mapping. -/
abbrev ShapePair := Shape × Shape

namespace Missing

/-- The innermost elements of two collections, when both are declared types and
differ. -/
def elements? (s d : Shape) : Option ShapePair := do
  let s := (← s.innermost?).underlying
  let d := (← d.innermost?).underlying
  if s.isComplex && d.isComplex && !s.sameUnderlying d then some (s, d) else none

/-- The mapping that a pair of members needs. -/
def ofMembers? (s d : Shape) : Option ShapePair :=
  match s.fit d with
  | .nested => some (s.underlying, d.underlying)
  | .collection => elements? s d
  | _ => none

/-- The mappings that the members of two types need. -/
def successors (c : Catalog) (p : ShapePair) : List ShapePair :=
  let source : Model := ⟨p.1, Member.ofShape c .readable p.1⟩
  (Member.ofShape c .writable p.2).filterMap fun d => do
    let m ← source.match? c d.name
    ofMembers? m.member.shape d.shape

/-- The pair is neither registered nor found already. -/
def isNew (registry : Registry) (found : List ShapePair) (p : ShapePair) : Bool :=
  let key := PairKey.ofShapes p.1 p.2
  !registry.contains key && !found.any fun q => PairKey.ofShapes q.1 q.2 == key

/-- The pairs of a list that are new, each once. -/
def fresh (registry : Registry) : List ShapePair → List ShapePair → List ShapePair
  | _, [] => []
  | found, p :: ps =>
    if isNew registry found p then p :: fresh registry (found ++ [p]) ps
    else fresh registry found ps

/-- The pairs that are needed from `level` on, at most `n` steps further; `found`
are those needed before. -/
def close (c : Catalog) (registry : Registry) : Nat → List ShapePair → List ShapePair →
    List ShapePair
  | 0, found, level => found ++ fresh registry found level
  | n + 1, found, level =>
    let new := fresh registry found level
    close c registry n (found ++ new) (new.flatMap (successors c))

/-- How far needed mappings are followed. -/
def maxNesting : Nat := 4

/-- The mappings that are missing when `s` is mapped to `d`, that one first. -/
def pairs (c : Catalog) (registry : Registry) (s d : Shape) : List ShapePair :=
  close c registry maxNesting [] [(s, d)]

/-- Missing mappings as one text, each as `Source=>Destination`. -/
def encode (ps : List ShapePair) : String :=
  Pieces.join ";" (ps.map fun (s, d) => s.code ++ "=>" ++ d.code)

/-- The mapping that one part of such a text names. -/
def decodePart? (part : List Char) : Option (String × String) := do
  let (s, d) ← Pieces.splitOnce? ['=', '>'] part
  let s := Pieces.trim s
  let d := Pieces.trim d
  if s.isEmpty || d.isEmpty then none else some (String.ofList s, String.ofList d)

/-- The missing mappings that a text names. -/
def decode (text : String) : List (String × String) :=
  (Pieces.splitAt (· == ';') text.toList).filterMap decodePart?

end Missing

namespace Check

/-- Members whose types need a mapping that is not registered. -/
def nested (x : Context) : List Finding :=
  x.pairs.filterMap fun p =>
    let s := p.source.member.shape
    let d := p.destination.shape
    if s.fit d == .nested && !x.registry.containsShapes s d then
      some ((x.pairFinding .nestedMissing p).withDetail .missingPairs
        (Missing.encode (Missing.pairs x.catalog x.registry s.underlying d.underlying)))
    else none

end Check
end MappingAudit
