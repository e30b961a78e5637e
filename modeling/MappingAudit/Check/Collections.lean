/-
# Collections

A collection fills another when the mapper converts the containers and the elements.
Containers come first: elements are compared when the containers agree.
-/

import MappingAudit.Check.Nested

namespace MappingAudit

namespace Shape

/-- The mapper converts elements of `s` to `d`, given the registered mappings.
`n` bounds how deep collections are nested. -/
def elementsFit (registry : Registry) : Nat → Shape → Shape → Bool
  | 0, _, _ => true
  | n + 1, s, d =>
    match s.fit d with
    | .compatible | .nullToValue | .unknown => true
    | .incompatible => false
    | .nested => registry.containsShapes s d
    | .collection =>
      match s.collectionKind?, d.collectionKind?, s.element?, d.element? with
      | some sk, some dk, some se, some de => sk.convertible dk && elementsFit registry n se de
      | _, _, _, _ => true

/-- A bound on how deep collections are nested in a type. -/
def depth : Shape → Nat
  | collection _ _ element => element.depth + 1
  | dictionary _ _ value => value.depth + 1
  | array element _ => element.depth + 1
  | nullable inner => inner.depth + 1
  | _ => 1

end Shape

/-- Two collections with their kinds and elements. -/
structure CollectionPair where
  sourceKind : CollectionKind
  destinationKind : CollectionKind
  source : Shape
  destination : Shape
  deriving Repr, Inhabited, BEq

namespace CollectionPair

/-- The kinds and elements of two types that are compared as collections. -/
def ofShapes? (s d : Shape) : Option CollectionPair :=
  if s.fit d == .collection then do
    pure ⟨← s.collectionKind?, ← d.collectionKind?, ← s.element?, ← d.element?⟩
  else none

/-- The rule that two collections violate. -/
def rule? (registry : Registry) (p : CollectionPair) : Option RuleId :=
  if !p.sourceKind.convertible p.destinationKind then some .container
  else if !Shape.elementsFit registry p.source.depth p.source p.destination then
    some .elementMismatch
  else none

end CollectionPair

namespace Check

/-- The mappings that are missing for the elements of two collections. -/
def missingElements? (x : Context) (p : CollectionPair) : Option String :=
  let s := p.source.underlying
  let d := p.destination.underlying
  if s.isComplex && d.isComplex then
    some (Missing.encode (Missing.pairs x.catalog x.registry s d))
  else none

/-- The finding about two collections that violate a rule. -/
def collectionFinding (x : Context) (p : MemberPair) (q : CollectionPair) (rule : RuleId) :
    Finding :=
  let f := x.memberFinding rule p.destination.name (some p.source.member) (some p.destination)
  let f :=
    if rule == .elementMismatch then
      (f.withArgs [q.source.name, q.destination.name]).withDetail? .missingPairs
        (missingElements? x q)
    else f
  (((((f.withDetail .sourceMember p.source.member.name
    ).withDetail .sourcePath (Pieces.join "." p.path)
    ).withDetail .sourceContainer q.sourceKind.name
    ).withDetail .destinationContainer q.destinationKind.name
    ).withDetail .sourceElementType q.source.code
    ).withDetail .destinationElementType q.destination.code

/-- Collections that the mapper does not convert. -/
def collections (x : Context) : List Finding :=
  x.pairs.filterMap fun p => do
    let q ← CollectionPair.ofShapes? p.source.member.shape p.destination.shape
    let rule ← q.rule? x.registry
    pure (collectionFinding x p q rule)

end Check
end MappingAudit
