/-
# The registry

The registry lists which pairs of types are mapped and where: by a registration, by
the mapping back that it adds, or by naming the pair.  Pairs are compared by the
keys of their types without optional wrappers.
-/

import MappingAudit.Registration.Basic
import MappingAudit.Shape.Describe

namespace MappingAudit

/-- A pair of types, by their keys. -/
structure PairKey where
  source : String
  destination : String
  deriving Repr, DecidableEq, Inhabited

namespace PairKey

/-- The pair of two types. -/
def ofShapes (s d : Shape) : PairKey := ⟨s.underlying.key, d.underlying.key⟩

/-- The pair of two types written in a namespace. -/
def ofTypes (c : Catalog) (ns : Option String) (s d : TypeExpr) : PairKey :=
  ofShapes (Shape.describe c ns s) (Shape.describe c ns d)

/-- The pair of the mapping back. -/
def reversed (k : PairKey) : PairKey := ⟨k.destination, k.source⟩

/-- The pair as text. -/
def text (k : PairKey) : String := k.source ++ " -> " ++ k.destination

end PairKey

/-- How a pair came to be mapped. -/
inductive Origin where
  | explicit
  /-- By the mapping back. -/
  | reverse
  /-- By being named in a chain. -/
  | implied
  deriving Repr, DecidableEq, Inhabited

/-- A mapped pair. -/
structure Mapped where
  key : PairKey
  /-- The position of the registration. -/
  registration : Nat
  origin : Origin
  file : String
  fileIndex : Nat
  span : Span
  deriving Repr, DecidableEq, Inhabited

namespace Mapped

/-- Whether an entry stands no later in the files than another. -/
def notAfter (a b : Mapped) : Bool :=
  a.fileIndex < b.fileIndex ||
    (a.fileIndex == b.fileIndex && a.span.startByte ≤ b.span.startByte)

/-- The two entries stand at the same place. -/
def samePlace (a b : Mapped) : Bool :=
  a.fileIndex == b.fileIndex && a.span.startByte == b.span.startByte

/-- The entries of a registration: its mapping back, its own mapping, and the pairs
it names. -/
def ofRegistration (c : Catalog) (r : Registration) : List Mapped :=
  let key := PairKey.ofTypes c r.ns r.source r.destination
  let entry (key : PairKey) (origin : Origin) (span : Span) : Mapped :=
    ⟨key, r.id, origin, r.file, r.fileIndex, span⟩
  (r.reverse.toList.map fun b => entry key.reversed .reverse b.span) ++
    entry key .explicit r.span ::
      r.includes.map fun i => entry (PairKey.ofTypes c r.ns i.source i.destination) .implied i.span

end Mapped

/-- The mapped pairs, in the order of the registrations. -/
structure Registry where
  entries : List Mapped := []
  deriving Repr, DecidableEq, Inhabited

namespace Registry

/-- The mapped pairs of some registrations. -/
def ofRegistrations (c : Catalog) (rs : List Registration) : Registry :=
  ⟨rs.flatMap (Mapped.ofRegistration c)⟩

/-- The pair is mapped. -/
def contains (r : Registry) (key : PairKey) : Bool := r.entries.any (·.key == key)

/-- The pair of two types is mapped. -/
def containsShapes (r : Registry) (s d : Shape) : Bool := r.contains (PairKey.ofShapes s d)

/-- Where a pair is mapped, in the order of the files. -/
def lookup (r : Registry) (key : PairKey) : List Mapped :=
  (r.entries.filter (·.key == key)).mergeSort Mapped.notAfter

/-- The entries of a registration. -/
def entriesOf (r : Registry) (registration : Nat) : List Mapped :=
  r.entries.filter (·.registration == registration)

end Registry
end MappingAudit
