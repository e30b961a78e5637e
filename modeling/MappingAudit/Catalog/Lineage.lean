/-
# The line of base classes

The base class of a type is the first type of its base list that is declared and
no interface.  Going from base to base gives the lineage of a type; it ends with
a type that has no declared base class, or before a type that came already.
Along the line the type parameters of each class are bound to the arguments that
the class below it passes up; `ancestors` goes up without them.
-/

import MappingAudit.Catalog.Resolve

namespace MappingAudit
namespace Catalog

/-- A base list entry that names a declared class other than `id` itself. -/
def baseClass? (c : Catalog) (id : Id) (ns : Option String) (base : String) :
    Option (Id × TypeExpr) := do
  let t ← TypeExpr.read? base
  let b ← c.resolveType t ns
  let e ← c.get? b
  if e.kind != .interface && b != id then pure (b, t) else none

/-- The base class of a type, and how it is written. -/
def parent? (c : Catalog) (id : Id) : Option (Id × TypeExpr) :=
  (c.get? id).bind fun e => e.bases.findSome? (c.baseClass? id e.ns)

/-- The parameters of a type bound to arguments; of two parameters of one name
the last counts. -/
def bind (c : Catalog) (id : Id) (args : List TypeExpr) : TypeExpr.Bindings :=
  match c.get? id with
  | some e => (e.typeParams.zip args).reverse
  | none => []

/-- The lineage from a type on, for at most `n` types, without those of `seen`. -/
def climb (c : Catalog) : Nat → List Id → Id → TypeExpr.Bindings → List (Id × TypeExpr.Bindings)
  | 0, _, _, _ => []
  | n + 1, seen, id, b =>
    if seen.contains id then []
    else (id, b) ::
      match c.parent? id with
      | some (p, t) =>
        climb c n (id :: seen) p (c.bind p (TypeExpr.substituteAll b t.genericArgs))
      | none => []

/-- A type and its base classes, nearest first, each with the arguments that its
parameters have when the type itself has `args`. -/
def lineage (c : Catalog) (id : Id) (args : List TypeExpr) : List (Id × TypeExpr.Bindings) :=
  c.climb (c.size + 1) [] id (c.bind id args)

/-- The chain that ends with `current`, with at most `n` base classes more.  The chain is given
from its end; it ends for good before a type that it has already. -/
def ancestorsFrom (c : Catalog) : Nat → List Id → Id → List Id
  | 0, chain, _ => chain.reverse
  | n + 1, chain, current =>
    match c.parent? current with
    | some (parent, _) =>
      if chain.contains parent then chain.reverse
      else ancestorsFrom c n (parent :: chain) parent
    | none => chain.reverse

/-- A type and its base classes, nearest first. -/
def ancestors (c : Catalog) (id : Id) : List Id := c.ancestorsFrom c.size [id] id

end Catalog
end MappingAudit
