/-
# What a type name means

A name means the declared type it names in full, else a declared type whose
qualified name ends in it.  The number of type arguments has to fit, and when
several types remain, the one in the namespace of the text decides.
-/

import MappingAudit.Catalog.Basic
import MappingAudit.TypeExpr.Reader

namespace MappingAudit
namespace Catalog

/-- The text ends in `tail`. -/
def endsIn (text tail : String) : Bool := tail.toList.isSuffixOf text.toList

/-- The last segment of a dotted name. -/
def lastSegment (name : String) : String :=
  String.ofList (Pieces.lastPiece (· == '.') name.toList)

/-- The entry's qualified name is `name` or ends in it after a dot. -/
def endsWithName (name : String) (e : Entry) : Bool :=
  e.qualifiedName == name || endsIn e.qualifiedName ("." ++ name)

/-- The types that a name may mean, whatever their number of parameters. -/
def candidates (c : Catalog) (name : String) : List Id :=
  match c.withQualifiedName name with
  | [] => c.idsWhere fun e => e.name == lastSegment name && endsWithName name e
  | ids => ids

/-- The entry at a position satisfies `p`. -/
def satisfies (c : Catalog) (p : Entry → Bool) (id : Id) : Bool := (c.get? id).any p

/-- The only element of a list. -/
def only? {α : Type} : List α → Option α
  | [x] => some x
  | _ => none

/-- The declared type that a name with `arity` type arguments means in a
namespace. -/
def resolve (c : Catalog) (name : String) (arity : Nat) (ns : Option String) : Option Id :=
  match (c.candidates name).filter (c.satisfies (·.arity == arity)) with
  | [] => none
  | [id] => some id
  | ids => ns.bind fun n => only? (ids.filter (c.satisfies (·.ns == some n)))

/-- The declared type that a written type names. -/
def resolveType (c : Catalog) (t : TypeExpr) (ns : Option String) : Option Id :=
  t.pathText?.bind fun path => c.resolve path t.genericArgs.length ns

/-- The non-empty initial parts of a list, longest first. -/
def initials {α : Type} (xs : List α) : List (List α) :=
  (List.range xs.length).map fun k => xs.take (xs.length - k)

/-- A namespace and those around it, innermost first, with the global one at the
end. -/
def scopes (ns : Option String) : List (Option String) :=
  match ns with
  | none => [none]
  | some n => ((initials (Pieces.splitText '.' n)).map fun p => some (Pieces.join "." p)) ++ [none]

/-- The type without parameters that a simple name means in a namespace or one
around it, the innermost first. -/
def visibleFrom (c : Catalog) (name : String) (ns : Option String) : Option Id :=
  (scopes ns).findSome? fun scope =>
    (c.withName name).find? (c.satisfies fun e => e.typeParams.isEmpty && e.ns == scope)

/-- The first type with a qualified name. -/
def lookup (c : Catalog) (qualifiedName : String) : Option Id :=
  (c.withQualifiedName qualifiedName).head?

end Catalog
end MappingAudit
