/-
# Members of a type

The members of a type are the public members of its values, its own first and
then those of its base classes.  A member hides members of the same name further
up.  Type parameters are replaced by the arguments they have.
-/

import MappingAudit.Catalog.Lineage
import MappingAudit.Shape.Describe

namespace MappingAudit

/-- A member of a type. -/
structure Member where
  name : String
  /-- The type whose members were asked for. -/
  owner : Catalog.Id
  /-- The type that declares the member. -/
  declaring : Catalog.Id
  shape : Shape
  readable : Bool
  writable : Bool
  required : Bool
  span : Span
  deriving Repr, Inhabited, BEq

/-- What members have to allow. -/
inductive Access where
  | readable
  | writable
  | any
  deriving Repr, DecidableEq, Inhabited

/-- The member allows the access. -/
def Access.admits (a : Access) (m : Source.DeclaredMember) : Bool :=
  match a with
  | .readable => m.readable
  | .writable => m.writable
  | .any => true

namespace Member

/-- A declared member with the class that declares it and the arguments of that
class. -/
structure Found where
  declaring : Catalog.Id
  ns : Option String
  bindings : TypeExpr.Bindings
  member : Source.DeclaredMember

/-- The public members of the values of one class in the lineage. -/
def foundIn (c : Catalog) (step : Catalog.Id × TypeExpr.Bindings) : List Found :=
  match c.get? step.1 with
  | none => []
  | some e =>
    (e.members.filter fun m => m.isPublic && !m.isStatic).map fun m =>
      ⟨step.1, e.ns, step.2, m⟩

/-- Keeps the first of all that have one name. -/
def nearest : List String → List Found → List Found
  | _, [] => []
  | seen, f :: fs =>
    if seen.contains f.member.name then nearest seen fs
    else f :: nearest (f.member.name :: seen) fs

/-- The member with its shape; `none` when its type cannot be read. -/
def ofFound? (c : Catalog) (owner : Catalog.Id) (f : Found) : Option Member :=
  (TypeExpr.read? f.member.typeText).map fun t =>
    { name := f.member.name
      owner
      declaring := f.declaring
      shape := Shape.describe c f.ns (t.substitute f.bindings)
      readable := f.member.readable
      writable := f.member.writable
      required := f.member.isRequired
      span := f.member.span }

/-- The members of a declared type with given type arguments. -/
def ofDeclared (c : Catalog) (a : Access) (owner : Catalog.Id) (args : List TypeExpr) :
    List Member :=
  let found := nearest [] ((c.lineage owner args).flatMap (foundIn c))
  (found.filter fun f => a.admits f.member).filterMap (ofFound? c owner)

/-- The members of a type; none for a type that is not declared. -/
def ofShape (c : Catalog) (a : Access) (s : Shape) : List Member :=
  match s.underlying.id? with
  | some id => if s.underlying.resolved then ofDeclared c a id s.underlying.expr.genericArgs else []
  | none => []

end Member

/-- A type with its members. -/
structure Model where
  shape : Shape
  members : List Member
  deriving Repr, Inhabited, BEq

namespace Model

/-- The model of a type; `none` when the type is no declared type with members. -/
def ofType? (c : Catalog) (ns : Option String) (a : Access) (t : TypeExpr) : Option Model :=
  let s := Shape.describe c ns t
  if s.resolved && s.underlying.isComplex then some ⟨s, Member.ofShape c a s⟩ else none

/-- The first member of a name, whatever its case. -/
def find? (m : Model) (name : String) : Option Member :=
  m.members.find? fun x => Pieces.sameName x.name name

/-- The member of exactly this name. -/
def findExact? (m : Model) (name : String) : Option Member :=
  m.members.find? (·.name == name)

end Model
end MappingAudit
