/-
# Declared types

What the analysis keeps of a type declaration: its name and place in namespaces
and other types, its type parameters and bases as written, and the properties,
fields and record parameters it declares.
-/

import MappingAudit.Text.Span
import MappingAudit.Text.Pieces

namespace MappingAudit
namespace Source

/-- The kinds of declared types. -/
inductive DeclarationKind where
  | classType
  | record
  | recordStruct
  | struct
  | interface
  | enumeration
  deriving Repr, DecidableEq, Inhabited

/-- Where a member comes from. -/
inductive MemberKind where
  | property
  | field
  | recordParameter
  deriving Repr, DecidableEq, Inhabited

/-- A property, field or record parameter of a declared type. -/
structure DeclaredMember where
  name : String
  /-- The type as written. -/
  typeText : String
  kind : MemberKind
  modifiers : List String
  /-- Can be read from outside. -/
  readable : Bool
  /-- Can be written from outside. -/
  writable : Bool
  span : Span
  deriving Repr, DecidableEq, Inhabited

namespace DeclaredMember

/-- The member belongs to the type and not to its values. -/
def isStatic (m : DeclaredMember) : Bool :=
  m.modifiers.contains "static" || m.modifiers.contains "const"

/-- The member is visible from outside. -/
def isPublic (m : DeclaredMember) : Bool :=
  m.kind == .recordParameter || m.modifiers.contains "public"

/-- A value must be given when an object is created. -/
def isRequired (m : DeclaredMember) : Bool := m.modifiers.contains "required"

end DeclaredMember

/-- A declared type. -/
structure Declaration where
  name : String
  ns : Option String
  /-- The types around the declaration, outermost first. -/
  containers : List String
  kind : DeclarationKind
  typeParams : List String
  /-- The types it derives from, as written. -/
  bases : List String
  modifiers : List String
  members : List DeclaredMember
  span : Span
  deriving Repr, DecidableEq, Inhabited

/-- The dotted name of a type in a namespace and within other types. -/
def qualify (ns? : Option String) (names : List String) : String :=
  Pieces.join "." (ns?.toList ++ names)

namespace Declaration

/-- The name with namespace and surrounding types. -/
def qualifiedName (d : Declaration) : String :=
  qualify d.ns (d.containers ++ [d.name])

/-- A declaration that may be one of several parts. -/
def isPartial (d : Declaration) : Bool := d.modifiers.contains "partial"

end Declaration
end Source
end MappingAudit
