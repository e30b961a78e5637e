/-
# Shapes of types

The shape of a type is what the checks see of it: a built-in type, a declared
type, a collection with its element, a tuple, or an optional form of one of
these; `unknown` stands for names that nothing declares.  Two shapes are the same
type when their keys are equal; the key names declared types in full.
-/

import MappingAudit.Catalog.Resolve
import MappingAudit.Shape.Collection

namespace MappingAudit

/-- A type as the checks see it. -/
inductive Shape where
  /-- A type of the language or its base library, by its dotted name. -/
  | builtin (path : List String)
  /-- A type of the catalog with its type arguments. -/
  | declared (path : List String) (args : List Shape) (id : Catalog.Id)
      (kind : Source.DeclarationKind) (qualifiedName : String)
  /-- A collection of elements. -/
  | collection (path : List String) (kind : CollectionKind) (element : Shape)
  /-- A dictionary. -/
  | dictionary (path : List String) (key value : Shape)
  | array (element : Shape) (rank : Nat)
  | tuple (items : List Shape)
  | nullable (inner : Shape)
  /-- A name that nothing declares. -/
  | unknown (type : TypeExpr)
  deriving Repr, Inhabited, BEq

namespace Shape

mutual

/-- The written type. -/
def expr : Shape → TypeExpr
  | builtin path => .named path []
  | declared path args _ _ _ => .named path (exprs args)
  | collection path _ element => .named path [expr element]
  | dictionary path key value => .named path [expr key, expr value]
  | array element rank => .array (expr element) rank
  | tuple items => .tuple (exprs items)
  | nullable inner => .nullable (expr inner)
  | unknown t => t

/-- The written types. -/
def exprs : List Shape → List TypeExpr
  | [] => []
  | s :: ss => expr s :: exprs ss

end

/-- How the type is spelled in code. -/
def code (s : Shape) : String := s.expr.toText

/-- The last segment of a path. -/
def simple (path : List String) : String := path.getLast?.getD ""

/-- The name in messages: built-in types without their namespace, others as
written. -/
def name : Shape → String
  | builtin path => simple path
  | s => s.code

/-- Type arguments in a key. -/
def angled (keys : List String) : String :=
  if keys.isEmpty then "" else "<" ++ Pieces.join "," keys ++ ">"

mutual

/-- The text that identifies the type. -/
def key : Shape → String
  | builtin path => simple path
  | declared _ args _ _ q => q ++ angled (keys args)
  | collection path _ element => simple path ++ angled [key element]
  | dictionary path k v => simple path ++ angled [key k, key v]
  | array element rank => key element ++ "[" ++ String.ofList (List.replicate (rank - 1) ',') ++ "]"
  | tuple items => "(" ++ Pieces.join "," (keys items) ++ ")"
  | nullable inner => key inner ++ "?"
  | unknown t => t.toText

/-- The texts that identify the types. -/
def keys : List Shape → List String
  | [] => []
  | s :: ss => key s :: keys ss

end

mutual

/-- Every name in the type has a meaning. -/
def resolved : Shape → Bool
  | builtin _ => true
  | declared _ args _ _ _ => allResolved args
  | collection _ _ element => resolved element
  | dictionary _ k v => resolved k && resolved v
  | array element _ => resolved element
  | tuple items => allResolved items
  | nullable inner => resolved inner
  | unknown _ => false

/-- Every name in the types has a meaning. -/
def allResolved : List Shape → Bool
  | [] => true
  | s :: ss => resolved s && allResolved ss

end

/-- Built-in types that are no value types. -/
def referenceBuiltins : List String := ["string", "object", "Uri"]

/-- Types whose values are copied; `null` is none of their values. -/
def isValueType : Shape → Bool
  | builtin path => !referenceBuiltins.contains (simple path)
  | declared _ _ _ kind _ => kind == .struct || kind == .recordStruct || kind == .enumeration
  | tuple _ => true
  | nullable inner => inner.isValueType
  | _ => false

/-- An optional type. -/
def isNullable : Shape → Bool
  | nullable _ => true
  | _ => false

/-- An optional value type. -/
def isNullableValue : Shape → Bool
  | nullable inner => inner.isValueType
  | _ => false

/-- A built-in type, optional or not. -/
def isBuiltin : Shape → Bool
  | builtin _ => true
  | nullable inner => inner.isBuiltin
  | _ => false

/-- An enumeration, optional or not. -/
def isEnum : Shape → Bool
  | declared _ _ _ kind _ => kind == .enumeration
  | nullable inner => inner.isEnum
  | _ => false

/-- The kind of the collection that the type is, optional or not. -/
def ownKind? : Shape → Option CollectionKind
  | collection _ kind _ => some kind
  | dictionary _ _ _ => some .dictionary
  | array _ _ => some .array
  | nullable inner => inner.ownKind?
  | _ => none

/-- A collection, optional or not. -/
def isCollection (s : Shape) : Bool := s.ownKind?.isSome

/-- The declared type behind the type. -/
def id? : Shape → Option Catalog.Id
  | declared _ _ id _ _ => some id
  | nullable inner => inner.id?
  | _ => none

/-- The qualified name of the declared type behind the type. -/
def declaredName? : Shape → Option String
  | declared _ _ _ _ q => some q
  | nullable inner => inner.declaredName?
  | _ => none

/-- A declared type with members: no enumeration. -/
def isComplex (s : Shape) : Bool :=
  !s.isBuiltin && !s.isEnum && !s.isCollection && s.id?.isSome

/-- The type without its optional wrapper. -/
def underlying : Shape → Shape
  | nullable inner => inner
  | s => s

/-- The element of the collection that the type is; the value of a dictionary. -/
def ownElement? : Shape → Option Shape
  | collection _ _ element => some element
  | dictionary _ _ value => some value
  | array element _ => some element
  | nullable inner => inner.ownElement?
  | _ => none

/-- The key type of the dictionary that the type is. -/
def ownKey? : Shape → Option Shape
  | dictionary _ k _ => some k
  | nullable inner => inner.ownKey?
  | _ => none

/-- The element of a collection. -/
def element? (s : Shape) : Option Shape := s.underlying.ownElement?

/-- The kind of a collection. -/
def collectionKind? (s : Shape) : Option CollectionKind := s.underlying.ownKind?

/-- The element of the innermost collection, the type itself when it is none. -/
def core : Shape → Shape
  | collection _ _ element => element.core
  | dictionary _ _ value => value.core
  | array element _ => element.core
  | nullable inner => if inner.isCollection then inner.core else nullable inner
  | s => s

/-- The element of the innermost of nested collections. -/
def innermost? (s : Shape) : Option Shape := s.element?.map core

/-- The same type when optional wrappers do not count. -/
def sameUnderlying (a b : Shape) : Bool := a.underlying.key == b.underlying.key

end Shape
end MappingAudit
