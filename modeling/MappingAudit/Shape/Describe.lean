/-
# The shape of a written type

A name without type arguments is looked up among the built-in types first, then a
name with arguments among the collections, and last the catalog is asked.
-/

import MappingAudit.Shape.Basic

namespace MappingAudit
namespace Shape

/-- The built-in types. -/
def builtinNames : List String :=
  ["bool", "byte", "sbyte", "short", "ushort", "int", "uint", "long", "ulong", "nint", "nuint",
    "float", "double", "decimal", "char", "string", "object", "DateTime", "DateTimeOffset",
    "DateOnly", "TimeOnly", "TimeSpan", "Guid", "Uri"]

/-- The path names a built-in type, alone or in the namespace `System`. -/
def isBuiltinPath (path : List String) : Bool :=
  (path.length == 1 || path.head? == some "System") && builtinNames.contains (simple path)

/-- The shape of the declared type that a name means in a namespace. -/
def ofCatalog (c : Catalog) (ns : Option String) (path : List String) (args : List TypeExpr)
    (shapes : List Shape) : Shape :=
  let t := TypeExpr.named path args
  match c.resolveType t ns with
  | none => unknown t
  | some id =>
    match c.get? id with
    | none => unknown t
    | some e => declared path shapes id e.kind e.qualifiedName

/-- The shape of a name, given the shapes of its type arguments. -/
def ofName (c : Catalog) (ns : Option String) (path : List String) (args : List TypeExpr)
    (shapes : List Shape) : Shape :=
  if args.isEmpty && isBuiltinPath path then builtin path
  else
    match CollectionKind.classify (simple path) args.length, shapes with
    | some .dictionary, [k, v] => dictionary path k v
    | some kind, [element] => collection path kind element
    | _, _ => ofCatalog c ns path args shapes

mutual

/-- The shape of a type that is written in a namespace. -/
def describe (c : Catalog) (ns : Option String) : TypeExpr → Shape
  | .named path args => ofName c ns path args (describeAll c ns args)
  | .array element rank => array (describe c ns element) rank
  | .nullable inner => nullable (describe c ns inner)
  | .tuple items => tuple (describeAll c ns items)

/-- The shapes of types that are written in a namespace. -/
def describeAll (c : Catalog) (ns : Option String) : List TypeExpr → List Shape
  | [] => []
  | t :: ts => describe c ns t :: describeAll c ns ts

end

end Shape
end MappingAudit
