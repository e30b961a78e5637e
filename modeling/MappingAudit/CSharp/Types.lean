/-
# Names and types in C#

A type is written as a built-in keyword, a dotted name with type arguments, a
tuple, or a reference to another type, followed by marks of optional types,
array brackets and pointer stars.  The analysis reads types from their text, so
a type is a node without children.
-/

import MappingAudit.CSharp.Rule

namespace MappingAudit
namespace CSharp
namespace Grammar

open Rule

/-- The type arguments of a name; an open type has commas only. -/
def typeArguments (g : Grammar) : Rule :=
  node .typeArgumentList
    (seq [mark "<", alt [sepBy1 (mark ",") (g .typeName), many (mark ",")], mark ">"])

/-- One segment of a dotted type name. -/
def typeSegment (g : Grammar) : Rule := seq [identifier, opt (typeArguments g)]

/-- A dotted type name, possibly behind an alias such as `global::`. -/
def typePath (g : Grammar) : Rule :=
  seq [opt (seq [identifier, mark "::"]), sepBy1 (mark ".") (typeSegment g)]

/-- A type without suffixes. -/
def bareType (g : Grammar) : Rule :=
  alt [
    seq [word "ref", opt (word "readonly"), g .typeName],
    wordOf typeWords,
    seq [mark "(", g .typeName, opt identifier,
      many1 (seq [mark ",", g .typeName, opt identifier]), mark ")"],
    typePath g]

/-- Array brackets without lengths. -/
def rankSuffix : Rule := seq [mark "[", many (mark ","), mark "]"]

/-- A type; with `optional`, marks of optional types are taken too. -/
def typeWith (g : Grammar) (optional : Bool) : Rule :=
  solid .typeName
    (seq [bareType g,
      many (alt [rankSuffix, mark "*",
        if optional then mark "?" else seq [mark "?", ahead (mark "["), rankSuffix]])])

/-- A dotted name of a namespace. -/
def dottedName (g : Grammar) : Rule := solid .name (typePath g)

/-- The names of the type parameters of a declaration. -/
def typeParameters (attributes : Rule) : Rule :=
  node .typeParameterList
    (seq [mark "<",
      sepBy1 (mark ",")
        (node .typeParameter (seq [attributes, opt (wordOf ["in", "out"]), identifier])),
      mark ">"])

/-- The conditions on type parameters. -/
def constraints (g : Grammar) : Rule :=
  many (node .constraint (seq [word "where", identifier, mark ":", sepBy1 (mark ",") one]))
where
  /-- One condition on a type parameter. -/
  one : Rule :=
    alt [
      seq [word "new", mark "(", mark ")"],
      seq [wordOf ["class", "struct", "notnull", "unmanaged", "default"], opt (mark "?")],
      g .typeName]

/-- Marks that decide, after `name<…>`, that the angle brackets hold type
arguments. -/
def afterTypeArguments : List String :=
  ["(", ")", "]", "\x7d", ":", ";", ",", ".", "?", "==", "!=", "|", "^", "&&", "||", "&", "[",
   "\x7b", "??", "=>"]

/-- A name within an expression, with type arguments if it has any. -/
def simpleName (g : Grammar) : Rule :=
  alt [
    node .genericName (seq [identifier, typeArguments g, ahead (markOf afterTypeArguments)]),
    identifier]

end Grammar
end CSharp
end MappingAudit
