/-
# How two types fit

A source member fills a destination member by convention when both have the same
type, when the language widens the source value, or when one is an enumeration
and the other a text, a whole number or an enumeration.  Collections and declared
types are compared further by other checks.
-/

import MappingAudit.Shape.Describe

namespace MappingAudit

/-- The outcome of comparing a source type with a destination type. -/
inductive Fit where
  | compatible
  /-- Compatible, but `null` has no place in the destination. -/
  | nullToValue
  | incompatible
  /-- Two different declared types. -/
  | nested
  /-- Two collections. -/
  | collection
  /-- One of the types has no known meaning. -/
  | unknown
  deriving Repr, DecidableEq, Inhabited

namespace Shape

/-- The whole numbers. -/
def isIntegral (name : String) : Bool :=
  ["sbyte", "byte", "short", "ushort", "int", "uint", "long", "ulong"].contains name

/-- The numbers. -/
def isNumeric (name : String) : Bool :=
  isIntegral name || ["float", "double", "decimal"].contains name

/-- The types that values of a built-in type widen to. -/
def wider : String → List String
  | "sbyte" => ["short", "int", "long", "float", "double", "decimal"]
  | "byte" => ["short", "ushort", "int", "uint", "long", "ulong", "float", "double", "decimal"]
  | "short" => ["int", "long", "float", "double", "decimal"]
  | "ushort" => ["int", "uint", "long", "ulong", "float", "double", "decimal"]
  | "int" => ["long", "float", "double", "decimal"]
  | "uint" => ["long", "ulong", "float", "double", "decimal"]
  | "long" => ["float", "double", "decimal"]
  | "ulong" => ["float", "double", "decimal"]
  | "char" => ["ushort", "int", "uint", "long", "ulong", "float", "double", "decimal"]
  | "float" => ["double"]
  | "DateTime" => ["DateTimeOffset"]
  | _ => []

/-- Values of `a` widen to `b`. -/
def widens (a b : String) : Bool := (wider a).contains b

/-- A text or a whole number, which enumerations convert from and to. -/
def isEnumValue (name : String) : Bool := name == "string" || isIntegral name

/-- The mapper converts single values of `s` to `d`, whether or not they are
optional. -/
def scalarFits (s d : Shape) : Bool :=
  let s := s.underlying
  let d := d.underlying
  s.sameUnderlying d || (s.isEnum && d.isEnum) || (s.isEnum && isEnumValue d.name) ||
    (d.isEnum && isEnumValue s.name) || d.name == "object" ||
    (s.isBuiltin && d.isBuiltin && widens s.name d.name)

/-- Whether `null` has a place in the destination. -/
def nullFit (s d : Shape) : Fit :=
  if s.isNullable && !d.isNullable then .nullToValue else .compatible

/-- How a source type fits a destination type. -/
def fit (s d : Shape) : Fit :=
  if s.sameUnderlying d then nullFit s d
  else if !s.underlying.resolved || !d.underlying.resolved then .unknown
  else if s.underlying.isCollection && d.underlying.isCollection then .collection
  else if s.underlying.isComplex && d.underlying.isComplex then .nested
  else if scalarFits s d then nullFit s d
  else .incompatible

end Shape
end MappingAudit
