/-
# Expressions that convert values

How a value of one type is turned into another, which value stands for `null`, and how
a sequence becomes a collection of a given kind.  Every expression comes with the
confidence that it is what was meant.
-/

import MappingAudit.Shape.Compare

namespace MappingAudit

/-- How sure it is that a fix is what was meant. -/
inductive Confidence where
  | high
  | medium
  /-- Needs a decision. -/
  | low
  deriving Repr, DecidableEq, Inhabited

namespace Confidence

/-- The name. -/
def name : Confidence → String
  | high => "high"
  | medium => "medium"
  | low => "low"

end Confidence

namespace Conversion

/-- An expression with its confidence. -/
abbrev Rated := String × Confidence

/-- Types with a method that reads a text. -/
def parseable : List String :=
  ["bool", "byte", "sbyte", "short", "ushort", "int", "uint", "long", "ulong", "float", "double",
    "decimal", "char", "Guid", "DateTime", "DateTimeOffset", "DateOnly", "TimeOnly", "TimeSpan"]

/-- The method that converts numbers to a type. -/
def method? : String → Option String
  | "bool" => some "ToBoolean"
  | "byte" => some "ToByte"
  | "sbyte" => some "ToSByte"
  | "short" => some "ToInt16"
  | "ushort" => some "ToUInt16"
  | "int" => some "ToInt32"
  | "uint" => some "ToUInt32"
  | "long" => some "ToInt64"
  | "ulong" => some "ToUInt64"
  | "float" => some "ToSingle"
  | "double" => some "ToDouble"
  | "decimal" => some "ToDecimal"
  | _ => none

/-- Reads a text as a value of another type. -/
def fromText? (expr : String) (d : Shape) : Option Rated :=
  if d.isEnum then some ("Enum.Parse<" ++ d.code ++ ">(" ++ expr ++ ")", .medium)
  else if parseable.contains d.name then some (d.name ++ ".Parse(" ++ expr ++ ")", .medium)
  else none

/-- Converts a number or truth value to a number or truth value. -/
def fromNumber? (expr : String) (s d : Shape) : Option Rated :=
  if Shape.isNumeric s.name || s.name == "bool" then
    (method? d.name).map fun m => ("Convert." ++ m ++ "(" ++ expr ++ ")", .medium)
  else none

/-- The expression that converts `expr` from one type to another, when one is known. -/
def convert? (expr : String) (source destination : Shape) : Option Rated :=
  let s := source.underlying
  let d := destination.underlying
  if s.scalarFits d then some (expr, .high)
  else if d.name == "string" && (s.isBuiltin || s.isEnum) then
    some (expr ++ (if source.isNullable then "?.ToString()" else ".ToString()"), .high)
  else
    match if s.name == "string" then fromText? expr d else none with
    | some r => some r
    | none => fromNumber? expr s d

/-- The expression that forces the type of `expr`. -/
def cast (expr : String) (destination : Shape) : Rated :=
  ("(" ++ destination.code ++ ")" ++ expr, .low)

/-- The literal that stands for no value of a built-in type. -/
def zero? : String → Option String
  | "string" => some "\"\""
  | "int" | "short" | "byte" | "sbyte" | "ushort" => some "0"
  | "long" => some "0L"
  | "uint" => some "0u"
  | "ulong" => some "0UL"
  | "decimal" => some "0m"
  | "float" => some "0f"
  | "double" => some "0d"
  | "bool" => some "false"
  | "char" => some "'\\0'"
  | "Guid" => some "Guid.Empty"
  | "DateTime" => some "DateTime.MinValue"
  | "DateTimeOffset" => some "DateTimeOffset.MinValue"
  | "TimeSpan" => some "TimeSpan.Zero"
  | _ => none

/-- The empty collection of a kind. -/
def emptyOf? (kind : CollectionKind) (key : Option Shape) (element : String) : Option String :=
  match kind with
  | .list => some ("new List<" ++ element ++ ">()")
  | .set => some ("new HashSet<" ++ element ++ ">()")
  | .queue => some ("new Queue<" ++ element ++ ">()")
  | .stack => some ("new Stack<" ++ element ++ ">()")
  | .array => some ("Array.Empty<" ++ element ++ ">()")
  | .sequence => some ("Enumerable.Empty<" ++ element ++ ">()")
  | .dictionary => key.map fun k => "new Dictionary<" ++ k.code ++ ", " ++ element ++ ">()"

/-- The value that takes the place of `null`.  A new object in its place changes what
`null` means, which needs a decision. -/
def nullFallback? (destination : Shape) : Option Rated :=
  let d := destination.underlying
  match zero? d.name with
  | some z => some (z, .high)
  | none =>
    match d.ownKind?, d.ownElement? with
    | some kind, some element =>
      (emptyOf? kind d.ownKey? element.code).map fun e => (e, .low)
    | _, _ =>
      if d.isValueType && d.resolved then some ("default", .high)
      else if d.isComplex then some ("new " ++ d.code ++ "()", .low)
      else none

/-- The collection of a kind with the elements of a sequence. -/
def materialize? (expr : String) (kind : CollectionKind) (element : String) : Option String :=
  match kind with
  | .list => some (expr ++ ".ToList()")
  | .array => some (expr ++ ".ToArray()")
  | .set => some (expr ++ ".ToHashSet()")
  | .queue => some ("new Queue<" ++ element ++ ">(" ++ expr ++ ")")
  | .stack => some ("new Stack<" ++ element ++ ">(" ++ expr ++ ")")
  | .sequence => some expr
  | .dictionary => none

/-- Replaces the name `x` by `kv.Value`, where it stands alone and not behind a dot. -/
def valueOf (before : Option Char) : List Char → List Char
  | [] => []
  | c :: cs =>
    let isAlone := c == 'x' && !before.any (fun b => CharClass.segment b || b == '.') &&
      !cs.head?.any CharClass.segment
    (if isAlone then "kv.Value".toList else [c]) ++ valueOf (some c) cs

/-- The conversion of the element `x`; the element itself when none is known. -/
def element (s d : Shape) : Rated := (convert? "x" s d).getD ("x", .low)

/-- The collection of a kind with the converted elements of another. -/
def project? (expr : String) (s d : Shape) (kind : CollectionKind) : Option Rated :=
  let (body, confidence) := element s d
  if kind == .dictionary then
    some (expr ++ ".ToDictionary(kv => kv.Key, kv => " ++
      String.ofList (valueOf none body.toList) ++ ")", confidence)
  else
    (materialize? (expr ++ ".Select(x => " ++ body ++ ")") kind d.code).map fun t => (t, confidence)

end Conversion
end MappingAudit
