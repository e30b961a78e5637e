/-
# Type expressions

The type of a member or a type argument as it is written: a dotted name with
type arguments, an array, an optional type, or a tuple.  Several spellings of
one type are brought to a single form by `normalize`; `toText` writes an
expression back; `substitute` puts types in place of type parameters.
-/

import MappingAudit.Text.Pieces

namespace MappingAudit

/-- A written type. -/
inductive TypeExpr where
  /-- A dotted name with the type arguments of all its segments. -/
  | named (path : List String) (args : List TypeExpr)
  /-- An array of `rank` dimensions. -/
  | array (element : TypeExpr) (rank : Nat)
  /-- An optional type `T?`. -/
  | nullable (inner : TypeExpr)
  /-- A tuple of types; element names are not kept. -/
  | tuple (items : List TypeExpr)
  deriving Repr, Inhabited, BEq

namespace TypeExpr

/-- The type named by a dotted text, without type arguments. -/
def ofName (name : String) : TypeExpr := named (Pieces.splitText '.' name) []

/-- The last segment of a named type. -/
def simpleName? : TypeExpr → Option String
  | named path _ => path.getLast?
  | _ => none

/-- The dotted path of a named type. -/
def pathText? : TypeExpr → Option String
  | named path _ => some (Pieces.join "." path)
  | _ => none

/-- The type arguments of a named type. -/
def genericArgs : TypeExpr → List TypeExpr
  | named _ args => args
  | _ => []

/-- Optional types. -/
def isNullable : TypeExpr → Bool
  | nullable _ => true
  | _ => false

/-- The type below one optional wrapper. -/
def stripNullable : TypeExpr → TypeExpr
  | nullable inner => inner
  | t => t

/-- The optional type of `t`; a type that is optional already stays as it is. -/
def optional (t : TypeExpr) : TypeExpr := if t.isNullable then t else nullable t

mutual

/-- The written form of a type. -/
def toText : TypeExpr → String
  | named path [] => Pieces.join "." path
  | named path (a :: as) => Pieces.join "." path ++ "<" ++ Pieces.join ", " (texts (a :: as)) ++ ">"
  | array element rank => toText element ++ "[" ++ String.ofList (List.replicate (rank - 1) ',') ++ "]"
  | nullable inner => toText inner ++ "?"
  | tuple items => "(" ++ Pieces.join ", " (texts items) ++ ")"

/-- The written forms of a list of types. -/
def texts : List TypeExpr → List String
  | [] => []
  | t :: ts => toText t :: texts ts

end

instance : ToString TypeExpr := ⟨toText⟩

/-- The type bound to a parameter name. -/
abbrev Bindings := List (String × TypeExpr)

mutual

/-- Replaces plain names by the types bound to them.  An optional type whose
inner type becomes optional is not wrapped twice. -/
def substitute (b : Bindings) : TypeExpr → TypeExpr
  | named [name] [] => (b.lookup name).getD (named [name] [])
  | named path args => named path (substituteAll b args)
  | array element rank => array (substitute b element) rank
  | nullable inner => optional (substitute b inner)
  | tuple items => tuple (substituteAll b items)

/-- Substitution in every type of a list. -/
def substituteAll (b : Bindings) : List TypeExpr → List TypeExpr
  | [] => []
  | t :: ts => substitute b t :: substituteAll b ts

end

/-- The keyword for the framework name of a built-in type. -/
def keyword? : String → Option String
  | "String" => some "string"
  | "Boolean" => some "bool"
  | "Byte" => some "byte"
  | "SByte" => some "sbyte"
  | "Int16" => some "short"
  | "UInt16" => some "ushort"
  | "Int32" => some "int"
  | "UInt32" => some "uint"
  | "Int64" => some "long"
  | "UInt64" => some "ulong"
  | "Single" => some "float"
  | "Double" => some "double"
  | "Decimal" => some "decimal"
  | "Char" => some "char"
  | "Object" => some "object"
  | _ => none

/-- A path without a leading `global` qualifier. -/
def dropGlobal : List String → List String
  | "global" :: s :: rest => s :: rest
  | path => path

/-- `System.X` and `X` become the keyword of the built-in type `X`. -/
def useKeyword : List String → List String
  | [name] => [(keyword? name).getD name]
  | ["System", name] =>
    match keyword? name with
    | some k => [k]
    | none => ["System", name]
  | path => path

/-- A name with its arguments; `Nullable` of one argument is an optional type. -/
def ofPath (path : List String) (args : List TypeExpr) : TypeExpr :=
  match args with
  | [inner] => if path.getLast? = some "Nullable" then nullable inner else named path [inner]
  | args => named path args

mutual

/-- One form for the spellings of a type: keywords for built-in types, `T?` for
`Nullable<T>`, no `global` qualifier. -/
def normalize : TypeExpr → TypeExpr
  | named path args => ofPath (useKeyword (dropGlobal path)) (normalizeAll args)
  | array element rank => array (normalize element) rank
  | nullable inner => nullable (normalize inner)
  | tuple items => tuple (normalizeAll items)

/-- The single form of every type of a list. -/
def normalizeAll : List TypeExpr → List TypeExpr
  | [] => []
  | t :: ts => normalize t :: normalizeAll ts

end

end TypeExpr
end MappingAudit
