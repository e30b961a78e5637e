/-
# Which chains register mappings

Other libraries have methods named `CreateMap` too.  A chain counts when it is
called on a mapping profile, on a value of one of the framework's configuration
types, or on the parameter of a callback that the framework calls.
-/

import MappingAudit.Catalog.Profile

namespace MappingAudit
namespace Recognition

/-- The framework's configuration types. -/
def configTypes : List String :=
  ["IMapperConfigurationExpression", "IProfileExpression", "MapperConfigurationExpression",
    Catalog.profileName]

/-- The methods and constructors whose callback gets a configuration. -/
def callbackOwners : List String := ["MapperConfiguration", "AddAutoMapper", "AddMaps"]

/-- The declared type around a chain. -/
def enclosing? (c : Catalog) (chain : Source.Chain) : Option Catalog.Id :=
  chain.enclosingType.bind c.lookup

/-- The namespace of the type around a chain. -/
def namespaceOf (c : Catalog) (chain : Source.Chain) : Option String :=
  (enclosing? c chain).bind fun id => (c.get? id).bind (·.ns)

/-- The rest of a name in the namespace of the framework. -/
def frameworkName? (path : String) : Option String :=
  (Pieces.dropHead? (Source.frameworkNamespace ++ ".").toList path.toList).map String.ofList

/-- The declared type `t` is a mapping profile; a name that nothing declares counts
when it is the name of a configuration type. -/
def isConfigByName (c : Catalog) (ns : Option String) (t : TypeExpr) (path : String) : Bool :=
  match c.resolveType t ns with
  | some id => c.isProfile id
  | none => configTypes.contains path

/-- A value of the written type is a configuration. -/
def isConfigType (c : Catalog) (file : Source.File) (ns : Option String) (text : String) : Bool :=
  match TypeExpr.read? text with
  | none => false
  | some t =>
    let path := t.pathText?.getD ""
    match frameworkName? path with
    | some name => configTypes.contains name
    | none =>
      (configTypes.contains path && file.importsFramework && (c.visibleFrom path ns).isNone) ||
        isConfigByName c ns t path

/-- The chain registers a mapping. -/
def isMapping (c : Catalog) (file : Source.File) (chain : Source.Chain) : Bool :=
  match chain.receiver with
  | .implicit | .this | .base => (enclosing? c chain).any c.isProfile
  | .identifier _ (some (.callback owner)) => callbackOwners.contains (Catalog.lastSegment owner)
  | .identifier _ (some (.typed type)) => isConfigType c file (namespaceOf c chain) type
  | .identifier _ none => false
  | .other _ => false

end Recognition
end MappingAudit
